/-
# One sampling decision for a request

A request is marked with a decision that was made elsewhere, or a sampler
decides.  The sampler is a program: while it runs it reads the decision in
force, marks the request itself and sets its priority, and it may break off.  So
what happens to the sampling of a request is finer than the calls, and is told
as a list of moves (`Sampling.course`); the fields of the metadata follow them
(`Metadata.calls_sampling`).

The first move with a decision settles it.  The answer of a sampler is such a
move, the only one that also brings a priority, and there is at most one of
them (`Sampling.course_answers`).  A sampler that breaks off brings none, and
then another one may be consulted (`Metadata.verdicts_consultations`).
Everything that a caller is told agrees with the decision in force
(`Metadata.decides_once`).
-/

import Telemetry.Proofs.Calls

namespace Telemetry

open Numeric

/-! ### Moves -/

/-- Where a request stands with sampling. -/
structure Sampling where
  decision : Option Bool := none
  priority : Binary32 := .zero false
  deriving DecidableEq

namespace Sampling

/-- What happens to the sampling of a request. -/
inductive Move where
  /-- A decision that was made elsewhere comes in. -/
  | mark (b : Bool)
  /-- The priority is set. -/
  | prioritize (x : Binary32)
  /-- A consulted sampler comes to a decision, with a priority. -/
  | answer (b : Bool) (x : Binary32)
  deriving DecidableEq

namespace Move

/-- The decision of a move. -/
def decision? : Move → Option Bool
  | mark b => some b
  | prioritize _ => none
  | answer b _ => some b

/-- The answer of a sampler. -/
def answer? : Move → Option (Bool × Binary32)
  | mark _ => none
  | prioritize _ => none
  | answer b x => some (b, x)

end Move

/-- Where a request stands after a move.  An answer counts only while nothing
is decided. -/
def move (s : Sampling) : Move → Sampling
  | .mark b => { s with decision := some (s.decision.getD b) }
  | .prioritize x => { s with priority := x }
  | .answer b x => if s.decision.isSome then s else ⟨some b, x⟩

/-- Where a request stands after moves. -/
def moves (s : Sampling) (as : List Move) : Sampling := as.foldl move s

variable {s : Sampling} {as bs : List Move} {a : Move} {b d : Bool} {x : Binary32}

/-- No moves. -/
@[simp] theorem moves_nil (s : Sampling) : s.moves [] = s := rfl

/-- Moves are made from the first one on. -/
@[simp] theorem moves_cons (s : Sampling) (a : Move) (as : List Move) :
    s.moves (a :: as) = (s.move a).moves as := rfl

/-- Moves can be made in two parts. -/
@[simp] theorem moves_append (s : Sampling) (as bs : List Move) :
    s.moves (as ++ bs) = (s.moves as).moves bs := by
  simp [moves]

/-- A decision is taken over only while there is none. -/
theorem move_decision (s : Sampling) (a : Move) :
    (s.move a).decision = s.decision.or a.decision? := by
  cases a <;> cases h : s.decision <;> simp [move, Move.decision?, h]

/-- The first decision stays in force. -/
theorem moves_decision (s : Sampling) (as : List Move) :
    (s.moves as).decision = s.decision.or (as.findSome? Move.decision?) := by
  induction as generalizing s with
  | nil => simp
  | cons a as ih =>
    rw [moves_cons, ih, move_decision, Option.or_assoc, List.findSome?_cons]
    cases a.decision? <;> rfl

/-- **A decision never changes.** -/
theorem moves_decided (h : s.decision = some d) (as : List Move) :
    (s.moves as).decision = some d := by
  rw [moves_decision, h, Option.some_or]

/-- A move other than a setting of the priority changes the priority only as
the answer that decides. -/
theorem move_priority (h : (s.move a).priority ≠ s.priority) :
    (∃ x, a = .prioritize x) ∨
      ∃ b x, a = .answer b x ∧ s.decision = none ∧ s.move a = ⟨some b, x⟩ := by
  cases a with
  | mark b => exact absurd rfl h
  | prioritize x => exact .inl ⟨x, rfl⟩
  | answer b x =>
    cases hs : s.decision with
    | some d => simp [move, hs] at h
    | none => exact .inr ⟨b, x, rfl, rfl, by simp [move, hs]⟩

end Sampling

/-! ### The moves of calls -/

open Sampling (Move)

namespace Consultation

/-- The moves of a consultation, by the decision in force when it starts. -/
def moves : Consultation → Option Bool → List Move
  | .decide b x, _ => [.answer b x]
  | .look next, d => (next d).moves d
  | .mark b next, d => .mark b :: (next (d.getD b)).moves (some (d.getD b))
  | .prioritize x next, d => .prioritize x :: next.moves d
  | .fail, _ => []

/-- A consultation brings no answer, or one and with it a decision. -/
theorem moves_answers (k : Consultation) (d : Option Bool) :
    (k.moves d).filterMap Move.answer? = [] ∨
      ((k.moves d).filterMap Move.answer?).length = 1 ∧
        ((k.moves d).findSome? Move.decision?).isSome := by
  induction k generalizing d with
  | decide b x => exact .inr ⟨rfl, rfl⟩
  | look next ih => exact ih d d
  | mark b next ih => exact (ih (d.getD b) (some (d.getD b))).imp_right fun h => ⟨h.1, rfl⟩
  | prioritize x next ih => exact ih d
  | fail => exact .inl rfl

namespace Ending

/-- What a sampler answered, unless it broke off. -/
def answer? : Ending → Option (Bool × Binary32)
  | decided b x => some (b, x)
  | brokenOff => none

/-- The moves that an ending brings. -/
def moves : Ending → List Move
  | decided b x => [.answer b x]
  | brokenOff => []

/-- The moves of an ending tell what the sampler answered. -/
theorem moves_filterMap (e : Ending) : e.moves.filterMap Move.answer? = e.answer?.toList := by
  cases e <;> rfl

end Ending

end Consultation

namespace Sampling

/-- The moves of a call. -/
def movesOf (s : Sampling) : Metadata.Call → List Move
  | .flag b => [.mark b]
  | .priority x => [.prioritize x]
  | .sample sampler => if s.decision.isSome then [] else (sampler s.priority).moves s.decision
  | _ => []

/-- The moves of calls, one after the other. -/
def course (s : Sampling) : List Metadata.Call → List Move
  | [] => []
  | c :: cs => s.movesOf c ++ (s.moves (s.movesOf c)).course cs

/-- Calls that follow others make their moves after those of the others. -/
theorem course_append (s : Sampling) (cs ds : List Metadata.Call) :
    s.course (cs ++ ds) = s.course cs ++ (s.moves (s.course cs)).course ds := by
  induction cs generalizing s with
  | nil => rfl
  | cons c cs ih => simp [course, ih]

/-- What the first calls did is the beginning of what all of them did. -/
theorem course_prefix (s : Sampling) {cs ds : List Metadata.Call} (h : cs <+: ds) :
    s.course cs <+: s.course ds := by
  obtain ⟨rest, rfl⟩ := h
  exact course_append s cs rest ▸ List.prefix_append ..

/-- A call gets an answer only while nothing is decided, and then something
is. -/
theorem movesOf_answers (s : Sampling) (c : Metadata.Call) :
    (s.movesOf c).filterMap Move.answer? = [] ∨
      ((s.movesOf c).filterMap Move.answer?).length = 1 ∧ s.decision = none ∧
        (s.moves (s.movesOf c)).decision.isSome := by
  cases c with
  | sample sampler =>
    cases h : s.decision with
    | some d => exact .inl (by simp [movesOf, h])
    | none =>
      have hmoves : s.movesOf (.sample sampler) = (sampler s.priority).moves none := by
        simp [movesOf, h]
      rw [hmoves, moves_decision, h, Option.none_or]
      exact (Consultation.moves_answers ..).imp_right fun hone => ⟨hone.1, rfl, hone.2⟩
  | _ => exact .inl rfl

/-- **Over all calls at most one sampler answers**, and none once something is
decided. -/
theorem course_answers (s : Sampling) (cs : List Metadata.Call) :
    ((s.course cs).filterMap Move.answer?).length ≤ if s.decision.isSome then 0 else 1 := by
  induction cs generalizing s with
  | nil => simp [course]
  | cons c cs ih =>
    specialize ih (s.moves (s.movesOf c))
    rw [course, List.filterMap_append, List.length_append]
    obtain hnone | ⟨hone, hopen, hdecided⟩ := s.movesOf_answers c
    · rw [hnone, List.length_nil, Nat.zero_add]
      cases hs : s.decision with
      | none => exact ih.trans (by split <;> simp)
      | some d => simpa [moves_decided hs] using ih
    · rw [if_pos hdecided, Nat.le_zero] at ih
      simp [hone, ih, hopen]

end Sampling

namespace Metadata

variable {m : Metadata} {c : Call}

/-- Where the request of some metadata stands with sampling. -/
def sampling (m : Metadata) : Sampling := ⟨m.sampled, m.priority⟩

/-- **A consultation makes its moves.**  Only the last one can be an answer: that
of the ending, which is left to the caller. -/
theorem consult_moves (k : Consultation) (m : Metadata) :
    ∃ as, k.moves m.sampled = as ++ (m.consult k).1.moves ∧
      (∀ a ∈ as, a.answer? = none) ∧ (m.consult k).2.sampling = m.sampling.moves as := by
  induction k generalizing m with
  | decide b x => exact ⟨[], rfl, by simp, rfl⟩
  | look next ih => exact ih m.sampled m
  | mark b next ih =>
    obtain ⟨as, heq, hno, hend⟩ := ih (m.sampled.getD b) (m.setSampledFlag b).2
    exact ⟨.mark b :: as, congrArg (_ :: ·) heq, List.forall_mem_cons.2 ⟨rfl, hno⟩, hend⟩
  | prioritize x next ih =>
    obtain ⟨as, heq, hno, hend⟩ := ih { m with priority := x }
    exact ⟨.prioritize x :: as, congrArg (_ :: ·) heq, List.forall_mem_cons.2 ⟨rfl, hno⟩, hend⟩
  | fail => exact ⟨[], rfl, by simp, rfl⟩

/-- **What comes of a consultation.**  A sampler that breaks off breaks the call
off.  The answer of another one is taken over unless a decision came up while it
ran, and the call returns the decision that is in force then. -/
theorem setSampled_consults (h : m.sampled = none) (s : Sampler) :
    (m.setSampled s).2.sampling =
        (m.consult (s m.priority)).2.sampling.moves (m.consult (s m.priority)).1.moves ∧
      (m.setSampled s).1.consultation = some (m.consult (s m.priority)).1 ∧
      ((m.consult (s m.priority)).1 = .brokenOff ∧ (m.setSampled s).1.decision = none ∨
        ∃ d, (m.setSampled s).1.decision = some d ∧ (m.setSampled s).2.sampled = some d) := by
  unfold setSampled
  rw [h]
  generalize m.consult (s m.priority) = r
  obtain ⟨⟨b, x⟩ | _, m'⟩ := r
  · obtain hd | ⟨d, hd⟩ := Option.eq_none_or_eq_some m'.sampled
    · simp [sampling, Sampling.move, Consultation.Ending.moves, hd]
    · simp [sampling, Sampling.move, Consultation.Ending.moves, hd]
  · simp [Consultation.Ending.moves]

/-- A call does to the sampling of a request what its moves do. -/
theorem call_sampling (m : Metadata) (c : Call) :
    (m.call c).sampling = m.sampling.moves (m.sampling.movesOf c) := by
  cases c with
  | sample s =>
    cases h : m.sampled with
    | some d => simp [call, setSampled, sampling, Sampling.movesOf, h]
    | none =>
      obtain ⟨as, heq, -, hend⟩ := consult_moves (s m.priority) m
      have hmoves : m.sampling.movesOf (.sample s) = (s m.priority).moves m.sampled := by
        simp [sampling, Sampling.movesOf, h]
      rw [call, hmoves, heq, Sampling.moves_append, ← hend, (setSampled_consults h s).1]
  | text f t =>
    simp only [call, setText]
    split <;> rfl
  | userAttribute k v =>
    simp only [call, addUserAttribute]
    split <;> rfl
  | _ => rfl

/-- **The metadata follow the moves.** -/
theorem calls_sampling (m : Metadata) (cs : List Call) :
    (m.calls cs).sampling = m.sampling.moves (m.sampling.course cs) := by
  induction cs generalizing m with
  | nil => rfl
  | cons c cs ih => rw [calls_cons, ih, call_sampling, Sampling.course, Sampling.moves_append]

/-! ### What the callers are told -/

/-- What the sampler of a call answered, if one was consulted and did not break
off. -/
def Verdict.answer? (v : Verdict) : Option (Bool × Binary32) :=
  v.consultation.bind Consultation.Ending.answer?

/-- What comes of a call about the decision. -/
def verdict? (m : Metadata) : Call → Option Verdict
  | .flag b => some { decision := some (m.setSampledFlag b).1 }
  | .sample s => some (m.setSampled s).1
  | _ => none

/-- What comes of the calls about the decision, in order. -/
def verdicts (m : Metadata) : List Call → List Verdict
  | [] => []
  | c :: cs => (m.verdict? c).toList ++ (m.call c).verdicts cs

/-- How the consultations of the calls ended, in order. -/
def consultations (m : Metadata) (cs : List Call) : List Consultation.Ending :=
  (m.verdicts cs).filterMap Verdict.consultation

variable {v : Verdict}

/-- A call about the decision consults a sampler only while there is none, and a
decision is in force afterwards unless that sampler broke off. -/
theorem verdict?_cases (h : m.verdict? c = some v) :
    (v.consultation = none ∨ m.sampled = none) ∧
      (v.consultation = some .brokenOff ∧ v.decision = none ∨
        ∃ d, v.decision = some d ∧ (m.call c).sampled = some d) := by
  cases c with
  | flag b =>
    cases h
    exact ⟨.inl rfl, .inr ⟨_, rfl, rfl⟩⟩
  | sample s =>
    cases h
    obtain hm | ⟨d, hm⟩ := Option.eq_none_or_eq_some m.sampled
    · obtain ⟨-, hconsulted, hend⟩ := setSampled_consults hm s
      rw [hconsulted]
      exact ⟨.inr hm, hend.imp_left fun hoff => ⟨congrArg some hoff.1, hoff.2⟩⟩
    · exact ⟨.inl (by simp [setSampled, hm]), .inr ⟨d, by simp [call, setSampled, hm]⟩⟩
  | _ => cases h

/-- The samplers that answer to calls are those whose answers are among the
moves. -/
theorem verdict?_answer (m : Metadata) (c : Call) :
    (m.verdict? c).toList.filterMap Verdict.answer? =
      (m.sampling.movesOf c).filterMap Move.answer? := by
  cases c with
  | sample s =>
    cases h : m.sampled with
    | some d => simp [verdict?, setSampled, sampling, Sampling.movesOf, Verdict.answer?, h]
    | none =>
      obtain ⟨as, heq, hno, -⟩ := consult_moves (s m.priority) m
      have hmoves : m.sampling.movesOf (.sample s) = (s m.priority).moves m.sampled := by
        simp [sampling, Sampling.movesOf, h]
      rw [hmoves, heq, List.filterMap_append, List.filterMap_eq_nil_iff.2 hno,
        Consultation.Ending.moves_filterMap]
      simp only [verdict?, Option.toList_some, List.nil_append]
      cases ha : (m.consult (s m.priority)).1.answer? <;>
        simp [Verdict.answer?, (setSampled_consults h s).2.1, ha]
  | _ => rfl

/-- Over all calls the answers of the samplers are the answers among the moves. -/
theorem verdicts_answers (m : Metadata) (cs : List Call) :
    (m.verdicts cs).filterMap Verdict.answer? =
      (m.sampling.course cs).filterMap Move.answer? := by
  induction cs generalizing m with
  | nil => rfl
  | cons c cs ih =>
    rw [verdicts, Sampling.course, List.filterMap_append, List.filterMap_append,
      verdict?_answer, ih, call_sampling]

/-- A decision in force stays through a call. -/
theorem call_sampled {d : Bool} (h : m.sampled = some d) (c : Call) :
    (m.call c).sampled = some d := by
  have hmoves := congrArg Sampling.decision (call_sampling m c)
  rwa [Sampling.moves_decided (s := m.sampling) h] at hmoves

/-- **A sampler is consulted only after others broke off**, and none at all once
something is decided. -/
theorem verdicts_consultations (m : Metadata) (cs : List Call) : (m.consultations cs).length ≤
    if m.sampled.isSome then 0 else (m.consultations cs).count .brokenOff + 1 := by
  induction cs generalizing m with
  | nil => exact Nat.zero_le _
  | cons c cs ih =>
    specialize ih (m.call c)
    have hcons : m.consultations (c :: cs) =
        ((m.verdict? c).bind Verdict.consultation).toList ++ (m.call c).consultations cs := by
      rw [consultations, verdicts, List.filterMap_append]
      cases m.verdict? c with
      | none => rfl
      | some v => cases hv : v.consultation <;> simp [hv, consultations]
    rw [hcons]
    cases he : (m.verdict? c).bind Verdict.consultation with
    | none =>
      rw [Option.toList_none, List.nil_append]
      cases hm : m.sampled with
      | none => exact ih.trans (by split <;> simp)
      | some d => rwa [call_sampled hm c] at ih
    | some e =>
      obtain ⟨v, hv, hve⟩ := Option.bind_eq_some_iff.1 he
      obtain ⟨hopen, hend⟩ := verdict?_cases hv
      rw [hve] at hopen hend
      have hnone : m.sampled = none := hopen.resolve_left (Option.some_ne_none e)
      rw [hnone, Option.isSome_none, Option.toList_some, List.singleton_append, List.length_cons,
        List.count_cons]
      cases e with
      | decided b x =>
        -- the answer settles the decision, so no other sampler is consulted
        obtain ⟨hoff, -⟩ | ⟨d, -, hd⟩ := hend
        · cases hoff
        · rw [hd, Option.isSome_some, if_pos rfl] at ih
          simpa using ih.trans (Nat.zero_le _)
      | brokenOff => simpa using ih.trans (by split <;> simp)

/-- Calls on a request come to one decision. -/
structure DecidesOnce (m : Metadata) (cs : List Call) : Prop where
  /-- The moves tell where the request stands with sampling, now and after
  each call on the way. -/
  traced : ∀ before, before <+: cs → m.sampling.course before <+: m.sampling.course cs ∧
    (m.calls before).sampling = m.sampling.moves (m.sampling.course before)
  /-- Once there is a decision, no move changes it. -/
  kept : ∀ as bs d, as ++ bs <+: m.sampling.course cs →
    (m.sampling.moves as).decision = some d → (m.sampling.moves (as ++ bs)).decision = some d
  /-- Every call about the decision returns the one in force, or its sampler
  broke off and it does not return. -/
  told : ∀ before c after v, cs = before ++ c :: after → (m.calls before).verdict? c = some v →
    v.consultation = some .brokenOff ∧ v.decision = none ∨
      ∃ d, v.decision = some d ∧ ((m.calls before).call c).sampled = some d
  /-- A sampler that puts a decision in force is told the same way. -/
  toldInside : ∀ (n : Metadata) b next, ∃ d, (n.setSampledFlag b).2.sampled = some d ∧
    n.consult (.mark b next) = (n.setSampledFlag b).2.consult (next d)
  /-- None but the first sampler is consulted, unless those before broke off, and
  none at all about a decided request. -/
  consulted : (m.consultations cs).length ≤
    if m.sampled.isSome then 0 else (m.consultations cs).count .brokenOff + 1
  /-- At most one sampler answers.  The answers are those among the moves. -/
  answered : ((m.verdicts cs).filterMap Verdict.answer?).length ≤ 1 ∧
    (m.verdicts cs).filterMap Verdict.answer? = (m.sampling.course cs).filterMap Move.answer?
  /-- An answer that comes before any decision is in force from then on, and
  so is its priority. -/
  settles : ∀ as b x, as ++ [.answer b x] <+: m.sampling.course cs →
    (m.sampling.moves as).decision = none → m.sampling.moves (as ++ [.answer b x]) = ⟨some b, x⟩
  /-- Nothing else changes the priority, other than setting it. -/
  untouched : ∀ as a, as ++ [a] <+: m.sampling.course cs →
    (m.sampling.moves (as ++ [a])).priority ≠ (m.sampling.moves as).priority →
    (∃ x, a = .prioritize x) ∨ ∃ b x, a = .answer b x ∧ (m.sampling.moves as).decision = none

/-- **A request is decided about once.**  Whatever is recorded of it and
whatever the samplers do while they run, the first decision stays in force and
every caller is told it.  At most one sampler answers, and its priority is taken
over exactly when its decision is; another one is consulted only where those
before it broke off. -/
theorem decides_once (m : Metadata) (cs : List Call) : DecidesOnce m cs where
  traced before h := ⟨Sampling.course_prefix _ h, calls_sampling m before⟩
  kept as bs d _ h := by
    rw [Sampling.moves_append]
    exact Sampling.moves_decided h bs
  told _ _ _ _ _ h := (verdict?_cases h).2
  toldInside n b next := ⟨n.sampled.getD b, rfl, rfl⟩
  consulted := verdicts_consultations m cs
  answered := by
    refine ⟨?_, verdicts_answers m cs⟩
    rw [verdicts_answers]
    exact (Sampling.course_answers m.sampling cs).trans (by split <;> simp)
  settles as b x _ h := by simp [Sampling.move, h]
  untouched as a _ h := by
    rw [Sampling.moves_append, Sampling.moves_cons, Sampling.moves_nil] at h
    exact (Sampling.move_priority h).imp_right fun ⟨b, x, ha, hopen, _⟩ => ⟨b, x, ha, hopen⟩

/-- A sampler that sets the priority of the request and marks it, and is overruled
by its own mark. -/
def overruled : Sampler := fun _ =>
  .prioritize Sampler.boost (.mark false fun _ => .decide true (.zero false))

/-- What a sampler does to the priority itself remains, although its decision does
not count, and after one that breaks off another one is consulted. -/
theorem overruled_prioritizes :
    ((ofLimits .standard).setSampled overruled).1.decision = some false ∧
      (ofLimits .standard).priority = .zero false ∧
      ((ofLimits .standard).setSampled overruled).2.priority = Sampler.boost ∧
      Sampler.boost ≠ .zero false ∧
      ((ofLimits .standard).consultations
        [.sample fun _ => .fail, .sample fun x => .decide true x]).length = 2 :=
  ⟨rfl, rfl, rfl, by decide, rfl⟩

end Metadata
end Telemetry
