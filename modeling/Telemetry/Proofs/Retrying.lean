/-
# Offering a batch again

A sink answers one offer after the other, and what it answers does not depend on
what it is offered (`Sink.outcome`).  So a call with a retry policy is fixed by the
position of the first offer that is accepted, and by the greatest number of
attempts: it takes a turn for every attempt up to the first of the two, each turn
being a wait, if there is one, and an offer of the batch (`Retry.Policy.turns`).
What the call leaves behind is what these turns leave behind
(`Exporter.exportBatch_turns`).

From the turns everything else is read off: how a call ends, how long it waits,
and what the two counters stand at after any calls (`Exporter.exportBatch_protocol`,
`Exporter.retries_counted`).
-/

import Telemetry.Proofs.Delivery
import Telemetry.Proofs.Rounding
import Mathlib.Algebra.Order.BigOperators.Group.List
import Mathlib.Data.ENat.Lattice

namespace Telemetry

open Trace Numeric

/-! ### Sinks -/

/-- The position, from one on, of the first offer that is accepted. -/
noncomputable def firstAccepted (o : Nat → Option ExportFailure) : ℕ∞ :=
  ⨅ (i : Nat) (_ : o i = none), (i + 1 : ℕ∞)

section FirstAccepted

variable {o : Nat → Option ExportFailure} {n : Nat}

/-- The first offer that is accepted is the one behind those that are refused. -/
theorem firstAccepted_eq (hn : o n = none) (h : ∀ i < n, o i ≠ none) :
    firstAccepted o = n + 1 := by
  refine le_antisymm (iInf₂_le n hn) (le_iInf₂ fun i hi => ?_)
  have hle : n ≤ i := not_lt.1 fun hlt => h i hlt hi
  exact_mod_cast Nat.succ_le_succ hle

/-- As long as all are refused, the first accepted one is still to come. -/
theorem lt_firstAccepted (h : ∀ i < n, o i ≠ none) : (n : ℕ∞) < firstAccepted o := by
  refine (ENat.add_one_le_iff (ENat.natCast_ne_top n)).1 (le_iInf₂ fun i hi => ?_)
  have hle : n ≤ i := not_lt.1 fun hlt => h i hlt hi
  exact_mod_cast Nat.succ_le_succ hle

/-- Only a later offer is accepted where the first one is not. -/
theorem two_le_firstAccepted : 2 ≤ firstAccepted o ↔ o 0 ≠ none := by
  constructor
  · intro h h0
    rw [firstAccepted_eq h0 fun i hi => absurd hi (Nat.not_lt_zero i)] at h
    exact absurd h (by norm_num)
  · intro h0
    have hlt := lt_firstAccepted (o := o) (n := 1) fun i hi => by rwa [Nat.lt_one_iff.1 hi]
    exact (one_add_one_eq_two (R := ℕ∞)) ▸ Order.add_one_le_of_lt hlt

end FirstAccepted

namespace Sink

/-- How a sink answers its offers from now on. -/
def outcome : Sink → Nat → Option ExportFailure
  | script outcomes _ _, i => outcomes.getD i none
  | k, _ => (k.offer [] default).1

/-- The sink answers its next offers so. -/
def Follows (k : Sink) (o : Nat → Option ExportFailure) (n : Nat) : Prop :=
  ∀ i < n, k.outcome i = o i

variable (k : Sink) (rs : List RecordId) (s : Store)

/-- What comes of an offer is what the sink has in store first. -/
theorem offer_fst : (k.offer rs s).1 = k.outcome 0 := by
  cases k with
  | nowhere | log | file | missingDirectory | directory => rfl
  | script outcomes attempts names => rcases outcomes with _ | ⟨_ | f, rest⟩ <;> rfl

/-- **An offer uses one answer up.** -/
theorem outcome_offer (i : Nat) : (k.offer rs s).2.1.outcome i = k.outcome (i + 1) := by
  cases k with
  | nowhere | log | file | missingDirectory | directory => rfl
  | script outcomes attempts names => rcases outcomes with _ | ⟨_ | f, rest⟩ <;> rfl

/-- Every way to answer is that of a sink, as far as one likes. -/
theorem follows_script (o : Nat → Option ExportFailure) (n attempts : Nat) (names : List String) :
    (script ((List.range n).map o) attempts names).Follows o n := by
  intro i hi
  simp [outcome, hi]

end Sink

/-! ### Turns -/

/-- What is done in a call. -/
inductive Turn where
  /-- Time passes. -/
  | wait (d : Duration)
  /-- The batch is offered, as the attempt of this number. -/
  | offer (rs : List RecordId) (attempt : Nat)

namespace Turn

/-- The wait of a turn that is one. -/
def pause? : Turn → Option Duration
  | wait d => some d
  | offer .. => none

/-- The batch that is offered in a turn. -/
def batch? : Turn → Option (List RecordId)
  | wait _ => none
  | offer rs _ => some rs

/-- What a turn does to an exporter and the store: a wait is counted, and a
refusal is reported. -/
def perform : Turn → Exporter × Store → Exporter × Store
  | wait d, (e, s) =>
    ({ e with retries := e.retries + 1 }, { s with now := s.now + d.ceilMilliseconds })
  | offer rs attempt, (e, s) =>
    match e.sink.offer rs s with
    | (none, sink, s) => ({ e with sink := sink }, s)
    | (some f, sink, s) =>
      ({ e with sink := sink }, s.report [.attemptFailed sink.name attempt f.message])

/-- What some turns do, one after the other. -/
def performAll (ts : List Turn) (x : Exporter × Store) : Exporter × Store :=
  ts.foldl (fun x t => t.perform x) x

variable (ts us : List Turn) (x : Exporter × Store)

/-- Turns can be done in two parts. -/
theorem performAll_append : performAll (ts ++ us) x = performAll us (performAll ts x) :=
  List.foldl_append

/-- One turn. -/
theorem performAll_singleton (t : Turn) : performAll [t] x = t.perform x := rfl

/-- An offer changes the sink, and nothing else of the exporter. -/
theorem perform_offer (rs : List RecordId) (i : Nat) :
    ((offer rs i).perform x).1 = { x.1 with sink := (x.1.sink.offer rs x.2).2.1 } := by
  rw [perform]
  split <;> rename_i h <;> rw [h]

/-- **Turns change nothing of an exporter but its sink and its count of waits.** -/
theorem performAll_exporter : (performAll ts x).1 = { x.1 with
    sink := (performAll ts x).1.sink
    retries := x.1.retries + (ts.filterMap pause?).length } := by
  induction ts generalizing x with
  | nil => rfl
  | cons t ts ih =>
    rw [performAll, List.foldl_cons, ← performAll, ih]
    cases t with
    | wait d =>
      simp only [perform, pause?, List.filterMap_cons, List.length_cons]
      rw [Nat.add_right_comm, Nat.add_assoc]
    | offer rs i => simp only [perform_offer, pause?, List.filterMap_cons]

/-- A script counts the offers. -/
theorem performAll_script {outcomes : List (Option ExportFailure)} {attempts : Nat}
    {names : List String} (hx : x.1.sink = .script outcomes attempts names) :
    ∃ outcomes' names', (performAll ts x).1.sink =
      .script outcomes' (attempts + (ts.filterMap batch?).length) names' := by
  induction ts generalizing x outcomes attempts names with
  | nil => exact ⟨outcomes, names, hx⟩
  | cons t ts ih =>
    rw [performAll, List.foldl_cons, ← performAll]
    cases t with
    | wait d => exact ih _ hx
    | offer rs i =>
      have hstep : ∃ outcomes' names',
          ((offer rs i).perform x).1.sink = .script outcomes' (attempts + 1) names' := by
        rw [perform_offer, hx]
        rcases outcomes with _ | ⟨_ | f, rest⟩ <;> exact ⟨_, _, rfl⟩
      obtain ⟨outcomes', names', hstep⟩ := hstep
      obtain ⟨outcomes'', names'', hrest⟩ := ih _ hstep
      refine ⟨outcomes'', names'', hrest.trans ?_⟩
      rw [List.filterMap_cons, batch?, List.length_cons, Nat.add_assoc, Nat.add_comm 1]

end Turn

/-! ### Policies -/

namespace Retry.Policy

variable (p : Policy) (rs : List RecordId)

/-- The turn of an attempt: a wait, unless it is none, and an offer. -/
def turn (i : Nat) : List Turn :=
  (if (p.delay i).nanoseconds = 0 then [] else [.wait (p.delay i)]) ++ [.offer rs i]

/-- The turns of so many attempts. -/
def turns (n : Nat) : List Turn := (List.range n).flatMap (p.turn rs)

/-- How often a batch is offered when it is answered so. -/
def tries (o : Nat → Option ExportFailure) : Nat :=
  min ((List.range p.attempts).findIdx (fun i => (o i).isNone) + 1) p.attempts

/-- The last attempt comes behind all others. -/
theorem turns_succ (n : Nat) : p.turns rs (n + 1) = p.turns rs n ++ p.turn rs n := by
  simp [turns, List.range_succ]

/-- Every policy makes an attempt. -/
theorem attempts_pos : 0 < p.attempts := by
  unfold attempts
  omega

/-- **The last attempt is the first one that is accepted, or the last one that
there can be.** -/
theorem tries_cases (o : Nat → Option ExportFailure) :
    (∃ j < p.attempts, o j = none ∧ (∀ i < j, o i ≠ none) ∧ p.tries o = j + 1) ∨
      (∀ i < p.attempts, o i ≠ none) ∧ p.tries o = p.attempts := by
  set j := (List.range p.attempts).findIdx fun i => (o i).isNone
  have hbefore : ∀ i < j, o i ≠ none := by
    intro i hi hnone
    have h := List.not_of_lt_findIdx hi
    rw [List.getElem_range, hnone] at h
    cases h
  by_cases hlt : j < p.attempts
  · have hnone : (o j).isNone := by
      have h := List.findIdx_getElem (w := (List.length_range (n := p.attempts)).symm ▸ hlt)
      rwa [List.getElem_range] at h
    exact Or.inl ⟨j, hlt, Option.isNone_iff_eq_none.1 hnone, hbefore, Nat.min_eq_left hlt⟩
  · exact Or.inr ⟨fun i hi => hbefore i (hi.trans_le (not_lt.1 hlt)),
      Nat.min_eq_right ((not_lt.1 hlt).trans (Nat.le_succ j))⟩

/-- **The batch itself is offered** in each turn. -/
theorem batches_turns (n : Nat) : (p.turns rs n).filterMap Turn.batch? = List.replicate n rs := by
  induction n with
  | zero => rfl
  | succ n ih =>
    rw [turns_succ, List.filterMap_append, ih, turn, List.replicate_succ']
    split_ifs <;> rfl

/-- The waits are those before the attempts, where they are not none. -/
theorem pauses_turns (n : Nat) : (p.turns rs n).filterMap Turn.pause? =
    ((List.range n).map p.delay).filter fun d => d.nanoseconds ≠ 0 := by
  induction n with
  | zero => rfl
  | succ n ih =>
    rw [turns_succ, List.filterMap_append, ih, turn, List.range_succ, List.map_append,
      List.filter_append]
    refine congrArg _ ?_
    split_ifs with h <;> simp [Turn.pause?, h]

/-- The first attempt does not wait. -/
theorem delay_zero : p.delay 0 = ⟨0⟩ := rfl

/-- **No wait is longer than the longest one.** -/
theorem delay_le (i : Nat) : (p.delay i).nanoseconds ≤ p.maxDelay.nanoseconds := by
  unfold delay
  dsimp only
  split_ifs
  · exact Nat.zero_le _
  · exact le_rfl
  · exact Nat.min_le_right ..

/-- The waits of a call are at most the longest one before each attempt but the
first. -/
theorem sum_pauses_le (n : Nat) :
    (((p.turns rs n).filterMap Turn.pause?).map Duration.nanoseconds).sum ≤
      (n - 1) * p.maxDelay.nanoseconds := by
  rw [pauses_turns]
  refine ((List.filter_sublist.map _).sum_le_sum fun _ _ => Nat.zero_le _).trans ?_
  cases n with
  | zero => exact Nat.zero_le _
  | succ n =>
    rw [List.range_succ_eq_map, List.map_cons, List.map_cons, List.sum_cons]
    have hlater := List.sum_le_card_nsmul
      ((((List.range n).map Nat.succ).map p.delay).map Duration.nanoseconds)
      p.maxDelay.nanoseconds fun x hx => by
        obtain ⟨d, hd, rfl⟩ := List.mem_map.1 hx
        obtain ⟨i, -, rfl⟩ := List.mem_map.1 hd
        exact p.delay_le i
    simpa [delay_zero] using hlater

/-- How many waits there are in so many attempts. -/
def waits (n : Nat) : Nat := (List.range n).countP fun i => (p.delay i).nanoseconds ≠ 0

/-- There are as many waits as pauses among the turns. -/
theorem length_pauses (n : Nat) : ((p.turns rs n).filterMap Turn.pause?).length = p.waits n := by
  rw [pauses_turns, ← List.countP_eq_length_filter, List.countP_map]
  rfl

/-- **Before each attempt but the first there is one wait at most,** and there is
one where it is not none. -/
theorem waits_le (n : Nat) : p.waits n ≤ n - 1 ∧
    (p.waits n = n - 1 ↔ ∀ i, 0 < i → i < n → (p.delay i).nanoseconds ≠ 0) := by
  cases n with
  | zero => exact ⟨le_rfl, iff_of_true rfl fun i _ hi => absurd hi (Nat.not_lt_zero i)⟩
  | succ n =>
    have hlater : p.waits (n + 1) =
        (List.range n).countP fun i => (p.delay (i + 1)).nanoseconds ≠ 0 := by
      rw [waits, List.range_succ_eq_map, List.countP_cons, List.countP_map, delay_zero]
      rfl
    have hle := List.countP_le_length (p := fun i => decide ((p.delay (i + 1)).nanoseconds ≠ 0))
      (l := List.range n)
    have heq := List.countP_eq_length (p := fun i => decide ((p.delay (i + 1)).nanoseconds ≠ 0))
      (l := List.range n)
    rw [List.length_range, ← hlater] at hle heq
    refine ⟨hle, heq.trans ?_⟩
    simp only [List.mem_range, decide_eq_true_eq]
    constructor
    · intro h i hi hin
      obtain ⟨j, rfl⟩ := Nat.exists_eq_succ_of_ne_zero hi.ne'
      exact h j (Nat.lt_of_succ_lt_succ hin)
    · exact fun h i hi => h (i + 1) (Nat.succ_pos i) (Nat.succ_lt_succ hi)

/-- The waits of a policy grow from at least a millisecond, as far as they may. -/
structure Growing (p : Policy) : Prop where
  initial : 0 < p.initialDelay.milliseconds
  factor : (Binary.ofNat 1).le p.multiplier = true
  longest : 0 < p.maxDelay.nanoseconds

/-- A policy that grows waits before each attempt but the first. -/
theorem Growing.delay_ne_zero {p : Policy} (hp : p.Growing) {i : Nat} (hi : 0 < i) :
    (p.delay i).nanoseconds ≠ 0 := by
  have hraw : (Binary.ofNat 1).le (p.rawDelay i) = true :=
    Binary.one_le_mul (Binary.ofNat_le hp.initial) (Binary.one_le_pow hp.factor _)
  have hwhole : 0 < (p.rawDelay i).truncate maxMilliseconds :=
    Binary.truncate_pos hraw (by decide)
  have hmilliseconds : 0 < (Duration.ofMilliseconds
      ((p.rawDelay i).truncate maxMilliseconds)).nanoseconds :=
    Nat.mul_pos hwhole (by decide)
  rw [delay, if_neg hi.ne']
  dsimp only
  split_ifs
  · exact hp.longest.ne'
  · exact (lt_min hmilliseconds hp.longest).ne'

/-- A batch is offered up to the first acceptance, but no more often than the policy
permits. -/
theorem coe_tries (o : Nat → Option ExportFailure) :
    (p.tries o : ℕ∞) = min (firstAccepted o) p.attempts := by
  rcases p.tries_cases o with ⟨j, hj, hnone, hbefore, htries⟩ | ⟨hall, htries⟩ <;> rw [htries]
  · rw [firstAccepted_eq hnone hbefore, min_eq_left (by exact_mod_cast hj)]
    rfl
  · exact (min_eq_right (lt_firstAccepted hall).le).symm

/-- A batch is offered at least once. -/
theorem tries_pos (o : Nat → Option ExportFailure) : 0 < p.tries o :=
  lt_min (Nat.succ_pos _) p.attempts_pos

end Retry.Policy

/-! ### Calls -/

namespace Exporter

open Turn

variable (p : Retry.Policy) (rs : List RecordId) (e : Exporter) (s : Store)

/-- **One attempt is one turn**, and ends the call where the offer is
accepted. -/
theorem attemptFrom_succ (i left : Nat) :
    attemptFrom p rs i (left + 1) e s =
      let x := performAll (p.turn rs i) (e, s)
      if e.sink.outcome 0 = none then
        (none, { x.1 with recovered := x.1.recovered + if i = 0 then 0 else 1 }, x.2)
      else attemptFrom p rs (i + 1) left x.1 x.2 := by
  have hturn : performAll (p.turn rs i) (e, s) =
      (Turn.offer rs i).perform (e.await (p.delay i) s) := by
    rw [Retry.Policy.turn, performAll_append, await]
    split_ifs <;> rfl
  have hsink : (e.await (p.delay i) s).1.sink = e.sink := by
    unfold await
    split_ifs <;> rfl
  rw [hturn, attemptFrom, ← hsink]
  rcases e.await (p.delay i) s with ⟨e₁, s₁⟩
  have hanswer := e₁.sink.offer_fst rs s₁
  rcases hr : e₁.sink.offer rs s₁ with ⟨_ | f, sink, s₂⟩ <;> rw [hr] at hanswer <;>
    simp [perform, hr, ← hanswer]

/-- A turn uses up one outcome of the sink. -/
theorem outcome_turn (x : Exporter × Store) (i j : Nat) :
    (performAll (p.turn rs i) x).1.sink.outcome j = x.1.sink.outcome (j + 1) := by
  rw [Retry.Policy.turn, performAll_append, performAll_singleton, perform_offer]
  split_ifs <;> exact Sink.outcome_offer ..

/-- So many turns use up so many outcomes. -/
theorem outcome_turns (x : Exporter × Store) (n j : Nat) :
    (performAll (p.turns rs n) x).1.sink.outcome j = x.1.sink.outcome (n + j) := by
  induction n generalizing j with
  | zero =>
    rw [Nat.zero_add]
    rfl
  | succ n ih =>
    rw [Retry.Policy.turns_succ, performAll_append, outcome_turn, ih, Nat.succ_add_eq_add_succ]

/-- **While the offers are refused the attempts go on.**  The induction is on
their number; what one of them leaves is given to the next. -/
theorem attemptFrom_turns (n : Nat) :
    ∀ left, (∀ i < n, e.sink.outcome i ≠ none) →
      attemptFrom p rs 0 (n + left) e s =
        attemptFrom p rs n left (performAll (p.turns rs n) (e, s)).1
          (performAll (p.turns rs n) (e, s)).2 := by
  induction n with
  | zero =>
    intro left _
    rw [Nat.zero_add]
    rfl
  | succ n ih =>
    intro left h
    have hn : (performAll (p.turns rs n) (e, s)).1.sink.outcome 0 ≠ none := by
      rw [outcome_turns]
      exact h n (Nat.lt_succ_self n)
    rw [Nat.succ_add_eq_add_succ, ih (left + 1) fun i hi => h i (Nat.lt_succ_of_lt hi),
      attemptFrom_succ, Retry.Policy.turns_succ, performAll_append]
    exact if_neg hn

variable {p e} {o : Nat → Option ExportFailure}

/-- **A call is its turns.**  It succeeds if an offer is accepted before all
attempts are used up, and the success is counted if it was not the first offer. -/
theorem exportBatch_turns (hp : e.policy = some p) (ho : e.sink.Follows o p.attempts) :
    let x := performAll (p.turns rs (p.tries o)) (e, s)
    e.exportBatch rs s =
      (if firstAccepted o ≤ p.attempts then none else some (.exhausted p.attempts),
        { x.1 with recovered := e.recovered +
            if 2 ≤ firstAccepted o ∧ firstAccepted o ≤ p.attempts then 1 else 0 }, x.2) := by
  intro x
  have hx : x.1.recovered = e.recovered := by rw [performAll_exporter]
  rw [exportBatch, hp]
  dsimp only
  rcases p.tries_cases o with ⟨j, hj, hnone, hbefore, htries⟩ | ⟨hall, htries⟩
  · -- the attempt `j` is accepted: the attempts go on up to it, and no further
    have hk : firstAccepted o ≤ p.attempts := by
      rw [firstAccepted_eq hnone hbefore]
      exact_mod_cast hj
    have hlater : ¬ j = 0 ↔ 2 ≤ firstAccepted o ∧ firstAccepted o ≤ p.attempts := by
      rw [and_iff_left hk, two_le_firstAccepted, not_iff_not]
      constructor
      · rintro rfl
        exact hnone
      · exact fun h => Nat.eq_zero_of_not_pos fun hpos => hbefore 0 hpos h
    have hcount : (if j = 0 then 0 else 1) =
        if 2 ≤ firstAccepted o ∧ firstAccepted o ≤ p.attempts then 1 else 0 := by
      rw [← ite_not]
      exact if_congr hlater rfl rfl
    have haccepted : (performAll (p.turns rs j) (e, s)).1.sink.outcome 0 = none := by
      rw [outcome_turns, Nat.add_zero, ho j hj, hnone]
    obtain ⟨left, hleft⟩ := Nat.exists_eq_add_of_le hj
    have hrun := attemptFrom_turns p rs e s j (left + 1) fun i hi => by
      rw [ho i (hi.trans hj)]
      exact hbefore i hi
    rw [attemptFrom_succ, if_pos haccepted, ← performAll_append, ← Retry.Policy.turns_succ,
      ← htries, hcount] at hrun
    rw [if_pos hk, ← hx, ← hrun, hleft, Nat.succ_add_eq_add_succ]
  · -- all attempts go on, and none is left
    have hk := (lt_firstAccepted hall).not_ge
    have hturns : performAll (p.turns rs p.attempts) (e, s) = x := by rw [← htries]
    have hrun := attemptFrom_turns p rs e s p.attempts 0 fun i hi => by
      rw [ho i hi]
      exact hall i hi
    rw [hturns, Nat.add_zero] at hrun
    rw [if_neg hk, if_neg fun h => hk h.2, hrun, Nat.add_zero, ← hx]
    rfl

/-- A call of an exporter. -/
structure Call where
  exporter : Exporter
  batch : List RecordId
  store : Store

namespace Call

/-- Why the batch was not accepted. -/
def failure (c : Call) : Option ExportFailure := (c.exporter.exportBatch c.batch c.store).1

/-- The exporter after the call. -/
def next (c : Call) : Exporter := (c.exporter.exportBatch c.batch c.store).2.1

/-- The call succeeded after its first offer had failed. -/
def recovers (c : Call) : Bool := c.failure.isNone && (c.exporter.sink.outcome 0).isSome

/-- How often the batch was offered. -/
def tries (c : Call) (p : Retry.Policy) : Nat := p.tries c.exporter.sink.outcome

variable {c : Call}

/-- **What calls wait is at most what they try again,** and it is all of that if
none of the waits is none. -/
theorem sum_waits_le (p : Retry.Policy) (cs : List Call) :
    (cs.map fun c => p.waits (c.tries p)).sum ≤ (cs.map fun c => c.tries p - 1).sum ∧
      ((cs.map fun c => p.waits (c.tries p)).sum = (cs.map fun c => c.tries p - 1).sum ↔
        ∀ c ∈ cs, ∀ i, 0 < i → i < c.tries p → (p.delay i).nanoseconds ≠ 0) := by
  induction cs with
  | nil => exact ⟨le_rfl, iff_of_true rfl fun c hc => absurd hc List.not_mem_nil⟩
  | cons c cs ih =>
    obtain ⟨hle, heq⟩ := p.waits_le (c.tries p)
    obtain ⟨hsum, hsums⟩ := ih
    rw [List.forall_mem_cons, ← heq, ← hsums]
    simp only [List.map_cons, List.sum_cons]
    omega

/-- Each call offers its batch once at least. -/
theorem sum_tries (p : Retry.Policy) (cs : List Call) :
    (cs.map (tries · p)).sum = cs.length + (cs.map fun c => c.tries p - 1).sum := by
  induction cs with
  | nil => rfl
  | cons c cs ih =>
    have hpos : 0 < c.tries p := p.tries_pos _
    simp only [List.map_cons, List.sum_cons, List.length_cons, ih]
    omega

/-- **What a call leaves of an exporter.** -/
theorem next_eq (hp : c.exporter.policy = some p) :
    c.next = { c.exporter with
      sink := (performAll (p.turns c.batch (c.tries p)) (c.exporter, c.store)).1.sink
      retries := c.exporter.retries + p.waits (c.tries p)
      recovered := c.exporter.recovered + if c.recovers then 1 else 0 } := by
  have hrun := exportBatch_turns c.batch c.store hp fun _ _ => rfl
  have hfailure : c.failure = _ := congrArg Prod.fst hrun
  have hcount : c.recovers = true ↔ 2 ≤ firstAccepted c.exporter.sink.outcome ∧
      firstAccepted c.exporter.sink.outcome ≤ p.attempts := by
    rw [two_le_firstAccepted, recovers, hfailure, Bool.and_eq_true, and_comm]
    split_ifs with hk <;> simp [hk, Option.ne_none_iff_isSome]
  rw [next, hrun, performAll_exporter, Retry.Policy.length_pauses]
  simp only [hcount, tries]

end Call

/-- Calls in turn, each with a batch and in a store of its own. -/
def calls (e : Exporter) : List (List RecordId × Store) → List Call
  | [] => []
  | (rs, s) :: cs => ⟨e, rs, s⟩ :: calls (Call.next ⟨e, rs, s⟩) cs

/-- The exporter after these calls. -/
def afterCalls (e : Exporter) : List (List RecordId × Store) → Exporter
  | [] => e
  | (rs, s) :: cs => afterCalls (Call.next ⟨e, rs, s⟩) cs

/-- Each batch is the matter of one call. -/
theorem length_calls (e : Exporter) (cs : List (List RecordId × Store)) :
    (e.calls cs).length = cs.length := by
  induction cs generalizing e with
  | nil => rfl
  | cons x cs ih => exact congrArg (· + 1) (ih _)

/-- What the calls add up to. -/
theorem afterCalls_counts (hp : e.policy = some p) (cs : List (List RecordId × Store)) :
    (e.afterCalls cs).retries =
        e.retries + ((e.calls cs).map fun c => p.waits (c.tries p)).sum ∧
      (e.afterCalls cs).recovered = e.recovered + (e.calls cs).countP Call.recovers := by
  induction cs generalizing e with
  | nil => exact ⟨rfl, rfl⟩
  | cons x cs ih =>
    set c : Call := ⟨e, x.1, x.2⟩ with hc
    have hnext := Call.next_eq (c := c) hp
    have hretried : c.next.retries = e.retries + p.waits (c.tries p) := congrArg retries hnext
    have hrecovers : c.next.recovered = e.recovered + if c.recovers then 1 else 0 :=
      congrArg recovered hnext
    obtain ⟨hretries, hrecovered⟩ := ih (e := c.next) (by rw [hnext]; exact hp)
    rw [afterCalls, calls, ← hc, List.map_cons, List.sum_cons, List.countP_cons, hretries,
      hrecovered, hretried, hrecovers]
    constructor <;> omega

/-- A script counts the offers of all calls. -/
theorem afterCalls_script (hp : e.policy = some p) (cs : List (List RecordId × Store))
    {outcomes : List (Option ExportFailure)} {attempts : Nat} {names : List String}
    (hsink : e.sink = .script outcomes attempts names) :
    ∃ outcomes' names', (e.afterCalls cs).sink =
      .script outcomes' (attempts + ((e.calls cs).map (Call.tries · p)).sum) names' := by
  induction cs generalizing e outcomes attempts names with
  | nil => exact ⟨outcomes, names, hsink⟩
  | cons x cs ih =>
    set c : Call := ⟨e, x.1, x.2⟩ with hc
    have hnext := Call.next_eq (c := c) hp
    obtain ⟨outcomes', names', hoffers⟩ :=
      performAll_script (p.turns c.batch (c.tries p)) (c.exporter, c.store) hsink
    rw [Retry.Policy.batches_turns, List.length_replicate] at hoffers
    obtain ⟨outcomes'', names'', hrest⟩ :=
      ih (e := c.next) (by rw [hnext]; exact hp) (by rw [hnext]; exact hoffers)
    refine ⟨outcomes'', names'', ?_⟩
    rw [afterCalls, calls, ← hc, List.map_cons, List.sum_cons, hrest, Nat.add_assoc]

/-- **What a call does**, with any policy and for every way to answer.  Let the
`k`-th offer be the first one that is accepted, and let there be `A` attempts at
most.  The batch is offered `min k A` times, and all that happens is these offers
and the waits between them: none before the first offer, and before a later one
the wait of the policy, unless it is none.  The call succeeds if `k ≤ A`, and else
says that the attempts are used up.  No wait is longer than the longest one.

Over any calls the exports are counted that succeeded after an offer had
failed. -/
theorem exportBatch_protocol {o : Nat → Option ExportFailure} (hp : e.policy = some p)
    (ho : e.sink.Follows o p.attempts) (rs : List RecordId) (s : Store) :
    let A : Nat := min (p.maxRetries + 1) 4294967295
    let k := firstAccepted o
    (∃ (n : Nat) (x : Exporter × Store), (n : ℕ∞) = min k A ∧
      x = performAll (p.turns rs n) (e, s) ∧
      (p.turns rs n).filterMap Turn.batch? = List.replicate n rs ∧
      (p.turns rs n).filterMap Turn.pause? =
        (((List.range n).map p.delay).filter fun d => d.nanoseconds ≠ 0) ∧
      (∀ outcomes attempts names, e.sink = .script outcomes attempts names →
        ∃ outcomes' names', x.1.sink = .script outcomes' (attempts + n) names') ∧
      e.exportBatch rs s = (if k ≤ A then none else some (.exhausted A),
        { x.1 with recovered := e.recovered + if 2 ≤ k ∧ k ≤ A then 1 else 0 }, x.2) ∧
      (((p.turns rs n).filterMap Turn.pause?).map Duration.nanoseconds).sum ≤
        (A - 1) * p.maxDelay.nanoseconds) ∧
    p.delay 0 = ⟨0⟩ ∧ (∀ i, (p.delay i).nanoseconds ≤ p.maxDelay.nanoseconds) ∧
    ∀ cs, (e.afterCalls cs).recovered = e.recovered + (e.calls cs).countP Call.recovers := by
  intro A k
  -- the number of offers is the least of both bounds, and the turns up to it are what is
  -- done
  refine ⟨⟨p.tries o, _, p.coe_tries o, rfl, p.batches_turns rs _, p.pauses_turns rs _, ?_, ?_, ?_⟩,
    p.delay_zero, p.delay_le, fun cs => (afterCalls_counts hp cs).2⟩
  · intro outcomes attempts names hsink
    have hoffers := performAll_script (p.turns rs (p.tries o)) (e, s) hsink
    rwa [Retry.Policy.batches_turns, List.length_replicate] at hoffers
  · exact exportBatch_turns rs s hp ho
  · -- the first attempt does not wait, so there is a wait less than attempts
    refine (p.sum_pauses_le rs (p.tries o)).trans ?_
    have hle : p.tries o ≤ A := Nat.min_le_right ..
    exact Nat.mul_le_mul_right _ (Nat.sub_le_sub_right hle 1)

/-- Two offers are refused, each for a reason of its own. -/
def twiceRefused (i : Nat) : Option ExportFailure :=
  [some .timeout, some (.transport "reset")].getD i none

/-- The third offer is accepted, after two waits of which the second is twice the
first, and there are no more. -/
theorem exportBatch_protocol_twiceRefused :
    let p := Retry.Policy.standard
    let e : Exporter :=
      { sink := .script ((List.range p.attempts).map twiceRefused) 0 [], policy := some p }
    e.policy = some p ∧ e.sink.Follows twiceRefused p.attempts ∧
      firstAccepted twiceRefused = 3 ∧ p.attempts = 4 ∧
      (e.exportBatch [7, 7] default).1 = none ∧
      (e.exportBatch [7, 7] default).2.1.recovered = 1 ∧
      (p.turns [7, 7] 3).filterMap Turn.pause? = [.ofMilliseconds 100, .ofMilliseconds 200] ∧
      (e.exportBatch [7, 7] default).2.2.now = 300 ∧
      ∃ outcomes names, (e.exportBatch [7, 7] default).2.1.sink = .script outcomes 3 names := by
  intro p e
  have hfollows := Sink.follows_script twiceRefused p.attempts 0 []
  -- the third offer is the first one that is accepted
  have hk : firstAccepted twiceRefused = (3 : Nat) := firstAccepted_eq (n := 2) rfl (by decide)
  have hdelays : ((List.range 3).map p.delay).filter (fun d => d.nanoseconds ≠ 0) =
      [.ofMilliseconds 100, .ofMilliseconds 200] := by decide +kernel
  obtain ⟨⟨n, x, hn, hx, -, hpauses, hscript, hrun, -⟩, -⟩ :=
    exportBatch_protocol (p := p) (e := e) rfl hfollows [7, 7] default
  obtain ⟨outcomes, names, hsink⟩ := hscript _ _ _ rfl
  rw [hk] at hn hrun
  have hsome : ((3 : Nat) : ℕ∞) ≤ (min (p.maxRetries + 1) 4294967295 : Nat) ∧
      2 ≤ ((3 : Nat) : ℕ∞) := by
    constructor
    · exact Nat.cast_le.2 (by decide)
    · exact Nat.cast_le.2 (by decide)
  obtain rfl : n = 3 := by
    rw [min_eq_left hsome.1] at hn
    exact_mod_cast hn
  rw [if_pos hsome.1, if_pos ⟨hsome.2, hsome.1⟩] at hrun
  -- the clock has to be computed from the turns
  have hnow : x.2.now = 300 := by
    rw [hx]
    decide +kernel
  rw [hrun]
  exact ⟨rfl, hfollows, hk, rfl, rfl, rfl, hpauses.trans hdelays, hnow, outcomes, names,
    hsink⟩

/-- **Waits are counted, and not the attempts after the first one.**  After any
calls of a new exporter, however its offers are answered, its count stands at the
waits of the policy before these attempts.  It is at most their number; the two
agree exactly if none of the waits is none, as with every policy that grows from
at least a millisecond. -/
theorem retries_counted (k : Sink) (p : Retry.Policy) (cs : List (List RecordId × Store)) :
    let e : Exporter := { sink := k, policy := some p }
    let again := ((e.calls cs).map fun c => c.tries p - 1).sum
    (∀ c ∈ e.calls cs,
      (c.tries p : ℕ∞) = min (firstAccepted c.exporter.sink.outcome) p.attempts) ∧
    (∀ outcomes attempts names, k = .script outcomes attempts names →
      ∃ outcomes' names', (e.afterCalls cs).sink =
        .script outcomes' (attempts + (cs.length + again)) names') ∧
    (e.afterCalls cs).retries = ((e.calls cs).map fun c => p.waits (c.tries p)).sum ∧
    (e.afterCalls cs).retries ≤ again ∧
    ((e.afterCalls cs).retries = again ↔ ∀ c ∈ e.calls cs, ∀ i, 0 < i → i < c.tries p →
      (p.delay i).nanoseconds ≠ 0) ∧
    (p.Growing → (e.afterCalls cs).retries = again) := by
  intro e again
  have hp : e.policy = some p := rfl
  have hwaits : (e.afterCalls cs).retries =
      ((e.calls cs).map fun c => p.waits (c.tries p)).sum := by
    rw [(afterCalls_counts hp cs).1, Nat.zero_add]
  -- each call waits at most once per further attempt, and as often if no delay is zero
  obtain ⟨hle, heq⟩ := Call.sum_waits_le p (e.calls cs)
  rw [← hwaits] at hle heq
  refine ⟨fun c _ => p.coe_tries _, ?_, hwaits, hle, heq, fun hgrowing => ?_⟩
  · intro outcomes attempts names hk
    obtain ⟨outcomes', names', hsink⟩ := afterCalls_script hp cs hk
    rw [Call.sum_tries, length_calls] at hsink
    exact ⟨outcomes', names', hsink⟩
  · exact heq.2 fun c _ i hi _ => hgrowing.delay_ne_zero hi

/-- A policy that tries once more, and at once. -/
def immediate : Retry.Policy := ⟨1, ⟨0⟩, .ofSeconds 1, .ofNat 2⟩

/-- **An attempt without a wait is not counted.**  The sink is offered the batch
twice. -/
theorem retries_immediate :
    let e : Exporter := { sink := .script [some .timeout] 0 [], policy := some immediate }
    (e.exportBatch [] default).1 = none ∧
      (e.exportBatch [] default).2.1.sink = .script [] 2 [] ∧
      (e.exportBatch [] default).2.1.retries = 0 := by
  intro e
  have hattempts : immediate.attempts = 2 := rfl
  have hfirst : immediate.delay 0 = ⟨0⟩ := rfl
  have hsecond : immediate.delay 1 = ⟨0⟩ := by decide +kernel
  simp [e, exportBatch, hattempts, attemptFrom, await, hfirst, hsecond, Sink.offer,
    Store.displayNames]

end Exporter
end Telemetry
