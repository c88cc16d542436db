/-
# Who has the records

Records are in the hands of collections, stand under names of their own, or
wait in batches and batchers; each is in one place (`Tracer.inHand`).  The
ledger of a tracer are the references that its user holds directly on
attributes: `Tracer.ledgerAfter` says what a command makes of it, and is `none`
where the command breaks the rules.  A reference is taken only on an attribute
that is bound, it is given up only while it is outstanding, and the maps of a
record are written through collections only.

`Tracer.Outcome` is what an answer to a command has to keep.
-/

import Telemetry.Tracer.Command
import Telemetry.Proofs.Closing
import Telemetry.Proofs.Delivery

namespace Telemetry

open Trace Store

namespace Tracer

/-- The records that somebody has, with all the places they are in. -/
def inHand (t : Tracer) : Multiset RecordId :=
  t.collections.total (fun c => {c.record}) + t.records.total ({·}) +
    t.batches.total Multiset.ofList +
    t.batchers.total (Multiset.ofList ·.waiting)

/-- The tracer with an empty log. -/
def cleared (t : Tracer) : Tracer := { t with store := { t.store with log := #[] } }

/-- What a command makes of the ledger. -/
def entry (t : Tracer) (L : Ledger) : Command → Option Ledger
  | .force n => (t.cells.get? n).elim (some L) fun c => Ledger.forced c L t.store
  | .freezeAttribute h => (t.slot? h).elim (some L) fun i => Ledger.frozen i L t.store
  | .addReference h => (t.slot? h).elim (some L) fun i => Ledger.added i L t.store
  | .removeReference h => (t.slot? h).elim (some L) fun i => Ledger.removed i L t.store
  | .freeze cn | .intoRecord cn _ =>
    (t.collections.get? cn).elim (some L) fun c => Ledger.closed c.record L t.store
  | .insert .. => none
  | _ => some L

/-- The ledger after a command; `none` if the command breaks the rules. -/
def ledgerAfter (t : Tracer) (L : Ledger) (c : Command) : Option Ledger := t.cleared.entry L c

/-- The record that a command writes. -/
def target? (t : Tracer) : Command → Option RecordId
  | .put cn .. | .putDeferred cn .. | .putAttribute cn _ | .removeMany cn _ | .prioritize cn _ =>
    (t.collections.get? cn).map Collection.record
  | .prioritizeRecord n _ => t.records.get? n
  | _ => none

/-- The attributes that a command writes or shares, apart from those that it
makes and those that computing deferred values writes. -/
def Touches (t : Tracer) (i : SlotId) : Command → Prop
  | .setValue h _ | .setDeferred h _ | .freezeAttribute h | .addReference h | .putAttribute _ h =>
    t.slot? h = some i
  | .freeze cn | .intoRecord cn _ =>
    ∃ c, t.collections.get? cn = some c ∧ i ∈ (t.store.record c.record).held
  | _ => False

/-- A reply does not report a fault, except that a value needs itself. -/
def Reply.sound : Reply → Bool
  | .fault f => f = .circular
  | _ => true

/-- The one fault that a sound reply reports is that a value needs itself. -/
theorem Reply.circular_of_sound {f : Fault} (h : (Reply.fault f).sound) : f = .circular :=
  of_decide_eq_true h

/-- What a command keeps: the books, and every record that is in hand before
and after and is not written; and it can be broken off only by a value that
needs itself. -/
structure Outcome (W : SlotId → Prop) (t : Tracer) (written : Option RecordId) (L : Ledger)
    (out : Reply × Tracer) : Prop where
  books : Books out.2.store L out.2.inHand
  spares : Spares (fun r => r ∈ t.inHand ∧ r ∈ out.2.inHand ∧ written ≠ some r) W t.store
    out.2.store
  sound : out.1.sound

/-- The answer to a command. -/
def answer (t : Tracer) (c : Command) : Reply × Tracer :=
  ((t.performAttribute? c <|> t.performRecord? c) <|> t.performDelivery? c).getD (.unknown, t)

/-- A step answers the command with an empty log. -/
theorem step_eq_answer (t : Tracer) (c : Command) : t.step c = t.cleared.answer c := rfl

variable {t : Tracer} {L L' : Ledger} {H : Multiset RecordId} {P : RecordId → Prop}
  {W : SlotId → Prop} {written : Option RecordId} {out : Reply × Tracer} {s' : Store} {α : Type}

/-! ### Running a command -/

/-- A name stands for something. -/
theorem performs {α β : Type} {x : Option α} {a : α} {f : α → Option β} {y : Option β}
    (hx : x = some a) (hf : f a = y) : x >>= f = y := by
  rw [hx]
  exact hf

/-- A name stands for nothing. -/
theorem fails {α β : Type} {x : Option α} {f : α → Option β} (hx : x = none) : x >>= f = none := by
  rw [hx]
  rfl

/-- A command on attributes is answered as such. -/
theorem answer_attribute {c : Command} (ha : t.performAttribute? c = some out) :
    t.answer c = out := by
  rw [answer, ha]
  rfl

/-- A command on records is answered as such. -/
theorem answer_record {c : Command} (ha : t.performAttribute? c = none)
    (hr : t.performRecord? c = some out) : t.answer c = out := by
  rw [answer, ha, hr]
  rfl

/-- A command on exporters and batchers is answered as such. -/
theorem answer_delivery {c : Command} (ha : t.performAttribute? c = none)
    (hr : t.performRecord? c = none) (hd : t.performDelivery? c = some out) :
    t.answer c = out := by
  rw [answer, ha, hr, hd]
  rfl

/-- Any other command is unknown and changes nothing. -/
theorem answer_unknown {c : Command} (ha : t.performAttribute? c = none)
    (hr : t.performRecord? c = none) (hd : t.performDelivery? c = none) :
    t.answer c = (.unknown, t) := by
  rw [answer, ha, hr, hd]
  rfl

/-- Where the action succeeds, what comes after goes on with its result. -/
theorem after_ok {a : Action α} {x : α} (h : a t.store = .ok x s')
    (k : α → Tracer → Reply × Tracer) : t.after a k = k x { t with store := s' } := by
  simp only [after, act, h]

/-- Where the action breaks off, its fault is the reply. -/
theorem after_error {a : Action α} {e : Fault} (h : a t.store = .error e s')
    (k : α → Tracer → Reply × Tracer) : t.after a k = (.fault e, { t with store := s' }) := by
  simp only [after, act, h]

/-! ### Keeping the books -/

namespace Outcome

/-- A move of the books whose records in hand are those of the answer. -/
theorem of_moves (hm : Moves P W t.store L H out.2.store) (hin : out.2.inHand ≤ H)
    (hP : ∀ r ∈ t.inHand, r ∈ out.2.inHand → written ≠ some r → P r)
    (hf : out.1.sound) : Outcome W t written L out :=
  ⟨hm.books.mono hin, (hm.only fun r hr => hP r hr.1 hr.2.1 hr.2.2).spares, hf⟩

/-- A move that leaves every record alone. -/
theorem of_all (hm : Moves (fun _ => True) W t.store L t.inHand out.2.store)
    (hin : out.2.inHand = t.inHand) (hf : out.1.sound) :
    Outcome W t written L out :=
  of_moves hm hin.le (fun _ _ _ _ => trivial) hf

/-- Nothing happens to the store. -/
theorem of_store (h : Books t.store L t.inHand) (hs : out.2.store = t.store)
    (hin : out.2.inHand = t.inHand) (hf : out.1.sound) :
    Outcome W t written L out :=
  of_all (hs.symm ▸ Moves.refl h) hin hf

/-- An operation that only computes, and a reply that changes nothing. -/
theorem of_runs (h : Books t.store L t.inHand) {a : Action α}
    (ha : Runs t.store.holdings W t.store L' a) {k : α → Tracer → Reply × Tracer}
    (hk : ∀ x t, (k x t).2 = t) (hf : ∀ x t, (k x t).1.sound) :
    Outcome W t written L' (t.after a k) := by
  have hcomputes := ha.computes
  cases hr : a t.store with
  | ok x s' =>
    rw [Action.leaves_ok hr] at hcomputes
    rw [after_ok hr]
    exact of_all (by rw [hk]; exact h.moves_of_computes hcomputes) (by rw [hk]; rfl) (hf x _)
  | error e s' =>
    rw [Action.leaves_error hr] at hcomputes
    rw [after_error hr]
    obtain rfl := ha.circular e s' hr
    exact of_all (h.moves_of_computes hcomputes) rfl rfl

end Outcome

/-! ### Records that change hands -/

/-- A map of the tracer changes. -/
theorem inHand_exchange {x I T T' o n : Multiset RecordId} (h : x + T = I + T')
    (h' : T' + o = T + n) : x + o = I + n := by
  refine add_right_cancel (b := T) ?_
  calc x + o + T = x + T + o := by abel
    _ = I + (T' + o) := by rw [h, add_assoc]
    _ = I + n + T := by rw [h']; abel

section Maps

variable (t : Tracer)

/-- New collections bring their records into the hand in place of those of the old ones. -/
theorem inHand_collections (m : Keyed Collection) :
    ({ t with collections := m } : Tracer).inHand + t.collections.total (fun c => {c.record}) =
      t.inHand + m.total fun c => {c.record} := by
  simp only [inHand]
  abel

/-- New names of records bring these into the hand in place of the old ones. -/
theorem inHand_records (m : Keyed RecordId) :
    ({ t with records := m } : Tracer).inHand + t.records.total ({·}) =
      t.inHand + m.total ({·}) := by
  simp only [inHand]
  abel

/-- New batches bring their records into the hand in place of those of the old ones. -/
theorem inHand_batches (m : Keyed (List RecordId)) :
    ({ t with batches := m } : Tracer).inHand +
        t.batches.total Multiset.ofList =
      t.inHand + m.total Multiset.ofList := by
  simp only [inHand]
  abel

/-- New batchers bring the records that wait in them into the hand in place of those of the
old ones. -/
theorem inHand_batchers (m : Keyed Batcher) :
    ({ t with batchers := m } : Tracer).inHand +
        t.batchers.total (Multiset.ofList ·.waiting) =
      t.inHand + m.total (Multiset.ofList ·.waiting) := by
  simp only [inHand]
  abel

/-- Naming a collection replaces the record of the one that had the name. -/
theorem inHand_insertCollection (n : String) (c : Collection) :
    ({ t with collections := t.collections.insert n c } : Tracer).inHand +
        (t.collections.get? n).elim 0 (fun c => {c.record}) = t.inHand + {c.record} :=
  inHand_exchange (inHand_collections t _) (Keyed.total_insert _ _ n c)

/-- Naming a record replaces the one that had the name. -/
theorem inHand_insertRecord (n : String) (r : RecordId) :
    ({ t with records := t.records.insert n r } : Tracer).inHand +
        (t.records.get? n).elim 0 ({·}) = t.inHand + {r} :=
  inHand_exchange (inHand_records t _) (Keyed.total_insert _ _ n r)

/-- Naming a batch replaces the records of the one that had the name. -/
theorem inHand_insertBatch (n : String) (rs : List RecordId) :
    ({ t with batches := t.batches.insert n rs } : Tracer).inHand +
        (t.batches.get? n).elim 0 Multiset.ofList = t.inHand + rs :=
  inHand_exchange (inHand_batches t _) (Keyed.total_insert _ _ n rs)

/-- Naming a batcher replaces the records that waited in the one that had the name. -/
theorem inHand_insertBatcher (n : String) (b : Batcher) :
    ({ t with batchers := t.batchers.insert n b } : Tracer).inHand +
        (t.batchers.get? n).elim 0 (Multiset.ofList ·.waiting) = t.inHand + b.waiting :=
  inHand_exchange (inHand_batchers t _) (Keyed.total_insert _ _ n b)

variable {t}

/-- When a collection loses its name, its record leaves the hand. -/
theorem inHand_eraseCollection {n : String} {c : Collection} (hc : t.collections.get? n = some c) :
    t.inHand = c.record ::ₘ ({ t with collections := t.collections.erase n } : Tracer).inHand := by
  have h := inHand_exchange (n := 0) (inHand_collections t (t.collections.erase n))
    (by rw [Keyed.total_erase, add_zero])
  rw [hc, Option.elim_some, add_zero, add_comm, Multiset.singleton_add] at h
  exact h.symm

/-- When a record loses its name, it leaves the hand. -/
theorem inHand_eraseRecord {n : String} {r : RecordId} (hr : t.records.get? n = some r) :
    t.inHand = r ::ₘ ({ t with records := t.records.erase n } : Tracer).inHand := by
  have h := inHand_exchange (n := 0) (inHand_records t (t.records.erase n))
    (by rw [Keyed.total_erase, add_zero])
  rw [hr, Option.elim_some, add_zero, add_comm, Multiset.singleton_add] at h
  exact h.symm

/-- When a batch loses its name, its records leave the hand. -/
theorem inHand_eraseBatch {n : String} {rs : List RecordId} (hb : t.batches.get? n = some rs) :
    t.inHand = ↑rs + ({ t with batches := t.batches.erase n } : Tracer).inHand := by
  have h := inHand_exchange (n := 0) (inHand_batches t (t.batches.erase n))
    (by rw [Keyed.total_erase, add_zero])
  rw [hb, Option.elim_some, add_zero, add_comm] at h
  exact h.symm

/-- The record of a collection is in hand. -/
theorem mem_inHand_of_collection {n : String} {c : Collection}
    (hc : t.collections.get? n = some c) : c.record ∈ t.inHand := by
  rw [inHand_eraseCollection hc]
  exact Multiset.mem_cons_self _ _

/-- A record with a name is in hand. -/
theorem mem_inHand_of_record {n : String} {r : RecordId} (hr : t.records.get? n = some r) :
    r ∈ t.inHand := by
  rw [inHand_eraseRecord hr]
  exact Multiset.mem_cons_self _ _

/-- Names that are each used once give their records over. -/
theorem takeRecords_spec (names : List String) :
    ∀ (t : Tracer) rs t', t.takeRecords names = some (rs, t') →
      t'.store = t.store ∧ t'.batches = t.batches ∧ t'.collections = t.collections ∧
        t'.batchers = t.batchers ∧ t.inHand = ↑rs + t'.inHand := by
  induction names with
  | nil =>
    intro t rs t' h
    rw [takeRecords, Option.some.injEq, Prod.mk.injEq] at h
    obtain ⟨rfl, rfl⟩ := h
    exact ⟨rfl, rfl, rfl, rfl, (zero_add _).symm⟩
  | cons n names ih =>
    intro t rs t' h
    cases hr : t.records.get? n with
    | none => simp [takeRecords, hr] at h
    | some r =>
      simp only [takeRecords, hr, Option.bind_eq_bind, Option.bind_some] at h
      obtain ⟨⟨rs', t₁⟩, hrest, h⟩ := Option.bind_eq_some_iff.1 h
      rw [Option.some.injEq, Prod.mk.injEq] at h
      obtain ⟨rfl, rfl⟩ := h
      obtain ⟨hs, hb, hc, hq, hin⟩ := ih _ _ _ hrest
      refine ⟨hs, hb, hc, hq, ?_⟩
      rw [inHand_eraseRecord hr, hin, ← Multiset.cons_coe, Multiset.cons_add]

end Maps

end Tracer
end Telemetry
