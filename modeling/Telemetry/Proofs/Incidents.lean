/-
# What happens in an operation

Whatever an operation does to attributes and deferred values comes about by
incidents: an attribute is made, written, frozen, referred to, not referred to any
more, or emptied; a deferred value is made, its computation is begun, and comes to
its end or is broken off.  `Store.Occurs` says when each of them can come and what
exactly it makes of a store; all that is neither is `aside`.

`Store.Follows A` says that one store comes of another by incidents that `A`
permits, `Action.Leads A` that an operation does nothing else, whether it ends or
is broken off.  The stores in between are states that the store really is in, in
the midst of an operation.
-/

import Mathlib.Logic.Relation
import Telemetry.Proofs.Forcing

namespace Telemetry

open Trace

namespace Trace

/-- With the next reference that is given up the slot is emptied. -/
def Slot.Expiring (a : Slot) : Prop :=
  a.references = 1 ∧ a.definition ≠ none ∧ a.isCached = false

/-- A freeze has to ask for the deferred value. -/
structure Slot.Wants (c : CellId) (a : Slot) : Prop where
  mutable : a.immutable = false
  unvalued : a.value = none
  deferred : a.deferred = some c

end Trace

namespace Store

/-- What can happen to attributes and deferred values. -/
inductive Incident where
  /-- An attribute is made, in a slot from the pool of a set. -/
  | made (p : SetId) (d : Definition)
  | valued (i : SlotId) (v : Value)
  | promised (i : SlotId) (c : CellId)
  /-- An attribute is frozen, with the result of a deferred value where that was
  asked for. -/
  | frozen (i : SlotId) (c : Option CellId)
  | referred (i : SlotId)
  /-- A reference is given up, and the attribute stays. -/
  | unreferred (i : SlotId)
  /-- The last reference is given up, and the slot is emptied. -/
  | emptied (i : SlotId)
  | deferred (v : Option Value) (effects : List Effect)
  /-- The computation of a deferred value is begun, for a slot that is frozen or
  because it was asked for. -/
  | begun (c : CellId) (why : Option SlotId)
  | finished (c : CellId)
  | abandoned (c : CellId)
  /-- Anything that is not about attributes or deferred values. -/
  | aside

/-- Slots and deferred values are as they were, the pools store no more slots,
and the clock goes on at most. -/
structure Aside (s s' : Store) : Prop where
  slots : s'.slots = s.slots
  cells : s'.cells = s.cells
  stored : ∀ p, (s'.set p).slots.stored.Sublist (s.set p).slots.stored
  now : s.now ≤ s'.now

/-- An incident comes, and takes the store to another one. -/
inductive Occurs (s : Store) : Incident → Store → Prop
  | made (p : SetId) (d : Definition) : Occurs s (.made p d) ((createAttribute p d).leaves s)
  | valued (i : SlotId) (v : Value) : Occurs s (.valued i v) (s.modifySlot i (Slot.setValue v))
  | promised (i : SlotId) (c : CellId) :
    Occurs s (.promised i c) (s.modifySlot i (Slot.setDeferred c))
  | frozen {i : SlotId} {c : Option CellId}
    (h : ∀ x ∈ c, x < s.cells.size → (s.cell x).isFinished = true) :
    Occurs s (.frozen i c) (s.modifySlot i (Slot.freeze (c.bind fun x => (s.cell x).result?)))
  | referred (i : SlotId) : Occurs s (.referred i)
    (s.modifySlot i fun a => { a with references := a.references + 1 })
  | unreferred {i : SlotId} (h : ¬ (s.slot i).Expiring) :
    Occurs s (.unreferred i) (s.modifySlot i Slot.unreferred)
  | emptied {i : SlotId} (h : (s.slot i).Expiring) :
    Occurs s (.emptied i) ((removeReference i).leaves s)
  | deferred (v : Option Value) (effects : List Effect) : Occurs s (.deferred v effects)
    { s with cells := s.cells.push { yields := v, effects := effects } }
  | begun {c : CellId} {why : Option SlotId} (hc : (s.cell c).progress = .pending)
    (hwhy : ∀ i ∈ why, (s.slot i).Wants c) : Occurs s (.begun c why) (s.modifyCell c Cell.begin)
  | finished {c : CellId} (h : (s.cell c).progress = .running) : Occurs s (.finished c)
    (s.modifyCell c fun cell => { cell with progress := .finished (s.cell c).yields })
  | abandoned {c : CellId} (h : (s.cell c).progress = .running) : Occurs s (.abandoned c)
    (s.modifyCell c fun cell => { cell with progress := .pending })
  | aside {s' : Store} (h : Aside s s') : Occurs s .aside s'

/-- One store comes of another by incidents that `A` permits. -/
def Follows (A : Incident → Prop) : Store → Store → Prop :=
  Relation.ReflTransGen fun s s' => ∃ e, A e ∧ s.Occurs e s'

variable {A B : Incident → Prop} {Q : Store → Prop} {e : Incident} {s s' s'' : Store}

namespace Aside

/-- Nothing happened, so all is as it was. -/
theorem refl (s : Store) : Aside s s := ⟨rfl, rfl, fun _ => List.Sublist.refl _, le_rfl⟩

/-- What happens aside in turn happens aside altogether. -/
theorem trans (h : Aside s s') (h' : Aside s' s'') : Aside s s'' :=
  ⟨h'.slots.trans h.slots, h'.cells.trans h.cells, fun p => (h'.stored p).trans (h.stored p),
    h.now.trans h'.now⟩

/-- Records, handles and the log are no matter. -/
theorem of_sets (hslots : s'.slots = s.slots) (hcells : s'.cells = s.cells)
    (hsets : s'.sets = s.sets) (hnow : s.now ≤ s'.now) : Aside s s' :=
  ⟨hslots, hcells, fun p => by rw [set, hsets, ← set], hnow⟩

/-- Reporting events happens aside. -/
theorem report (s : Store) (es : List Event) : Aside s (s.report es) :=
  of_sets rfl rfl rfl le_rfl

/-- Time goes by. -/
theorem later (s : Store) (n : Nat) : Aside s { s with now := s.now + n } :=
  of_sets rfl rfl rfl (Nat.le_add_right s.now n)

/-- A pool that stores no more slots than before changes aside. -/
theorem modifySet (s : Store) (p : SetId) {f : PoolSet → PoolSet}
    (hf : (f (s.set p)).slots.stored.Sublist (s.set p).slots.stored) :
    Aside s (s.modifySet p f) := by
  refine ⟨rfl, rfl, fun q => ?_, le_rfl⟩
  rcases stored_modifySet s p q f with hq | ⟨rfl, hq⟩
  · rw [hq]
  · rw [hq]
    exact hf

/-- A new pool set stores nothing. -/
theorem push_set (s : Store) {q : PoolSet} (hq : q.slots.stored = []) :
    Aside s { s with sets := s.sets.push q } := by
  refine ⟨rfl, rfl, fun p => ?_, le_rfl⟩
  rw [set_push]
  split_ifs
  · rw [hq]
    exact List.nil_sublist _
  · exact List.Sublist.refl _

end Aside

/-- A deferred value may be asked for at any time. -/
theorem Occurs.asked {c : CellId} (hc : (s.cell c).progress = .pending) :
    s.Occurs (.begun c none) (s.modifyCell c Cell.begin) :=
  .begun hc fun i hi => absurd hi (Option.not_mem_none i)

/-- The clock goes on in every incident. -/
theorem Occurs.now_le (h : s.Occurs e s') : s.now ≤ s'.now := by
  cases h with
  | made p d => exact (congrArg (·.2.2) (createAttribute_rest p d s rfl)).ge
  | emptied => exact (congrArg (·.2.2) (removeReference_rest _ s rfl)).ge
  | aside h => exact h.now
  | valued | promised | frozen | referred | unreferred | deferred | begun | finished | abandoned =>
    exact le_rfl

namespace Follows

/-- No incident is needed to stay. -/
theorem refl (s : Store) : Follows A s s := Relation.ReflTransGen.refl

/-- One incident that is permitted. -/
theorem of_occurs (hA : A e) (h : s.Occurs e s') : Follows A s s' :=
  Relation.ReflTransGen.single ⟨e, hA, h⟩

/-- Incidents that follow each other. -/
theorem trans (h : Follows A s s') (h' : Follows A s' s'') : Follows A s s'' :=
  Relation.ReflTransGen.trans h h'

/-- What is permitted here may be permitted elsewhere. -/
theorem mono (hAB : ∀ e, A e → B e) (h : Follows A s s') : Follows B s s' :=
  Relation.ReflTransGen.mono (fun _ _ ⟨e, hA, he⟩ => ⟨e, hAB e hA, he⟩) s s' h

/-- What every incident keeps is kept. -/
theorem keeps (hQ : ∀ {s s' e}, A e → s.Occurs e s' → Q s → Q s') (h : Follows A s s') (hs : Q s) :
    Q s' := by
  induction h with
  | refl => exact hs
  | tail _ hstep ih =>
    obtain ⟨e, hA, he⟩ := hstep
    exact hQ hA he ih

/-- The clock does not go back. -/
theorem now_le (h : Follows A s s') : s.now ≤ s'.now :=
  keeps (Q := fun m => s.now ≤ m.now) (fun _ ho hm => hm.trans ho.now_le) h le_rfl

/-- Either no incident of some kind comes at all, or there is a first one. -/
theorem first (B : Incident → Prop) (h : Follows A s s') :
    Follows (fun e => A e ∧ ¬ B e) s s' ∨
      ∃ e s₁ s₂, Follows (fun e => A e ∧ ¬ B e) s s₁ ∧ A e ∧ B e ∧ s₁.Occurs e s₂ ∧
        Follows A s₂ s' := by
  induction h with
  | refl => exact Or.inl (refl s)
  | tail _ hstep ih =>
    rcases ih with hnone | ⟨e, s₁, s₂, hbefore, hA, hB, he, hafter⟩
    · obtain ⟨e, hA, he⟩ := hstep
      by_cases hB : B e
      · exact Or.inr ⟨e, _, _, hnone, hA, hB, he, refl _⟩
      · exact Or.inl (hnone.trans (of_occurs ⟨hA, hB⟩ he))
    · exact Or.inr ⟨e, s₁, s₂, hbefore, hA, hB, he, hafter.tail hstep⟩

end Follows
end Store

/-! ### Operations -/

namespace Action

variable {α β : Type} {A B : Store.Incident → Prop} {s s' : Store}

/-- Whether the operation ends or is broken off, it comes about by incidents that
`A` permits. -/
def Leads (A : Store.Incident → Prop) (a : Action α) (s : Store) : Prop :=
  Store.Follows A s (a.leaves s)

/-- An operation that ended came about by permitted incidents. -/
theorem Leads.of_ok {a : Action α} {x : α} (h : Leads A a s) (hs : a s = .ok x s') :
    Store.Follows A s s' :=
  leaves_ok hs ▸ h

/-- An operation that broke off came about by permitted incidents, up to where it did. -/
theorem Leads.of_error {a : Action α} {e : Fault} (h : Leads A a s) (hs : a s = .error e s') :
    Store.Follows A s s' :=
  leaves_error hs ▸ h

/-- A pure result needs no incident. -/
theorem leads_pure (x : α) : Leads A (pure x : Action α) s := .refl s

/-- A fault needs no incident. -/
theorem leads_throw (e : Fault) : Leads A (throw e : Action α) s := .refl s

/-- A change of the store comes about as the store does. -/
theorem leads_modify {f : Store → Store} (h : Store.Follows A s (f s)) :
    Leads A (modify f : Action Unit) s := h

/-- Actions in sequence; the second one starts where the first one ended. -/
theorem leads_bind {a : Action α} {f : α → Action β} (ha : Leads A a s)
    (hf : ∀ x s', a s = .ok x s' → Leads A (f x) s') : Leads A (a >>= f) s := by
  rw [Leads, leaves, bind_apply]
  cases hs : a s with
  | ok x s' => exact (ha.of_ok hs).trans (hf x s' hs)
  | error e s' => exact ha.of_error hs

/-- What is read is the store at that moment. -/
theorem leads_get {f : Store → Action β} (hf : Leads A (f s) s) : Leads A (get >>= f) s := hf

/-- Dropping a result needs no incident. -/
theorem leads_discard {a : Action α} (ha : Leads A a s) :
    Leads A (discard a : Action PUnit) s := by
  rw [Leads, leaves, discard_apply]
  cases hs : a s with
  | ok x s' => exact ha.of_ok hs
  | error e s' => exact ha.of_error hs

/-- Actions on the items of a list, in order. -/
theorem leads_forM {f : α → Action Unit} (hf : ∀ x s, Leads A (f x) s) :
    ∀ (xs : List α) (s : Store), Leads A (xs.forM f) s
  | [], _ => leads_pure ()
  | x :: xs, s => leads_bind (hf x s) fun _ s' _ => leads_forM hf xs s'

/-- Actions on the items of a list, with their results collected, by induction on the list.
-/
theorem leads_mapM {f : α → Action β} (hf : ∀ x s, Leads A (f x) s) (xs : List α) :
    ∀ s, Leads A (xs.mapM f) s := by
  induction xs with
  | nil => exact fun s => leads_pure []
  | cons x xs ih =>
    intro s
    rw [List.mapM_cons]
    exact leads_bind (hf x s) fun _ s' _ => leads_bind (ih s') fun _ _ _ => leads_pure _

/-- A change that is made in any case, after success and on the way out of a failure. -/
theorem leads_ensuring {a : Action α} {change : Store → Store} (ha : Leads A a s)
    (hc : ∀ s, Store.Follows A s (change s)) : Leads A (a.ensuring change) s := by
  rw [Leads, leaves, ensuring]
  cases hs : a s with
  | ok x s' => exact (ha.of_ok hs).trans (hc s')
  | error e s' => exact (ha.of_error hs).trans (hc s')

/-- What undoes an operation may rely on its having been broken off. -/
theorem leads_undoing {a : Action α} {change : Store → Store} (ha : Leads A a s)
    (hc : ∀ e s', a s = .error e s' → Store.Follows A s' (change s')) :
    Leads A (a.undoing change) s := by
  rw [Leads, leaves, undoing]
  cases hs : a s with
  | ok x s' => exact ha.of_ok hs
  | error e s' => exact (ha.of_error hs).trans (hc e s' hs)

end Action
end Telemetry
