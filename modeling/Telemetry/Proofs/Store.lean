/-
# Reading a store after a change

How an operation runs, step by step, and what is found in a store once one of
its slots, deferred values, records or pool sets was changed.  An identity that
was never given out stands for the blank thing of its kind, and changing it
changes nothing.

`OnlySlots` and `OnlyRecords` say that two stores differ on one side alone: on
that of the attributes, or on that of the records.
-/

import Telemetry.Proofs.Keyed
import Telemetry.Trace.Collection

namespace Telemetry

open Trace

namespace Action

variable {α β : Type}

/-- Two actions in sequence: the second one sees the store that the first one left, and does
not run at all if the first one failed. -/
@[simp] theorem bind_apply (a : Action α) (f : α → Action β) (s : Store) :
    (a >>= f) s = match a s with
      | .ok x s => f x s
      | .error e s => .error e s := by
  simp only [bind, EStateM.bind]
  cases a s <;> rfl

/-- A pure result leaves the store alone. -/
@[simp] theorem pure_apply (x : α) (s : Store) : (pure x : Action α) s = .ok x s := rfl

/-- Reading the store leaves it alone. -/
@[simp] theorem get_apply (s : Store) : (get : Action Store) s = .ok s s := rfl

/-- A change of the store always succeeds. -/
@[simp] theorem modify_apply (f : Store → Store) (s : Store) :
    (modify f : Action Unit) s = .ok () (f s) := rfl

/-- A fault leaves the store as it is. -/
@[simp] theorem throw_apply (e : Fault) (s : Store) : (throw e : Action α) s = .error e s := rfl

/-- A function of the result changes neither the store nor the fault. -/
@[simp] theorem map_apply (f : α → β) (a : Action α) (s : Store) :
    (f <$> a) s = match a s with
      | .ok x s => .ok (f x) s
      | .error e s => .error e s := by
  simp only [Functor.map, EStateM.map]
  cases a s <;> rfl

/-- An action whose result is dropped leaves the same store and fails alike. -/
@[simp] theorem discard_apply (a : Action α) (s : Store) :
    (discard a : Action PUnit) s = match a s with
      | .ok _ s => .ok () s
      | .error e s => .error e s := by
  simp only [discard, Functor.mapConst, Function.comp_apply, EStateM.map]
  cases a s <;> rfl

/-- An action for each item of no list does nothing. -/
theorem forM_nil (f : α → Action Unit) (s : Store) : [].forM f s = .ok () s := rfl

/-- A loop does its first turn, and goes on if that was not broken off. -/
theorem forM_cons (f : α → Action Unit) (x : α) (xs : List α) (s : Store) :
    (x :: xs).forM f s = match f x s with
      | .ok _ s => xs.forM f s
      | .error e s => .error e s := by
  simp only [List.forM_eq_forM, List.forM_cons, bind_apply]
  cases f x s <;> rfl

/-- A loop with results does its first turn, and goes on if that was not broken
off. -/
theorem mapM_cons (f : α → Action β) (x : α) (xs : List α) (s : Store) :
    (x :: xs).mapM f s = match f x s with
      | .ok y s => (match xs.mapM f s with
        | .ok ys s => .ok (y :: ys) s
        | .error e s => .error e s)
      | .error e s => .error e s := by
  simp only [List.mapM_cons, bind_apply, pure_apply]
  cases f x s with
  | ok y s =>
    dsimp only
    cases xs.mapM f s <;> rfl
  | error e s => rfl

/-- The store that an operation leaves, whether it ended or was broken off. -/
def leaves (a : Action α) (s : Store) : Store :=
  match a s with
  | .ok _ s => s
  | .error _ s => s

/-- What an action leaves behind when it succeeds. -/
theorem leaves_ok {a : Action α} {s s' : Store} {x : α} (h : a s = .ok x s') :
    a.leaves s = s' := by
  rw [leaves, h]

/-- What an action leaves behind when it fails. -/
theorem leaves_error {a : Action α} {s s' : Store} {e : Fault} (h : a s = .error e s') :
    a.leaves s = s' := by
  rw [leaves, h]

/-! ### What an operation keeps -/

variable {Q : Store → Prop}

/-- Whether the operation ends or is broken off, what `Q` says of the store
goes on to hold. -/
def Keeps (Q : Store → Prop) (a : Action α) : Prop := ∀ s, Q s → Q (a.leaves s)

/-- A kept property holds after success. -/
theorem Keeps.of_ok {a : Action α} {s s' : Store} {x : α} (ha : Keeps Q a) (h : Q s)
    (hs : a s = .ok x s') : Q s' :=
  leaves_ok hs ▸ ha s h

/-- A kept property holds where an action broke off, too. -/
theorem Keeps.of_error {a : Action α} {s s' : Store} {e : Fault} (ha : Keeps Q a) (h : Q s)
    (hs : a s = .error e s') : Q s' :=
  leaves_error hs ▸ ha s h

/-- A pure result keeps every property. -/
theorem keeps_pure (x : α) : Keeps Q (pure x : Action α) := fun _ h => h

/-- Raising a fault keeps every property. -/
theorem keeps_throw (e : Fault) : Keeps Q (throw e : Action α) := fun _ h => h

/-- A change of the store keeps what it preserves. -/
theorem keeps_modify {f : Store → Store} (hf : ∀ s, Q s → Q (f s)) :
    Keeps Q (modify f : Action Unit) := hf

/-- What follows may rely on the result. -/
theorem keeps_bind_of {a : Action α} {f : α → Action β} (ha : Keeps Q a)
    (hf : ∀ s x s', Q s → a s = .ok x s' → Keeps Q (f x)) : Keeps Q (a >>= f) := by
  intro s h
  rw [leaves, bind_apply]
  cases hs : a s with
  | ok x s' => exact hf s x s' h hs s' (ha.of_ok h hs)
  | error e s' => exact ha.of_error h hs

/-- Actions in sequence keep what each of them keeps. -/
theorem keeps_bind {a : Action α} {f : α → Action β} (ha : Keeps Q a) (hf : ∀ x, Keeps Q (f x)) :
    Keeps Q (a >>= f) :=
  keeps_bind_of ha fun _ x _ _ _ => hf x

/-- What is read is the store at that moment. -/
theorem keeps_get {f : Store → Action β} (hf : ∀ s, Q s → Keeps Q (f s)) :
    Keeps Q (get >>= f) := fun s h => hf s h s h

/-- Dropping the result of an action changes nothing about what it keeps. -/
theorem keeps_discard {a : Action α} (ha : Keeps Q a) : Keeps Q (discard a : Action PUnit) := by
  intro s h
  rw [leaves, discard_apply]
  cases hs : a s with
  | ok x s' => exact ha.of_ok h hs
  | error e s' => exact ha.of_error h hs

/-- An action for each item keeps what it keeps for one item. -/
theorem keeps_forM {f : α → Action Unit} (hf : ∀ x, Keeps Q (f x)) (xs : List α) :
    Keeps Q (xs.forM f) := by
  induction xs with
  | nil => exact keeps_pure ()
  | cons x xs ih => exact keeps_bind (hf x) fun _ => ih

/-- Collecting the results for a list keeps what one item keeps. -/
theorem keeps_mapM {f : α → Action β} (hf : ∀ x, Keeps Q (f x)) (xs : List α) :
    Keeps Q (xs.mapM f) := by
  induction xs with
  | nil => exact keeps_pure []
  | cons x xs ih =>
    rw [List.mapM_cons]
    exact keeps_bind (hf x) fun _ => keeps_bind ih fun _ => keeps_pure _

/-- An action that is undone on failure keeps a property that the undoing keeps as well. -/
theorem keeps_undoing {a : Action α} {change : Store → Store} (ha : Keeps Q a)
    (hc : ∀ s, Q s → Q (change s)) : Keeps Q (a.undoing change) := by
  intro s h
  rw [leaves, undoing]
  cases hs : a s with
  | ok x s' => exact ha.of_ok h hs
  | error e s' => exact hc s' (ha.of_error h hs)

end Action

/-! ### Changing one entry -/

section Modify

variable {α : Type} [Inhabited α] {xs : Array α} {i : Nat} {f g : α → α}

/-- What counts is what becomes of the entry as it is. -/
theorem modify_congr (h : f (xs[i]?.getD default) = g (xs[i]?.getD default)) :
    xs.modify i f = xs.modify i g := by
  refine Array.ext (by simp) fun j _ hj => ?_
  simp only [Array.getElem_modify]
  split_ifs with hij
  · subst hij
    have hi : i < xs.size := by simpa using hj
    simpa [hi] using h
  · rfl

/-- An entry that becomes what it is, or is not there. -/
theorem modify_self (h : i < xs.size → f (xs[i]?.getD default) = xs[i]?.getD default) :
    xs.modify i f = xs := by
  refine Array.ext (by simp) fun j _ hj => ?_
  rw [Array.getElem_modify]
  split_ifs with hij
  · subst hij
    simpa [hj] using h hj
  · rfl

end Modify

namespace Store

variable {s : Store}

/-! ### One change -/

/-- Only what a change makes of the slot that is there matters. -/
theorem modifySlot_congr {i : SlotId} {f g : Slot → Slot} (h : f (s.slot i) = g (s.slot i)) :
    s.modifySlot i f = s.modifySlot i g := by
  rw [modifySlot, modifySlot, modify_congr h]

/-- A change that returns the same slot leaves the store as it is. -/
theorem modifySlot_self {i : SlotId} {f : Slot → Slot} (h : f (s.slot i) = s.slot i) :
    s.modifySlot i f = s := by
  rw [modifySlot, modify_self fun _ => h]

/-- A cell that was never made cannot be changed. -/
theorem modifyCell_of_size_le {c : CellId} (h : s.cells.size ≤ c) (f : Cell → Cell) :
    s.modifyCell c f = s := by
  rw [modifyCell, modify_self fun hc => absurd hc (not_lt.2 h)]

/-- Reading a slot after a slot was changed. -/
theorem slot_modifySlot (s : Store) (i j : SlotId) (f : Slot → Slot) :
    (s.modifySlot i f).slot j = if i = j ∧ i < s.slots.size then f (s.slot j) else s.slot j := by
  simp only [slot, modifySlot, Array.getElem?_modify]
  by_cases hi : i = j
  · subst hi
    by_cases hs : i < s.slots.size <;> simp [hs]
  · simp [hi]

/-- A change of one slot does not show at another. -/
theorem slot_modifySlot_ne {i j : SlotId} (h : i ≠ j) (f : Slot → Slot) :
    (s.modifySlot i f).slot j = s.slot j := by
  rw [slot_modifySlot, if_neg fun hi => h hi.1]

/-- A slot that exists is changed as the function says. -/
theorem slot_modifySlot_self {i : SlotId} (h : i < s.slots.size) (f : Slot → Slot) :
    (s.modifySlot i f).slot i = f (s.slot i) := by
  rw [slot_modifySlot, if_pos ⟨rfl, h⟩]

/-- Reading a record after a record was changed. -/
theorem record_modifyRecord (s : Store) (r q : RecordId) (f : Record → Record) :
    (s.modifyRecord r f).record q =
      if r = q ∧ r < s.records.size then f (s.record q) else s.record q := by
  simp only [record, modifyRecord, Array.getElem?_modify]
  by_cases hr : r = q
  · subst hr
    by_cases hs : r < s.records.size <;> simp [hs]
  · simp [hr]

/-- A change of one record does not show at another. -/
theorem record_modifyRecord_ne {r q : RecordId} (h : r ≠ q) (f : Record → Record) :
    (s.modifyRecord r f).record q = s.record q := by
  rw [record_modifyRecord, if_neg fun hr => h hr.1]

/-- A record that exists is changed as the function says. -/
theorem record_modifyRecord_self {r : RecordId} (h : r < s.records.size) (f : Record → Record) :
    (s.modifyRecord r f).record r = f (s.record r) := by
  rw [record_modifyRecord, if_pos ⟨rfl, h⟩]

/-- Reading a cell after a cell was changed. -/
theorem cell_modifyCell (s : Store) (c d : CellId) (f : Cell → Cell) :
    (s.modifyCell c f).cell d = if c = d ∧ c < s.cells.size then f (s.cell d) else s.cell d := by
  simp only [cell, modifyCell, Array.getElem?_modify]
  by_cases hc : c = d
  · subst hc
    by_cases hs : c < s.cells.size <;> simp [hs]
  · simp [hc]

/-- Reading a set of pools after one was changed. -/
theorem set_modifySet (s : Store) (p q : SetId) (f : PoolSet → PoolSet) :
    (s.modifySet p f).set q = if p = q ∧ p < s.sets.size then f (s.set q) else s.set q := by
  simp only [set, modifySet, Array.getElem?_modify]
  by_cases hp : p = q
  · subst hp
    by_cases hs : p < s.sets.size <;> simp [hs]
  · simp [hp]

/-! ### What a change leaves alone -/

section Frame

variable (s) (i : Nat) (es : List Event)

/-- Changing a slot makes no slot. -/
@[simp] theorem size_modifySlot (f : Slot → Slot) :
    (s.modifySlot i f).slots.size = s.slots.size := Array.size_modify

/-- Changing a record makes no record. -/
@[simp] theorem size_modifyRecord (f : Record → Record) :
    (s.modifyRecord i f).records.size = s.records.size := Array.size_modify

/-- Changing a cell makes no cell. -/
@[simp] theorem size_modifyCell (f : Cell → Cell) :
    (s.modifyCell i f).cells.size = s.cells.size := Array.size_modify

/-- Changing a record changes no slot. -/
@[simp] theorem slot_modifyRecord (f : Record → Record) (j : SlotId) :
    (s.modifyRecord i f).slot j = s.slot j := rfl

/-- Changing a cell changes no slot. -/
@[simp] theorem slot_modifyCell (f : Cell → Cell) (j : SlotId) :
    (s.modifyCell i f).slot j = s.slot j := rfl

/-- Changing a set of pools changes no slot. -/
@[simp] theorem slot_modifySet (f : PoolSet → PoolSet) (j : SlotId) :
    (s.modifySet i f).slot j = s.slot j := rfl

/-- Reporting events changes no slot. -/
@[simp] theorem slot_report (j : SlotId) : (s.report es).slot j = s.slot j := rfl

/-- Changing a slot changes no record. -/
@[simp] theorem record_modifySlot (f : Slot → Slot) (r : RecordId) :
    (s.modifySlot i f).record r = s.record r := rfl

/-- Changing a cell changes no record. -/
@[simp] theorem record_modifyCell (f : Cell → Cell) (r : RecordId) :
    (s.modifyCell i f).record r = s.record r := rfl

/-- Changing a set of pools changes no record. -/
@[simp] theorem record_modifySet (f : PoolSet → PoolSet) (r : RecordId) :
    (s.modifySet i f).record r = s.record r := rfl

/-- Reporting events changes no record. -/
@[simp] theorem record_report (r : RecordId) : (s.report es).record r = s.record r := rfl

/-- Changing a slot changes no set of pools. -/
@[simp] theorem set_modifySlot (f : Slot → Slot) (p : SetId) :
    (s.modifySlot i f).set p = s.set p := rfl

/-- Changing a record changes no set of pools. -/
@[simp] theorem set_modifyRecord (f : Record → Record) (p : SetId) :
    (s.modifyRecord i f).set p = s.set p := rfl

/-- Changing a cell changes no set of pools. -/
@[simp] theorem set_modifyCell (f : Cell → Cell) (p : SetId) :
    (s.modifyCell i f).set p = s.set p := rfl

/-- Reporting events changes no set of pools. -/
@[simp] theorem set_report (p : SetId) : (s.report es).set p = s.set p := rfl

end Frame

/-! ### Identities that were never given out -/

/-- A slot that was never made reads as a fresh one. -/
theorem slot_of_size_le {i : SlotId} (h : s.slots.size ≤ i) : s.slot i = default := by
  simp [slot, h]

/-- A slot with a definition was made. -/
theorem lt_size_of_definition {i : SlotId} (h : (s.slot i).definition ≠ none) :
    i < s.slots.size := by
  by_contra hi
  rw [slot_of_size_le (not_lt.1 hi)] at h
  exact h rfl

/-- A slot with references was made. -/
theorem lt_size_of_references {i : SlotId} (h : (s.slot i).references ≠ 0) : i < s.slots.size := by
  by_contra hi
  rw [slot_of_size_le (not_lt.1 hi)] at h
  exact h rfl

/-- A slot that is marked as pooled was made. -/
theorem lt_size_of_marked {i : SlotId} (h : (s.slot i).marked = true) : i < s.slots.size := by
  by_contra hi
  rw [slot_of_size_le (not_lt.1 hi)] at h
  exact Bool.false_ne_true h

/-- A record that was never made reads as a fresh one. -/
theorem record_of_size_le {r : RecordId} (h : s.records.size ≤ r) : s.record r = default := by
  simp [record, h]

/-- A cell that was never made reads as a fresh one. -/
theorem cell_of_size_le {c : CellId} (h : s.cells.size ≤ c) : s.cell c = default := by
  simp [cell, h]

/-- A set of pools that was never made reads as a fresh one. -/
theorem set_of_size_le {p : SetId} (h : s.sets.size ≤ p) : s.set p = default := by
  simp [set, h]

/-- A slot that comes new is free, and it is the only one that comes. -/
theorem slot_push (s : Store) (slot : Slot) (j : SlotId) :
    ({ s with slots := s.slots.push slot } : Store).slot j =
      if j = s.slots.size then slot else s.slot j := by
  simp only [Store.slot, Array.getElem?_push]
  split <;> simp

/-- A record that is added stands behind all others. -/
theorem record_push (s : Store) (record : Record) (q : RecordId) :
    ({ s with records := s.records.push record } : Store).record q =
      if q = s.records.size then record else s.record q := by
  simp only [Store.record, Array.getElem?_push]
  split <;> simp

/-- A cell that is added stands behind all others. -/
theorem cell_push (s : Store) (cell : Cell) (d : CellId) :
    ({ s with cells := s.cells.push cell } : Store).cell d =
      if d = s.cells.size then cell else s.cell d := by
  simp only [Store.cell, Array.getElem?_push]
  split <;> simp

/-- A set of pools that is added stands behind all others. -/
theorem set_push (s : Store) (q : PoolSet) (p : SetId) :
    ({ s with sets := s.sets.push q } : Store).set p =
      if p = s.sets.size then q else s.set p := by
  simp only [Store.set, Array.getElem?_push]
  split <;> simp

/-! ### The two sides of a store -/

/-- Nothing differs but slots, their pools, the clock and the log. -/
structure OnlySlots (s s' : Store) : Prop where
  records : s'.records = s.records
  stock : ∀ p, (s'.set p).records = (s.set p).records
  cells : s'.cells = s.cells
  handles : s'.handles = s.handles

namespace OnlySlots

/-- A store differs from itself in no slot. -/
theorem refl (s : Store) : OnlySlots s s := ⟨rfl, fun _ => rfl, rfl, rfl⟩

/-- Changes of slots alone compose. -/
theorem trans {s s' s'' : Store} (h : OnlySlots s s') (h' : OnlySlots s' s'') :
    OnlySlots s s'' :=
  ⟨h'.records.trans h.records, fun p => (h'.stock p).trans (h.stock p),
    h'.cells.trans h.cells, h'.handles.trans h.handles⟩

/-- Where only slots change, every record stays. -/
theorem record {s' : Store} (h : OnlySlots s s') (r : RecordId) : s'.record r = s.record r := by
  simp only [Store.record, h.records]

end OnlySlots

/-- Nothing differs but records, their pools, the holders of the pools, the
clock and the log. -/
structure OnlyRecords (s s' : Store) : Prop where
  slots : s'.slots = s.slots
  stock : ∀ p, (s'.set p).slots = (s.set p).slots
  cells : s'.cells = s.cells
  handles : s'.handles = s.handles

end Store
end Telemetry
