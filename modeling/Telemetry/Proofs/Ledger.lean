/-
# References that are held directly

Besides the maps of the records, anybody who has an attribute in hand may hold
references on it.  The ledger lists them.  A reference may be taken on an
attribute that is bound to a definition, and it may be given up while it
stands in the ledger; nothing else may be done to it.

Computing a deferred value may take references and give them up as well, in
the midst of a freeze, and it may freeze other attributes, whose deferred
values are then computed in turn.  The functions below follow a computation as
the store runs it and say which ledger it leaves, or `none` if it takes or
gives up a reference that it may not.

`forceWithin_runs` is what a computation can do: it keeps the books, it
touches no record, and of the attributes that are demanded it changes only
such as are not frozen and are named by the computation.  Only a value that
needs itself breaks it off.
-/

import Telemetry.Proofs.Slots

namespace Telemetry

open Trace

/-- The references that are held directly, each as often as it is held. -/
abbrev Ledger := Multiset SlotId

/-- What an operation makes of the ledger; `none` if it breaks the rules. -/
abbrev Entry := Ledger → Store → Option Ledger

/-- An attribute frozen, with the result of its deferred value if it had no
value. -/
def Trace.Slot.freeze (v : Option Value) (a : Slot) : Slot :=
  if a.immutable then a else { a with value := a.value.or v, immutable := true }

/-- A freeze is a write: it leaves an attribute that is frozen already. -/
theorem Trace.Slot.freeze_writes (v : Option Value) (a : Slot) : a.Writes (a.freeze v) := by
  unfold freeze
  split_ifs with h
  · exact writes_refl a
  · exact ⟨rfl, rfl, rfl, rfl, fun ha => absurd ha h⟩

/-- A freeze leaves the deferred value where it is. -/
theorem Trace.Slot.deferred_freeze (v : Option Value) (a : Slot) :
    (a.freeze v).deferred = a.deferred := by
  unfold freeze
  split_ifs <;> rfl

/-- After a freeze the attribute is immutable. -/
theorem Trace.Slot.immutable_freeze (v : Option Value) (a : Slot) :
    (a.freeze v).immutable = true := by
  unfold freeze
  split_ifs with h
  · exact h
  · rfl

/-- Writing a value leaves the deferred value where it is. -/
theorem Trace.Slot.deferred_setValue (v : Value) (a : Slot) :
    (a.setValue v).deferred = a.deferred := by
  unfold setValue
  split_ifs <;> rfl

/-- A deferred value whose computation is begun. -/
def Trace.Cell.begin (cell : Cell) : Cell :=
  { cell with progress := .running, calls := cell.calls + 1 }

namespace Ledger

/-- Taking a reference, on an attribute that is bound. -/
def added (i : SlotId) : Entry := fun L s =>
  if (s.slot i).definition.isSome then some (i ::ₘ L) else none

/-- Giving a reference up, one that is held. -/
def removed (i : SlotId) : Entry := fun L _ => if i ∈ L then some (L.erase i) else none

/-- Operations one after the other, up to one that is broken off. -/
def inTurn {α : Type} (entry : α → Entry) (act : α → Action Unit) : List α → Entry
  | [], L, _ => some L
  | x :: xs, L, s =>
    (entry x L s).bind fun L =>
      match act x s with
      | .ok _ s => inTurn entry act xs L s
      | .error _ _ => some L

/-- Freezing an attribute; only one without value has its deferred value
computed. -/
def frozenWith (entry : CellId → Entry) (i : SlotId) : Entry := fun L s =>
  if (s.slot i).immutable then some L
  else match (s.slot i).value, (s.slot i).deferred with
    | none, some c => entry c L s
    | _, _ => some L

/-- A deed of a computation. -/
def performedWith (entry : CellId → Entry) (e : Effect) : Entry := fun L s =>
  match s.handles.get? e.handle with
  | none => some L
  | some i =>
    match e.deed with
    | .setValue _ => some L
    | .freeze => frozenWith entry i L s
    | .addReference => added i L s
    | .removeReference => removed i L s

/-- Computing a deferred value, with so many levels of deferred values below. -/
def forcedWithin : Nat → CellId → Entry
  | 0, _, L, _ => some L
  | n + 1, c, L, s =>
    match (s.cell c).progress with
    | .pending =>
      inTurn (performedWith (forcedWithin n)) (performWith (forceWithin n)) (s.cell c).effects L
        (s.modifyCell c Cell.begin)
    | _ => some L

/-- Asking for a deferred value. -/
def forced (c : CellId) : Entry := fun L s => forcedWithin (s.cells.size + 1) c L s

/-- Freezing an attribute. -/
def frozen (i : SlotId) : Entry := frozenWith forced i

end Ledger

namespace Trace

/-- What becomes of an attribute that somebody holds on to: it stays the same
one, and unless it may be written it stays as it is and gains no references.
A frozen one stays as it is in any case. -/
structure Slot.Lasts (written : Prop) (a b : Slot) : Prop where
  definition : b.definition = a.definition
  bare : a.immutable = true ∨ ¬ written → b.bare = a.bare
  references : ¬ written → b.references ≤ a.references

namespace Slot.Lasts

variable {w w' : Prop} {a b c : Slot}

/-- An attribute lasts through nothing. -/
theorem refl (w : Prop) (a : Slot) : Lasts w a a := ⟨rfl, fun _ => rfl, fun _ => le_rfl⟩

/-- And through one change and then another one. -/
theorem trans (h : Lasts w a b) (h' : Lasts w b c) : Lasts w a c := by
  refine ⟨h'.definition.trans h.definition, fun hw => ?_,
    fun hw => (h'.references hw).trans (h.references hw)⟩
  have hbare := h.bare hw
  exact (h'.bare (immutable_of_bare hbare ▸ hw)).trans hbare

/-- An attribute that lasts unless one thing happens lasts unless more things do. -/
theorem mono (h : Lasts w a b) (hw : w → w') : Lasts w' a b :=
  ⟨h.definition, fun hw' => h.bare (hw'.imp_right fun hn hwi => hn (hw hwi)),
    fun hn => h.references fun hwi => hn (hw hwi)⟩

/-- Where only bookkeeping differs and no reference is added, the attribute lasts. -/
theorem of_bare (h : b.bare = a.bare) (hr : b.references ≤ a.references) : Lasts w a b :=
  ⟨definition_of_bare h, fun _ => h, fun _ => hr⟩

/-- A write to an attribute that may be written. -/
theorem of_writes (h : a.Writes b) (hw : w) : Lasts w a b :=
  ⟨h.definition, fun hn => congrArg Slot.bare (h.frozen (hn.resolve_right (not_not_intro hw))),
    fun hn => absurd hw hn⟩

end Slot.Lasts

/-- How a deferred value gets on: it stays the same one, and if it was pending
it may be finished, with the value it yields. -/
structure Cell.Advances (a b : Cell) : Prop where
  yields : b.yields = a.yields
  effects : b.effects = a.effects
  progress : b.progress = a.progress ∨ a.progress = .pending ∧ b.progress = .finished a.yields

namespace Cell.Advances

variable {a b c : Cell}

/-- A deferred value stays as far as it is. -/
theorem refl (a : Cell) : Advances a a := ⟨rfl, rfl, Or.inl rfl⟩

/-- It only ever goes on. -/
theorem trans (h : Advances a b) (h' : Advances b c) : Advances a c := by
  refine ⟨h'.yields.trans h.yields, h'.effects.trans h.effects, ?_⟩
  rcases h.progress with hp | ⟨hp, hf⟩
  · rw [← hp, ← h.yields]
    exact h'.progress
  · rcases h'.progress with hp' | ⟨hp', -⟩
    · exact Or.inr ⟨hp, hp'.trans hf⟩
    · rw [hf] at hp'
      cases hp'

end Cell.Advances
end Trace

namespace Store

/-! ### What is kept -/

/-- The attributes in `K` last, and only those in `W` may be written. -/
def Kept (K : Multiset SlotId) (W : SlotId → Prop) (s s' : Store) : Prop :=
  ∀ i ∈ K, (s.slot i).Lasts (W i) (s'.slot i)

variable {K : Multiset SlotId} {W : SlotId → Prop} {s s' s'' : Store}

namespace Kept

/-- Nothing is written by doing nothing. -/
theorem refl (K : Multiset SlotId) (W : SlotId → Prop) (s : Store) : Kept K W s s :=
  fun _ _ => Slot.Lasts.refl _ _

/-- What is kept in turn is kept altogether. -/
theorem trans (h : Kept K W s s') (h' : Kept K W s' s'') : Kept K W s s'' :=
  fun i hi => (h i hi).trans (h' i hi)

/-- Fewer slots are kept where more may be written. -/
theorem mono {K' : Multiset SlotId} {W' : SlotId → Prop} (h : Kept K W s s')
    (hK : ∀ i ∈ K', i ∈ K) (hW : ∀ i ∈ K', W i → W' i) : Kept K' W' s s' :=
  fun i hi => (h i (hK i hi)).mono (hW i hi)

/-- Slots that are the same are kept. -/
theorem of_slot (h : ∀ i ∈ K, s'.slot i = s.slot i) : Kept K W s s' :=
  fun i hi => h i hi ▸ Slot.Lasts.refl _ _

/-- Where the demand does not grow, attributes that stay as they are are kept. -/
theorem of_counted {D D' : Multiset SlotId} (h : Counted s D) (h' : Counted s' D') (hD : D' ≤ D)
    (hbare : ∀ i ∈ K, (s'.slot i).bare = (s.slot i).bare) : Kept K W s s' := by
  refine fun i hi => Slot.Lasts.of_bare (hbare i hi) ?_
  rw [h.references, h'.references]
  exact Multiset.count_le_of_le i hD

/-- A write to a slot that may be written. -/
theorem modifySlot {i : SlotId} {f : Slot → Slot} (hf : (s.slot i).Writes (f (s.slot i)))
    (hW : W i) : Kept K W s (s.modifySlot i f) := by
  intro j _
  rw [slot_modifySlot]
  split_ifs with hj
  · obtain ⟨rfl, -⟩ := hj
    exact Slot.Lasts.of_writes hf hW
  · exact Slot.Lasts.refl _ _

end Kept

/-- Nothing differs but slots, their pools, how far the deferred values are,
the clock and the log; no attribute has a deferred value that it did not have
before. -/
structure OnlyComputed (s s' : Store) : Prop where
  records : s'.records = s.records
  stock : ∀ p, (s'.set p).records = (s.set p).records
  handles : s'.handles = s.handles
  size : s'.cells.size = s.cells.size
  cells : ∀ c, (s.cell c).Advances (s'.cell c)
  deferred : ∀ i, (s'.slot i).deferred = none ∨ (s'.slot i).deferred = (s.slot i).deferred

namespace OnlyComputed

/-- Nothing was computed by doing nothing. -/
theorem refl (s : Store) : OnlyComputed s s :=
  ⟨rfl, fun _ => rfl, rfl, rfl, fun _ => Cell.Advances.refl _, fun _ => Or.inr rfl⟩

/-- Computations in turn are one. -/
theorem trans (h : OnlyComputed s s') (h' : OnlyComputed s' s'') : OnlyComputed s s'' :=
  ⟨h'.records.trans h.records, fun p => (h'.stock p).trans (h.stock p),
    h'.handles.trans h.handles, h'.size.trans h.size, fun c => (h.cells c).trans (h'.cells c),
    fun i => (h'.deferred i).elim Or.inl fun hi => hi ▸ h.deferred i⟩

/-- Changes of slots alone are like a computation, provided that they write no deferred
value. -/
theorem of_onlySlots (h : OnlySlots s s')
    (hd : ∀ i, (s'.slot i).deferred = none ∨ (s'.slot i).deferred = (s.slot i).deferred) :
    OnlyComputed s s' :=
  ⟨h.records, h.stock, h.handles, by rw [h.cells],
    fun c => by simp only [cell, h.cells, Cell.Advances.refl], hd⟩

/-- Records are not computed. -/
theorem record (h : OnlyComputed s s') (r : RecordId) : s'.record r = s.record r := by
  simp only [Store.record, h.records]

/-- A write that leaves deferred values alone. -/
theorem modifySlot (s : Store) (i : SlotId) {f : Slot → Slot}
    (hf : ∀ a : Slot, (f a).deferred = a.deferred) : OnlyComputed s (s.modifySlot i f) := by
  refine of_onlySlots ⟨rfl, fun _ => rfl, rfl, rfl⟩ fun j => Or.inr ?_
  rw [slot_modifySlot]
  split_ifs
  · exact hf _
  · rfl

/-- What happens between the begin and the end of the computation of a pending
value: the value is finished then, or pending again. -/
theorem around {c : CellId} {p : Progress} (hc : (s.cell c).progress = .pending)
    (h : OnlyComputed (s.modifyCell c Cell.begin) s')
    (hp : p = .pending ∨ p = .finished (s.cell c).yields) :
    OnlyComputed s (s'.modifyCell c fun cell => { cell with progress := p }) := by
  refine ⟨h.records, h.stock, h.handles, ?_, fun d => ?_, h.deferred⟩
  · rw [size_modifyCell, h.size, size_modifyCell]
  · have hd := h.cells d
    have hsize : s'.cells.size = s.cells.size := by rw [h.size, size_modifyCell]
    rw [cell_modifyCell] at hd ⊢
    rw [hsize]
    split_ifs at hd ⊢ with hcd
    · obtain ⟨rfl, -⟩ := hcd
      refine ⟨hd.yields, hd.effects, ?_⟩
      rcases hp with rfl | rfl
      · exact Or.inl hc.symm
      · exact Or.inr ⟨hc, rfl⟩
    · exact hd

end OnlyComputed

/-- The attributes that computing deferred values may touch are in `W`. -/
def Named (W : SlotId → Prop) (s : Store) : Prop :=
  ∀ c, ∀ e ∈ (s.cell c).effects, ∀ i, s.handles.get? e.handle = some i → W i

/-- Any slot may be named if all may be written. -/
theorem named_any (s : Store) : Named (fun _ => True) s := fun _ _ _ _ _ => trivial

/-- To begin a computation changes nothing about what it does. -/
theorem effects_begin (s : Store) (c d : CellId) :
    ((s.modifyCell c Cell.begin).cell d).effects = (s.cell d).effects := by
  rw [cell_modifyCell]
  split_ifs <;> rfl

/-- What names stand for is settled by the computations, which do not change. -/
theorem Named.of_onlyComputed (h : Named W s) (hs : OnlyComputed s s') : Named W s' := by
  intro c e he i hi
  rw [(hs.cells c).effects] at he
  rw [hs.handles] at hi
  exact h c e he i hi

/-- What a computation does to the store, from one ledger to another. -/
structure Computes (K : Multiset SlotId) (W : SlotId → Prop) (s : Store) (L' : Ledger)
    (s' : Store) : Prop where
  counted : Counted s' (K + L')
  only : OnlyComputed s s'
  kept : Kept K W s s'

namespace Computes

variable {L L' : Ledger}

/-- No computation at all. -/
theorem refl (h : Counted s (K + L)) : Computes K W s L s :=
  ⟨h, OnlyComputed.refl s, Kept.refl K W s⟩

/-- One computation and then another one. -/
theorem trans {L'' : Ledger} (h : Computes K W s L' s') (h' : Computes K W s' L'' s'') :
    Computes K W s L'' s'' :=
  ⟨h'.counted, h.only.trans h'.only, h.kept.trans h'.kept⟩

/-- A write to a slot that is named. -/
theorem modifySlot (h : Counted s (K + L)) {i : SlotId} {f : Slot → Slot}
    (hf : ∀ a : Slot, a.Writes (f a)) (hd : ∀ a : Slot, (f a).deferred = a.deferred) (hW : W i) :
    Computes K W s L (s.modifySlot i f) := by
  refine ⟨h.of_writes (fun j => ?_) fun _ => rfl, OnlyComputed.modifySlot s i hd,
    Kept.modifySlot (hf _) hW⟩
  rw [slot_modifySlot]
  split_ifs
  · exact hf _
  · exact Slot.writes_refl _

/-- A computation between its begin and its end. -/
theorem around {c : CellId} {p : Progress} (hc : (s.cell c).progress = .pending)
    (h : Computes K W (s.modifyCell c Cell.begin) L' s')
    (hp : p = .pending ∨ p = .finished (s.cell c).yields) :
    Computes K W s L' (s'.modifyCell c fun cell => { cell with progress := p }) :=
  ⟨h.counted.of_stock rfl fun _ => List.Sublist.refl _, h.only.around hc hp, h.kept⟩

end Computes

/-- An operation computes, and what breaks it off is a value that needs
itself. -/
structure Runs {α : Type} (K : Multiset SlotId) (W : SlotId → Prop) (s : Store) (L' : Ledger)
    (a : Action α) : Prop where
  computes : Computes K W s L' (a.leaves s)
  circular : ∀ e s', a s = .error e s' → e = .circular

/-- An action that ends is one whose result was computed. -/
theorem Runs.of_ok {α : Type} {L' : Ledger} {a : Action α} {x : α} (ha : a s = .ok x s')
    (h : Computes K W s L' s') : Runs K W s L' a :=
  ⟨by rwa [Action.leaves_ok ha], fun e s'' he => by rw [ha] at he; cases he⟩

/-- An action may break off at a value that needs itself, and at nothing else. -/
theorem Runs.of_error {α : Type} {L' : Ledger} {a : Action α} (ha : a s = .error .circular s')
    (h : Computes K W s L' s') : Runs K W s L' a :=
  ⟨by rwa [Action.leaves_error ha], fun e s'' he => by rw [ha] at he; cases he; rfl⟩

/-- An operation runs as another one does that leaves the same store and is
broken off alike. -/
theorem Runs.congr {α β : Type} {L' : Ledger} {a : Action α} {b : Action β} (h : Runs K W s L' a)
    (hok : ∀ x s', a s = .ok x s' → ∃ y, b s = .ok y s')
    (herror : ∀ e s', a s = .error e s' → b s = .error e s') : Runs K W s L' b := by
  cases ha : a s with
  | ok x s₁ =>
    obtain ⟨y, hb⟩ := hok x s₁ ha
    exact Runs.of_ok hb (Action.leaves_ok ha ▸ h.computes)
  | error e s₁ =>
    have he := h.circular e s₁ ha
    subst he
    exact Runs.of_error (herror _ _ ha) (Action.leaves_error ha ▸ h.computes)

/-! ### Freezing, case by case -/

section Forcing

variable {force : CellId → Action (Option Value)} {entry : CellId → Entry} {L L' : Ledger}
  {i : SlotId}

/-- A frozen attribute is not frozen again. -/
theorem freezeWith_frozen (h : (s.slot i).immutable = true) :
    freezeWith force i s = .ok () s := by
  simp [freezeWith, h]

/-- An attribute with a value, or with nothing to take one over from, is frozen at once. -/
theorem freezeWith_plain (h : (s.slot i).immutable = false)
    (hv : (s.slot i).value ≠ none ∨ (s.slot i).deferred = none) :
    freezeWith force i s = .ok () (s.modifySlot i (Slot.freeze none)) := by
  cases hvalue : (s.slot i).value with
  | some v =>
    simp only [freezeWith, h, hvalue, Action.bind_apply, Action.get_apply, Action.pure_apply,
      Action.modify_apply, Bool.false_eq_true, if_false]
    rfl
  | none =>
    have hd := hv.resolve_left (absurd hvalue)
    simp only [freezeWith, h, hvalue, hd, Action.bind_apply, Action.get_apply, Action.pure_apply,
      Action.modify_apply, Bool.false_eq_true, if_false]
    rfl

/-- An attribute that has only a deferred value asks for it. -/
theorem freezeWith_pending {c : CellId} (h : (s.slot i).immutable = false)
    (hv : (s.slot i).value = none) (hd : (s.slot i).deferred = some c) :
    freezeWith force i s = match force c s with
      | .ok v s => .ok () (s.modifySlot i (Slot.freeze v))
      | .error e s => .error e s := by
  simp only [freezeWith, h, hv, hd, Action.bind_apply, Action.get_apply, Action.modify_apply,
    Bool.false_eq_true, if_false]
  cases force c s <;> rfl

/-- An attribute that is not frozen has a value or none, and then a deferred
value or none. -/
theorem frozen_plain_or_pending (s : Store) (i : SlotId) :
    (s.slot i).immutable = true ∨
      (s.slot i).immutable = false ∧
        (((s.slot i).value ≠ none ∨ (s.slot i).deferred = none) ∨
          (s.slot i).value = none ∧ ∃ c, (s.slot i).deferred = some c) := by
  cases (s.slot i).immutable <;> cases (s.slot i).value <;> cases (s.slot i).deferred <;> simp

/-- The ledger is not asked about an attribute that is frozen. -/
theorem Ledger.frozenWith_frozen (h : (s.slot i).immutable = true) :
    Ledger.frozenWith entry i L s = some L := by
  simp [Ledger.frozenWith, h]

/-- The ledger is not asked about an attribute that is frozen at once. -/
theorem Ledger.frozenWith_plain (h : (s.slot i).immutable = false)
    (hv : (s.slot i).value ≠ none ∨ (s.slot i).deferred = none) :
    Ledger.frozenWith entry i L s = some L := by
  cases hvalue : (s.slot i).value with
  | some v => simp [Ledger.frozenWith, h, hvalue]
  | none =>
    have hd := hv.resolve_left (absurd hvalue)
    simp [Ledger.frozenWith, h, hvalue, hd]

/-- For an attribute that asks for a value, the ledger is that of the value. -/
theorem Ledger.frozenWith_pending {c : CellId} (h : (s.slot i).immutable = false)
    (hv : (s.slot i).value = none) (hd : (s.slot i).deferred = some c) :
    Ledger.frozenWith entry i L s = entry c L s := by
  simp [Ledger.frozenWith, h, hv, hd]

/-! ### Computing -/

/-- What is assumed of deferred values one level below. -/
def Sound (K : Multiset SlotId) (W : SlotId → Prop) (force : CellId → Action (Option Value))
    (entry : CellId → Entry) : Prop :=
  ∀ c L L' s, entry c L s = some L' → Counted s (K + L) → Named W s → Runs K W s L' (force c)

/-- Freezing runs as the ledger says if computing does. -/
theorem freezeWith_runs (hforce : Sound K W force entry)
    (hL : Ledger.frozenWith entry i L s = some L') (h : Counted s (K + L)) (hN : Named W s)
    (hW : W i) : Runs K W s L' (freezeWith force i) := by
  rcases frozen_plain_or_pending s i with him | ⟨him, hv | ⟨hv, c, hd⟩⟩
  · -- a frozen attribute stays as it is
    rw [Ledger.frozenWith_frozen him, Option.some.injEq] at hL
    exact Runs.of_ok (freezeWith_frozen him) (hL ▸ Computes.refl h)
  · rw [Ledger.frozenWith_plain him hv, Option.some.injEq] at hL
    exact Runs.of_ok (freezeWith_plain him hv)
      (hL ▸ Computes.modifySlot h (Slot.freeze_writes none) (Slot.deferred_freeze none) hW)
  · rw [Ledger.frozenWith_pending him hv hd] at hL
    have hc := hforce c L L' s hL h hN
    have hrun : freezeWith force i s = _ := freezeWith_pending him hv hd
    cases hr : force c s with
    | ok v s' =>
      rw [hr] at hrun
      have hcomputes := hc.computes
      rw [Action.leaves_ok hr] at hcomputes
      exact Runs.of_ok hrun (hcomputes.trans (Computes.modifySlot hcomputes.counted
        (Slot.freeze_writes v) (Slot.deferred_freeze v) hW))
    | error e s' =>
      rw [hr] at hrun
      exact hc.congr (fun x s'' hx => by rw [hr] at hx; cases hx)
        fun e' s'' he => by rw [hr] at he; cases he; exact hrun

/-- An attribute gets a reference more; nothing else happens to any of them. -/
theorem addReference_keeps (h : Counted s (K + L)) (hi : (s.slot i).definition ≠ none) (hW : W i) :
    ∃ s', addReference i s = .ok () s' ∧ Counted s' (i ::ₘ (K + L)) ∧ OnlySlots s s' ∧
      Kept (i ::ₘ K) W s s' ∧ ∀ j, (s'.slot j).bare = (s.slot j).bare := by
  obtain ⟨s', hadd, hc, honly, hself, hrest⟩ := addReference_counted h hi
  refine ⟨s', hadd, hc, honly, fun j _ => ?_, fun j => ?_⟩ <;> rcases eq_or_ne j i with rfl | hj
  · exact ⟨Slot.definition_of_bare hself, fun _ => hself, fun hn => absurd hW hn⟩
  · rw [hrest j hj]
    exact Slot.Lasts.refl _ _
  · exact hself
  · rw [hrest j hj]

/-- A reference is given up; what is demanded beside it is kept. -/
theorem removeReference_keeps (h : Counted s (i ::ₘ (K + L))) :
    ∃ b s', removeReference i s = .ok b s' ∧ Counted s' (K + L) ∧ OnlySlots s s' ∧
      Kept K W s s' ∧ (∀ j, j ≠ i → s'.slot j = s.slot j) ∧
      ∀ j, (s'.slot j).deferred = none ∨ (s'.slot j).deferred = (s.slot j).deferred := by
  obtain ⟨b, s', hrun, hc, honly, hrest, hbare, hself⟩ := removeReference_counted h
  refine ⟨b, s', hrun, hc, honly, Kept.of_counted h hc (Multiset.le_cons_self _ _) fun j hj =>
    hbare j (Multiset.mem_add.2 (Or.inl hj)), hrest, fun j => ?_⟩
  rcases eq_or_ne j i with rfl | hj
  · exact hself.symm.imp Slot.deferred_of_bare Slot.deferred_of_bare
  · rw [hrest j hj]
    exact Or.inr rfl

/-- A deed runs as the ledger says if computing does. -/
theorem performWith_runs {e : Effect} (hforce : Sound K W force entry)
    (hL : Ledger.performedWith entry e L s = some L') (h : Counted s (K + L)) (hN : Named W s)
    (hW : ∀ i, s.handles.get? e.handle = some i → W i) :
    Runs K W s L' (performWith force e) := by
  -- a handle that stands for nothing changes nothing
  cases hi : s.handles.get? e.handle with
  | none =>
    simp only [Ledger.performedWith, hi, Option.some.injEq] at hL
    exact Runs.of_ok (show performWith force e s = .ok () s by simp [performWith, hi])
      (hL ▸ Computes.refl h)
  | some i =>
    cases hdeed : e.deed with
    | setValue v =>
      simp only [Ledger.performedWith, hi, hdeed, Option.some.injEq] at hL
      exact Runs.of_ok (show performWith force e s = .ok () (s.modifySlot i (Slot.setValue v)) by
          simp [performWith, hi, hdeed])
        (hL ▸ Computes.modifySlot h (Slot.setValue_writes v) (Slot.deferred_setValue v) (hW i hi))
    | freeze =>
      simp only [Ledger.performedWith, hi, hdeed] at hL
      have hrun : performWith force e s = freezeWith force i s := by
        simp [performWith, hi, hdeed]
      exact (freezeWith_runs hforce hL h hN (hW i hi)).congr
        (fun x s' hx => ⟨x, hrun.trans hx⟩) fun e s' he => hrun.trans he
    | addReference =>
      -- the rules demand an attribute to refer to, and the ledger gets the reference
      simp only [Ledger.performedWith, hi, hdeed, Ledger.added] at hL
      split_ifs at hL with hb
      rw [Option.some.injEq] at hL
      obtain ⟨s', hrun, hc, honly, hkept, hbare⟩ :=
        addReference_keeps h (Option.isSome_iff_ne_none.1 hb) (hW i hi)
      exact Runs.of_ok (show performWith force e s = .ok () s' by
        simp [performWith, hi, hdeed, hrun]) ⟨hc.congr (by rw [← hL, Multiset.add_cons]),
        OnlyComputed.of_onlySlots honly fun j => Or.inr (Slot.deferred_of_bare (hbare j)),
        hkept.mono (fun _ hj => Multiset.mem_cons_of_mem hj) fun _ _ hj => hj⟩
    | removeReference =>
      -- the rules demand that the ledger has the reference
      simp only [Ledger.performedWith, hi, hdeed, Ledger.removed] at hL
      split_ifs at hL with hmem
      rw [Option.some.injEq] at hL
      have hcons : K + L = i ::ₘ (K + L') := by
        rw [← hL, ← Multiset.add_cons, Multiset.cons_erase hmem]
      obtain ⟨b, s', hrun, hc, honly, hkept, -, hdeferred⟩ :=
        removeReference_keeps (W := W) (h.congr hcons)
      exact Runs.of_ok (show performWith force e s = .ok () s' by
        simp [performWith, hi, hdeed, hrun])
        ⟨hc, OnlyComputed.of_onlySlots honly hdeferred, hkept⟩

/-- Operations in turn do what each of them does. -/
theorem forM_runs {α : Type} {entry : α → Entry} {act : α → Action Unit}
    {I : Store → Prop} (hI : ∀ s s', OnlyComputed s s' → I s → I s') (xs : List α)
    (hstep : ∀ x ∈ xs, ∀ L L' s, entry x L s = some L' → Counted s (K + L) → I s →
      Runs K W s L' (act x)) :
    ∀ L s, Ledger.inTurn entry act xs L s = some L' → Counted s (K + L) → I s →
      Runs K W s L' (xs.forM act) := by
  induction xs with
  | nil =>
    intro L s hL h _
    simp only [Ledger.inTurn, Option.some.injEq] at hL
    exact Runs.of_ok rfl (hL ▸ Computes.refl h)
  | cons x xs ih =>
    intro L s hL h hs
    -- the ledger of the first action is that of the others, which start where it ends
    obtain ⟨L₁, hx, hL⟩ := Option.bind_eq_some_iff.1 hL
    have hc := hstep x List.mem_cons_self L L₁ s hx h hs
    have hcomputes := hc.computes
    cases hr : act x s with
    | ok u s₁ =>
      rw [Action.leaves_ok hr] at hcomputes
      simp only [hr] at hL
      have hrun : (x :: xs).forM act s = xs.forM act s₁ := by rw [Action.forM_cons, hr]
      have hrest := ih (fun y hy => hstep y (List.mem_cons_of_mem x hy)) L₁ s₁ hL
        hcomputes.counted (hI s s₁ hcomputes.only hs)
      refine ⟨?_, fun e s' he => hrest.circular e s' (hrun ▸ he)⟩
      rw [Action.leaves, hrun]
      exact hcomputes.trans hrest.computes
    | error e s₁ =>
      -- what broke off ends the run, and the ledger is the one at this point
      simp only [hr, Option.some.injEq] at hL
      have hrun : (x :: xs).forM act s = .error e s₁ := by rw [Action.forM_cons, hr]
      exact hL ▸ hc.congr (fun y s' hy => by rw [hr] at hy; cases hy)
        fun e' s' he => by rw [hr] at he; cases he; exact hrun

/-- A computation of a value that is pending: it is begun, its deeds are done,
and it is finished, or taken back if a deed is broken off. -/
theorem forceWithin_pending {n : Nat} {c : CellId} (h : (s.cell c).progress = .pending) :
    forceWithin (n + 1) c s =
      match ((s.cell c).effects.forM (performWith (forceWithin n)))
          (s.modifyCell c Cell.begin) with
      | .ok _ s => .ok (s.cell c).yields
          (s.modifyCell c fun cell => { cell with progress := .finished (s.cell c).yields })
      | .error e s => .error e (s.modifyCell c fun cell => { cell with progress := .pending }) := by
  have hbegin : (fun cell : Cell => { cell with progress := .running, calls := cell.calls + 1 }) =
    Cell.begin := rfl
  simp only [forceWithin, h, hbegin, Action.bind_apply, Action.get_apply, Action.modify_apply,
    Action.pure_apply, Action.undoing, effects_begin]
  cases ((s.cell c).effects.forM (performWith (forceWithin n))) (s.modifyCell c Cell.begin) <;> rfl

/-- **What computing a deferred value can do.**  The induction is on the levels
of deferred values below it. -/
theorem forceWithin_runs (n : Nat) : Sound K W (forceWithin n) (Ledger.forcedWithin n) := by
  induction n with
  | zero =>
    intro c L L' s hL h _
    simp only [Ledger.forcedWithin, Option.some.injEq] at hL
    exact Runs.of_error rfl (hL ▸ Computes.refl h)
  | succ n ih =>
    intro c L L' s hL h hN
    cases hp : (s.cell c).progress with
    | finished v =>
      simp only [Ledger.forcedWithin, hp, Option.some.injEq] at hL
      exact Runs.of_ok (show forceWithin (n + 1) c s = .ok v s by simp [forceWithin, hp])
        (hL ▸ Computes.refl h)
    | running =>
      simp only [Ledger.forcedWithin, hp, Option.some.injEq] at hL
      exact Runs.of_error (show forceWithin (n + 1) c s = .error .circular s by
        simp [forceWithin, hp]) (hL ▸ Computes.refl h)
    | pending =>
      simp only [Ledger.forcedWithin, hp] at hL
      -- the deeds of the computation, each on an attribute that is named
      have hdeeds := forM_runs (K := K) (W := W) (I := fun s' => Named W s' ∧
          ∀ e ∈ (s.cell c).effects, ∀ i, s'.handles.get? e.handle = some i → W i)
        (fun s s' hs hI => ⟨hI.1.of_onlyComputed hs, by rw [hs.handles]; exact hI.2⟩)
        (s.cell c).effects
        (fun e he L L' s hL h hI => performWith_runs ih hL h hI.1 (hI.2 e he))
        L (s.modifyCell c Cell.begin) hL (h.of_stock rfl fun _ => List.Sublist.refl _)
        ⟨fun d e he i hi => hN d e (effects_begin s c d ▸ he) i hi, hN c⟩
      have hcomputes := hdeeds.computes
      have hrun := forceWithin_pending (n := n) hp
      cases hr : ((s.cell c).effects.forM (performWith (forceWithin n)))
          (s.modifyCell c Cell.begin) with
      | ok u s₂ =>
        rw [hr] at hrun
        rw [Action.leaves_ok hr] at hcomputes
        refine Runs.of_ok hrun (hcomputes.around hp (Or.inr ?_))
        rw [(hcomputes.only.cells c).yields, cell_modifyCell]
        split_ifs <;> rfl
      | error e s₂ =>
        rw [hr] at hrun
        rw [Action.leaves_error hr] at hcomputes
        have he := hdeeds.circular e s₂ hr
        subst he
        exact Runs.of_error hrun (hcomputes.around hp (Or.inl rfl))

/-- **What asking for a deferred value can do.** -/
theorem force_runs : Sound K W Trace.force Ledger.forced := by
  intro c L L' s hL h hN
  have hrun : Trace.force c s = forceWithin (s.cells.size + 1) c s := by simp [Trace.force]
  exact (forceWithin_runs _ c L L' s hL h hN).congr (fun x s' hx => ⟨x, hrun.trans hx⟩)
    fun e s' he => hrun.trans he

/-- **What freezing an attribute can do.** -/
theorem freezeAttribute_runs (hL : Ledger.frozen i L s = some L') (h : Counted s (K + L))
    (hN : Named W s) (hW : W i) : Runs K W s L' (freezeAttribute i) :=
  freezeWith_runs force_runs hL h hN hW

end Forcing

end Store
end Telemetry
