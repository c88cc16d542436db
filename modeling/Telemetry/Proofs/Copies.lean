/-
# Copies of attributes

A copy is made in a slot of its own, and nothing else changes (`Store.Copied`).  It
has the value of the attribute, or in the absence of one shares its deferred value.

From then on whatever is done to one of two attributes leaves the other one alone
(`Store.Aloof`).  A freeze alone reaches further, and only because a deferred value
that it asks for may work on attributes itself (`Store.Meddles`).  Frozen in either
order the two come to one value: the first freeze computes it, and the second finds
it computed (`Store.Twins.agreed`).
-/

import Telemetry.Proofs.Backing

namespace Telemetry

open Trace

namespace Trace

/-- The deeds that change what an attribute is, besides the references on it. -/
def Deed.Alters : Deed → Prop
  | .addReference => False
  | _ => True

/-- A freeze without a value to take over leaves the value. -/
theorem Slot.value_freeze_none (a : Slot) : (a.freeze none).value = a.value := by
  unfold freeze
  split_ifs
  · rfl
  · exact Option.or_none

/-- A freeze of an attribute that can be written takes the value over, unless there is one. -/
theorem Slot.value_freeze {a : Slot} (h : a.immutable = false) (v : Option Value) :
    (a.freeze v).value = a.value.or v := by
  rw [freeze, if_neg (by rw [h]; exact Bool.false_ne_true)]

/-- Whether what an attribute carries is there does not depend on the bookkeeping of its
slot. -/
theorem Slot.Backed.of_bare {s : Store} {a b : Slot} (h : a.Backed s) (hb : b.bare = a.bare) :
    b.Backed s := by
  unfold Slot.Backed
  rw [deferred_of_bare hb, immutable_of_bare hb, value_of_bare hb]
  exact h

/-- A computation is begun at most once in an operation. -/
theorem Cell.Fares.calls_le_succ {ended : Prop} {a b : Cell} (h : a.Fares ended b) :
    b.calls ≤ a.calls + 1 := by
  cases h with
  | rests => exact Nat.le_succ _
  | computed | brokenOff => exact le_rfl

end Trace

namespace Store

open Telemetry.Action

variable {s s' m : Store} {i j x y : SlotId} {e : Incident}

/-! ### What deferred values do to an attribute -/

/-- A deferred value whose computation is begun on the way does such a deed to the
attribute in the slot. -/
def Meddles (K : Deed → Prop) (i : SlotId) (s s' : Store) : Prop :=
  ∃ c, (s.cell c).calls < (s'.cell c).calls ∧
    ∃ e ∈ (s.cell c).effects, K e.deed ∧ s.handles.get? e.handle = some i

/-- Slots other than this one, and the handles, are as they were. -/
structure Around (i : SlotId) (s s' : Store) : Prop where
  handles : s'.handles = s.handles
  others : ∀ j, j ≠ i → s'.slot j = s.slot j

/-- Writing the slot itself touches no other one. -/
theorem Around.modifySlot {s₀ : Store} (h : Around i s₀ s) (f : Slot → Slot) :
    Around i s₀ (s.modifySlot i f) :=
  ⟨h.handles, fun j hj => (slot_modifySlot_ne hj.symm f).trans (h.others j hj)⟩

/-- Putting a slot back into its pool touches no other one. -/
theorem putSlot_around {s₀ : Store} (p : SetId) (i : SlotId) :
    Keeps (Around i s₀) (putSlot p i) := by
  refine keeps_modify fun s h => ?_
  rcases (s.set p).slots.put (s.slot i).marked i with ⟨_ | _ | _, q⟩
  · exact Around.modifySlot (s := s.modifySet p _) ⟨h.handles, h.others⟩ _
  all_goals exact ⟨h.handles, h.others⟩

/-- Releasing a slot touches no other one. -/
theorem releaseSlot_around {s₀ : Store} (i : SlotId) : Keeps (Around i s₀) (releaseSlot i) := by
  refine keeps_get fun s _ => ?_
  dsimp only
  cases (s.slot i).definition with
  | none => exact keeps_throw _
  | some d =>
    dsimp only
    split_ifs
    · exact keeps_pure ()
    · refine keeps_bind (keeps_modify fun _ h => h.modifySlot _) fun _ => ?_
      cases (s.slot i).home with
      | none => exact keeps_pure ()
      | some p =>
        refine keeps_get fun s' _ => ?_
        split_ifs
        · exact putSlot_around p i
        · exact keeps_pure ()

/-- Giving a reference up is the matter of its slot and of the pool. -/
theorem removeReference_around (i : SlotId) (s : Store) :
    Around i s ((removeReference i).leaves s) := by
  have hdrop : Around i s (s.modifySlot i Slot.unreferred) :=
    Around.modifySlot ⟨rfl, fun _ _ => rfl⟩ _
  rw [leaves, removeReference_apply]
  split_ifs
  · cases hr : releaseSlot i (s.modifySlot i Slot.unreferred) with
    | ok u s' => exact (releaseSlot_around i).of_ok hdrop hr
    | error e s' => exact (releaseSlot_around i).of_error hdrop hr
  · exact hdrop

/-- What a computation leaves as it is, and that it takes no call back. -/
structure Unmoved (s s' : Store) : Prop where
  handles : s'.handles = s.handles
  effects : ∀ c, (s'.cell c).effects = (s.cell c).effects
  calls : ∀ c, (s.cell c).calls ≤ (s'.cell c).calls

/-- No incident of a computation changes names or what deferred values do. -/
theorem Occurs.unmoved (ho : s.Occurs e s') (he : e.Computes) : Unmoved s s' := by
  have hcell : ∀ (c : CellId) {f : Cell → Cell}, (∀ a, (f a).effects = a.effects) →
      (∀ a : Cell, a.calls ≤ (f a).calls) → Unmoved s (s.modifyCell c f) := by
    intro c f heffects hcalls
    refine ⟨rfl, fun d => ?_, fun d => ?_⟩ <;> rw [cell_modifyCell] <;> split_ifs
    · exact heffects _
    · rfl
    · exact hcalls _
    · exact le_rfl
  cases ho with
  | begun => exact hcell _ (fun _ => rfl) fun _ => Nat.le_succ _
  | finished | abandoned => exact hcell _ (fun _ => rfl) fun _ => le_rfl
  | valued | frozen | referred | unreferred => exact ⟨rfl, fun _ => rfl, fun _ => le_rfl⟩
  | @emptied j hj =>
    have hcells := cells_of_rest (removeReference_rest j s rfl)
    refine ⟨(removeReference_around j s).handles, fun c => ?_, fun c => ?_⟩ <;>
      simp only [cell, hcells, le_rfl]
  | made | promised | deferred | aside => exact he.elim

/-- A computation changes neither names nor what deferred values do. -/
theorem Follows.unmoved (h : Follows Incident.Computes s s') : Unmoved s s' :=
  Follows.keeps (Q := Unmoved s) (fun he ho hm => by
    have hstep := ho.unmoved he
    exact ⟨hstep.handles.trans hm.handles, fun c => (hstep.effects c).trans (hm.effects c),
      fun c => (hm.calls c).trans (hstep.calls c)⟩) h ⟨rfl, fun _ => rfl, fun _ => le_rfl⟩

section Passes

variable {β : Type} {K : Deed → Prop} {f : Slot → β}

/-- What a computation does to the attribute in a slot: one side of it is as it was,
unless a deferred value does one of these deeds to it. -/
structure Passes (K : Deed → Prop) (f : Slot → β) (i : SlotId) (s s' : Store) : Prop where
  follows : Follows Incident.Computes s s'
  slot : f (s'.slot i) = f (s.slot i) ∨ Meddles K i s s'

/-- What happens in turn to one side of an attribute happens to it altogether. -/
theorem Passes.trans (h : Passes K f i s m) (h' : Passes K f i m s') : Passes K f i s s' := by
  refine ⟨h.follows.trans h'.follows, ?_⟩
  have hbefore := h.follows.unmoved
  have hafter := h'.follows.unmoved
  rcases h'.slot with hslot' | ⟨c, hcalls, e, he, hK, hi⟩
  · rcases h.slot with hslot | ⟨c, hcalls, he⟩
    · exact Or.inl (hslot'.trans hslot)
    · exact Or.inr ⟨c, hcalls.trans_le (hafter.calls c), he⟩
  · rw [hbefore.effects] at he
    rw [hbefore.handles] at hi
    exact Or.inr ⟨c, (hbefore.calls c).trans_lt hcalls, e, he, hK, hi⟩

variable {force : CellId → Action (Option Value)}
  (hK : ∀ deed, K deed ∨ deed = .addReference ∧ ∀ (a : Slot) n, f { a with references := n } = f a)
  (hforce : ∀ c s, Passes K f i s ((force c).leaves s))
  (hresult : ∀ c s v s', force c s = .ok v s' →
    v = (s'.cell c).result? ∧ (c < s'.cells.size → (s'.cell c).isFinished = true))
include hforce hresult

/-- Freezing another slot. -/
theorem freezeWith_passes (hij : j ≠ i) (s : Store) :
    Passes K f i s ((freezeWith force j).leaves s) := by
  refine ⟨freezeWith_leads computing_computes (fun c _ s _ => (hforce c s).follows) hresult j s, ?_⟩
  rcases frozen_plain_or_pending s j with him | ⟨him, hv | ⟨hv, c, hd⟩⟩
  · rw [leaves_ok (freezeWith_frozen him)]
    exact Or.inl rfl
  · rw [leaves_ok (freezeWith_plain him hv), slot_modifySlot_ne hij]
    exact Or.inl rfl
  · have hrun : freezeWith force j s = _ := freezeWith_pending him hv hd
    have hslot := (hforce c s).slot
    cases hr : force c s with
    | ok v s' =>
      rw [hr] at hrun
      rw [leaves_ok hr] at hslot
      rw [leaves_ok hrun, slot_modifySlot_ne hij]
      exact hslot
    | error e s' =>
      rw [hr] at hrun
      rw [leaves_error hr] at hslot
      rwa [leaves_error hrun]

include hK

/-- A deed that is not one of these to this slot. -/
theorem performWith_passes {e : Effect}
    (he : ¬ (K e.deed ∧ s.handles.get? e.handle = some i)) :
    Passes K f i s ((performWith force e).leaves s) := by
  refine ⟨performWith_leads computing_computes (fun c _ s _ => (hforce c s).follows) hresult e s,
    ?_⟩
  cases hj : s.handles.get? e.handle with
  | none => exact Or.inl (by simp [leaves, performWith, hj])
  | some j =>
    -- the handle stands for the attribute itself, so the deed is not one of those that are
    -- excluded
    by_cases hij : j = i
    · subst hij
      obtain ⟨hdeed, hf⟩ := (hK e.deed).resolve_left fun hK => he ⟨hK, hj⟩
      refine Or.inl ?_
      simp only [leaves, performWith, bind_apply, get_apply, hj, hdeed, addReference, modify_apply]
      rw [slot_modifySlot]
      split_ifs
      · exact hf _ _
      · rfl
    · -- the handle stands for another slot, and every deed is the matter of its slot
      cases hdeed : e.deed with
      | setValue v =>
        exact Or.inl (by simp [leaves, performWith, hj, hdeed, slot_modifySlot_ne hij])
      | freeze =>
        have hleaves : (performWith force e).leaves s = (freezeWith force j).leaves s := by
          simp [leaves, performWith, hj, hdeed]
        rw [hleaves]
        exact (freezeWith_passes hforce hresult hij s).slot
      | addReference =>
        exact Or.inl (by
          simp [leaves, performWith, addReference, hj, hdeed, slot_modifySlot_ne hij])
      | removeReference =>
        have hleaves : (performWith force e).leaves s = (removeReference j).leaves s := by
          simp only [leaves, performWith, bind_apply, get_apply, hj, hdeed, discard_apply]
          cases removeReference j s <;> rfl
        rw [hleaves, (removeReference_around j s).others i (Ne.symm hij)]
        exact Or.inl rfl

/-- The deeds of a computation pass on one side of an attribute if none of them is excluded,
by induction on the deeds. -/
theorem performEach_passes (es : List Effect) : ∀ s : Store,
    (∀ e ∈ es, ¬ (K e.deed ∧ s.handles.get? e.handle = some i)) →
      Passes K f i s ((es.forM (performWith force)).leaves s) := by
  induction es with
  | nil => exact fun s _ => ⟨.refl s, Or.inl rfl⟩
  | cons e es ih =>
    intro s hes
    have hfirst := performWith_passes hK hforce hresult (hes e List.mem_cons_self)
    unfold leaves at hfirst ⊢
    rw [forM_cons]
    cases hr : performWith force e s with
    | error _ s' =>
      rw [hr] at hfirst
      exact hfirst
    | ok _ s' =>
      rw [hr] at hfirst
      refine hfirst.trans (ih s' fun e' he' => ?_)
      rw [hfirst.follows.unmoved.handles]
      exact hes e' (List.mem_cons_of_mem e he')

omit hforce hresult

/-- **A computation leaves the attribute alone,** but for the deeds that deferred
values do to it.  The induction is on the levels of deferred values below. -/
theorem forceWithin_passes (n : Nat) :
    ∀ c s, Passes K f i s ((forceWithin n c).leaves s) := by
  induction n with
  | zero => exact fun c s => ⟨.refl s, Or.inl rfl⟩
  | succ n ih =>
    intro c s
    refine ⟨forceWithin_computes (n + 1) c s, ?_⟩
    cases hp : (s.cell c).progress with
    | finished v => exact Or.inl (by simp [leaves, forceWithin, hp])
    | running => exact Or.inl (by simp [leaves, forceWithin, hp])
    | pending =>
      rcases forceWithin_course (n := n) hp with hsame | ⟨s₂, hs₂, hend⟩
      · exact Or.inl (by rw [hsame])
      set s₁ := s.modifyCell c Cell.begin with hs₁
      have hlast : Passes K f i s₂ ((forceWithin (n + 1) c).leaves s) := by
        revert hend
        generalize (forceWithin (n + 1) c).leaves s = s₃
        rintro (ho | ho)
        · exact ⟨.of_occurs (e := .finished c) trivial ho, Or.inl (by cases ho; rfl)⟩
        · exact ⟨.of_occurs (e := .abandoned c) trivial ho, Or.inl (by cases ho; rfl)⟩
      have hdeeds : Follows Incident.Computes s₁ s₂ := hs₂ ▸ leads_forM
        (performWith_leads computing_computes (fun c _ s _ => forceWithin_computes n c s)
          fun _ _ _ _ h => forceWithin_result h) _ s₁
      by_cases hany : ∃ e ∈ (s.cell c).effects, K e.deed ∧ s.handles.get? e.handle = some i
      · -- it is this deferred value that meddles
        refine Or.inr ⟨c, ?_, hany⟩
        have hc : c < s.cells.size := by
          obtain ⟨e, he, -⟩ := hany
          by_contra hc
          rw [cell_of_size_le (not_lt.1 hc)] at he
          cases he
        have hbegun : (s₁.cell c).calls = (s.cell c).calls + 1 := by
          rw [hs₁, cell_modifyCell, if_pos ⟨rfl, hc⟩]
          rfl
        have hcalls := (hdeeds.trans hlast.follows).unmoved.calls c
        omega
      · have hfirst : Passes K f i s s₁ :=
          ⟨.of_occurs (e := .begun c none) trivial (.asked hp), Or.inl rfl⟩
        have heach : Passes K f i s₁ s₂ := hs₂ ▸ performEach_passes hK ih
          (fun _ _ _ _ h => forceWithin_result h) _ s₁ fun e he h => hany ⟨e, he, h⟩
        exact ((hfirst.trans heach).trans hlast).slot

/-- Computing a deferred value passes on this side, unless a value that is begun meddles
with it. -/
theorem force_passes (c : CellId) (s : Store) : Passes K f i s ((Trace.force c).leaves s) :=
  forceWithin_passes hK (s.cells.size + 1) c s

/-- Freezing another attribute passes on it likewise. -/
theorem freezeAttribute_passes (hji : j ≠ i) (s : Store) :
    Passes K f i s ((freezeAttribute j).leaves s) :=
  freezeWith_passes (force_passes hK) (fun _ _ _ _ h => force_result h) hji s

end Passes

/-- What an attribute is outlasts a computation in which no deferred value writes,
freezes or gives up a reference on it. -/
theorem force_bare {c : CellId} {v : Option Value} (hr : Trace.force c s = .ok v s')
    (hi : ¬ Meddles Deed.Alters i s s') : (s'.slot i).bare = (s.slot i).bare := by
  have hpasses := force_passes (f := Slot.bare) (i := i) (K := Deed.Alters) (fun deed => by
    cases deed with
    | addReference => exact Or.inr ⟨rfl, fun _ _ => rfl⟩
    | setValue | freeze | removeReference => exact Or.inl trivial) c s
  rw [leaves_ok hr] at hpasses
  exact hpasses.slot.resolve_right hi

/-! ### Two attributes -/

/-- Whatever is done to slot `j` leaves slot `i` alone, unless a deferred value that a
freeze asks for works on it. -/
structure Aloof (i j : SlotId) (s : Store) : Prop where
  setValue : ∀ v, (s.modifySlot j (Slot.setValue v)).slot i = s.slot i
  setDeferred : ∀ c, (s.modifySlot j (Slot.setDeferred c)).slot i = s.slot i
  freeze : ((freezeAttribute j).leaves s).slot i = s.slot i ∨
    Meddles (fun _ => True) i s ((freezeAttribute j).leaves s)
  addReference : ((addReference j).leaves s).slot i = s.slot i
  removeReference : ((removeReference j).leaves s).slot i = s.slot i

/-- **Two slots do not depend on each other.** -/
theorem aloof (hij : i ≠ j) (s : Store) : Aloof i j s where
  setValue _ := slot_modifySlot_ne hij.symm _
  setDeferred _ := slot_modifySlot_ne hij.symm _
  freeze := (freezeAttribute_passes (f := id) (fun _ => Or.inl trivial) hij.symm s).slot
  addReference := slot_modifySlot_ne hij.symm _
  removeReference := (removeReference_around j s).others i hij

/-- Two attributes of which one is a copy of the other. -/
structure Twins (x y : SlotId) (s : Store) : Prop where
  left : (s.slot x).definition ≠ none
  right : (s.slot y).definition ≠ none
  value : (s.slot y).value = (s.slot x).value
  deferred : (s.slot x).value = none → (s.slot y).deferred = (s.slot x).deferred
  backed_left : (s.slot x).Backed s
  backed_right : (s.slot y).Backed s

/-- Of two twins either may be called the copy. -/
theorem Twins.symm (h : Twins x y s) : Twins y x s :=
  ⟨h.right, h.left, h.value.symm, fun hv => (h.deferred (h.value ▸ hv)).symm, h.backed_right,
    h.backed_left⟩

/-- They are twins as long as neither is written. -/
theorem Twins.follows {A : Incident → Prop} (h : Twins x y s) (hm : Follows A s m)
    (hx : (m.slot x).bare = (s.slot x).bare) (hy : (m.slot y).bare = (s.slot y).bare) :
    Twins x y m := by
  have hbacked : ∀ {a : Slot}, a.Backed s → a.Backed m := fun ha =>
    ha.mono hm.size_le fun _ h => hm.finished_stays h
  refine ⟨?_, ?_, ?_, ?_, (hbacked h.backed_left).of_bare hx, (hbacked h.backed_right).of_bare hy⟩
  · rw [Slot.definition_of_bare hx]
    exact h.left
  · rw [Slot.definition_of_bare hy]
    exact h.right
  · rw [Slot.value_of_bare hx, Slot.value_of_bare hy]
    exact h.value
  · rw [Slot.value_of_bare hx, Slot.deferred_of_bare hx, Slot.deferred_of_bare hy]
    exact h.deferred

/-- Slot `x` was frozen first, from `s` to `s₁`, and `y` is frozen in `m`. -/
structure Agreed (x y : SlotId) (s s₁ m s₂ : Store) : Prop where
  run : freezeAttribute y m = .ok () s₂
  /-- The second freeze computes nothing. -/
  cells : s₂.cells = m.cells
  /-- What the two carry is computed once at most. -/
  once : ∀ c, (s.slot x).value = none → (s.slot x).deferred = some c →
    (s₂.cell c).calls ≤ (s.cell c).calls + 1
  /-- Both are frozen with one value, unless the first freeze has a deferred value work
  on one of them. -/
  same : ((s₂.slot x).immutable = true ∧ (s₂.slot y).immutable = true ∧
      (s₂.slot x).value = (s₂.slot y).value) ∨
    Meddles Deed.Alters x s s₁ ∨ Meddles Deed.Alters y s s₁

/-- A freeze that finds computed what it asks for, or asks for nothing. -/
theorem freeze_settled {v : Option Value} (hv : ∀ c, (s.slot i).Wants c →
      (s.cell c).isFinished = true ∧ (s.cell c).result? = v) :
    ∃ w, freezeAttribute i s = .ok () (s.modifySlot i (Slot.freeze w)) ∧
      (w = v ∨ (∀ c, ¬ (s.slot i).Wants c) ∧ w = none) := by
  by_cases hw : ∃ c, (s.slot i).Wants c
  · obtain ⟨c, hw⟩ := hw
    obtain ⟨hfinished, hresult⟩ := hv c hw
    have hrun : freezeWith force i s = _ := freezeWith_pending hw.mutable hw.unvalued hw.deferred
    rw [force_finished hfinished, hresult] at hrun
    exact ⟨v, hrun, Or.inl rfl⟩
  · have hnone : ∀ c, ¬ (s.slot i).Wants c := fun c h => hw ⟨c, h⟩
    exact ⟨none, (shared s).plain i hnone, Or.inr ⟨hnone, rfl⟩⟩

/-- The later freeze leaves both frozen, with what the earlier one made of `x`. -/
theorem frozen_alike {a : Slot} {v w : Option Value} (hxy : x ≠ y)
    (hx : (m.slot x).bare = (a.freeze v).bare) (hy : (m.slot y).definition ≠ none)
    (hvalue : (a.freeze v).value = ((m.slot y).freeze w).value) :
    ((m.modifySlot y (Slot.freeze w)).slot x).immutable = true ∧
      ((m.modifySlot y (Slot.freeze w)).slot y).immutable = true ∧
      ((m.modifySlot y (Slot.freeze w)).slot x).value =
        ((m.modifySlot y (Slot.freeze w)).slot y).value := by
  rw [slot_modifySlot_ne hxy.symm, slot_modifySlot_self (lt_size_of_definition hy),
    Slot.immutable_of_bare hx, Slot.value_of_bare hx]
  exact ⟨Slot.immutable_freeze _ _, Slot.immutable_freeze _ _, hvalue⟩

/-- The other one of two twins comes to the result that the first one asked for, also if
it was frozen before: then the deferred value had come to nothing. -/
theorem Twins.value_right {m₀ : Store} {c : CellId} {w : Option Value} (h : Twins x y s)
    (hw : (s.slot x).Wants c) (hleads : Follows Incident.Computes s m₀)
    (hy : (m.slot y).bare = (s.slot y).bare)
    (hwants : w = (m₀.cell c).result? ∨ (∀ d, ¬ (m.slot y).Wants d) ∧ w = none) :
    ((m.slot y).freeze w).value = (m₀.cell c).result? := by
  have hv : (m.slot y).value = none := by
    rw [Slot.value_of_bare hy, h.value, hw.unvalued]
  have hd : (s.slot y).deferred = some c := by rw [h.deferred hw.unvalued, hw.deferred]
  cases him : (m.slot y).immutable with
  | false =>
    have hwants' : (m.slot y).Wants c := ⟨him, hv, (Slot.deferred_of_bare hy).trans hd⟩
    rw [Slot.value_freeze him, hv, Option.none_or,
      hwants.resolve_right fun hn => hn.1 c hwants']
  | true =>
    have hp := (h.backed_right c hd).2 ((Slot.immutable_of_bare hy).symm.trans him)
      ((Slot.value_of_bare hy).symm.trans hv)
    rw [Slot.freeze, if_pos him, hv, hleads.finished_stays (by rw [Cell.isFinished, hp]),
      Cell.result?, hp]

section Twins

variable {s₁ : Store} (h : Twins x y s) (hxy : x ≠ y) (hr : freezeAttribute x s = .ok () s₁)
  (hm : Follows (fun _ => True) s₁ m) (hx : (m.slot x).bare = (s₁.slot x).bare)
  (hy : (m.slot y).bare = (s₁.slot y).bare)
include h hxy hr hm hx hy

/-- The first freeze asks for nothing, and so what the two carry came to nothing
before, or they have a value. -/
theorem Twins.agreed_plain (hw : ∀ c, ¬ (s.slot x).Wants c) : ∃ s₂, Agreed x y s s₁ m s₂ := by
  rw [(shared s).plain x hw] at hr
  cases hr
  rw [slot_modifySlot_self (lt_size_of_definition h.left)] at hx
  rw [slot_modifySlot_ne hxy] at hy
  -- nothing was wanted, so a deferred value that the attributes carry came to nothing
  -- already
  have hspent : ∀ c, (s.slot x).value = none → (s.slot x).deferred = some c →
      (s.cell c).progress = .finished none := by
    intro c hv hc
    refine (h.backed_left c hc).2 ?_ hv
    by_contra him
    exact hw c ⟨Bool.eq_false_iff.2 him, hv, hc⟩
  -- and it stays so until the other one is frozen
  have hcell : ∀ c, (s.cell c).progress = .finished none → m.cell c = s.cell c := fun c hp =>
    hm.finished_stays (s := s.modifySlot x _)
      (show (s.cell c).isFinished = true by rw [Cell.isFinished, hp])
  obtain ⟨w, hrun, hnone⟩ := freeze_settled (s := m) (i := y) (v := none) fun c hc => by
    have hv : (s.slot x).value = none := by
      rw [← h.value, ← Slot.value_of_bare hy]
      exact hc.unvalued
    have hp := hspent c hv (by rw [← h.deferred hv, ← Slot.deferred_of_bare hy]; exact hc.deferred)
    rw [hcell c hp, Cell.isFinished, Cell.result?, hp]
    exact ⟨rfl, rfl⟩
  obtain rfl : w = none := hnone.elim id And.right
  refine ⟨_, hrun, rfl, fun c hv hc => ?_, Or.inl (frozen_alike hxy hx ?_ ?_)⟩
  · have hcalls : (m.cell c).calls = (s.cell c).calls := by rw [hcell c (hspent c hv hc)]
    exact hcalls.le.trans (Nat.le_succ _)
  · rw [Slot.definition_of_bare hy]
    exact h.right
  · rw [Slot.value_freeze_none, Slot.value_freeze_none, Slot.value_of_bare hy, h.value]

/-- The first freeze asks for a deferred value, and the second one finds it
computed. -/
theorem Twins.agreed_asked (ht : Tidy s) {c : CellId} (hw : (s.slot x).Wants c) :
    ∃ s₂, Agreed x y s s₁ m s₂ := by
  obtain ⟨m₀, hforce, rfl⟩ := (shared s).frozen x c s₁ hw hr
  have hleads : Follows Incident.Computes s m₀ := (force_computes c s).of_ok hforce
  have hfares := (force_forces c s).ok _ _ hforce
  have hfinished : (m₀.cell c).isFinished = true :=
    (force_result hforce).2 (hfares.size ▸ (h.backed_left c hw.deferred).1)
  have hcell : m.cell c = m₀.cell c := hm.finished_stays (s := m₀.modifySlot x _) hfinished
  rw [slot_modifySlot_ne hxy] at hy
  -- a computation gives the other attribute nothing else to carry
  have hcarried : ∀ d, (m.slot y).Wants d → d = c := by
    intro d hd
    have hdeferred := hd.deferred
    rw [Slot.deferred_of_bare hy] at hdeferred
    rcases hleads.deferred ht y with hnone | hsame
    · rw [hnone] at hdeferred
      cases hdeferred
    · rw [hsame, h.deferred hw.unvalued, hw.deferred] at hdeferred
      exact (Option.some.inj hdeferred).symm
  obtain ⟨w, hrun, hwants⟩ := freeze_settled (s := m) (i := y) (v := (m₀.cell c).result?)
    fun d hd => by
      rw [hcarried d hd, hcell]
      exact ⟨hfinished, rfl⟩
  refine ⟨_, hrun, rfl, fun d _ hd => ?_, ?_⟩
  · obtain rfl : d = c := Option.some.inj (hd.symm.trans hw.deferred)
    have hcalls : (m.cell d).calls = (m₀.cell d).calls := by rw [hcell]
    exact hcalls.le.trans (hfares.cells d).calls_le_succ
  · by_cases hmx : Meddles Deed.Alters x s m₀
    · exact Or.inr (Or.inl hmx)
    by_cases hmy : Meddles Deed.Alters y s m₀
    · exact Or.inr (Or.inr hmy)
    -- otherwise both are as before when the result comes
    have hbx := force_bare hforce hmx
    have hby := hy.trans (force_bare hforce hmy)
    rw [slot_modifySlot_self (lt_size_of_definition (by
      rw [Slot.definition_of_bare hbx]
      exact h.left))] at hx
    refine Or.inl (frozen_alike hxy hx ?_ ?_)
    · rw [Slot.definition_of_bare hby]
      exact h.right
    · rw [h.value_right hw hleads hby hwants,
        Slot.value_freeze ((Slot.immutable_of_bare hbx).trans hw.mutable),
        Slot.value_of_bare hbx, hw.unvalued, Option.none_or]

end Twins

/-- **Frozen one after the other, twins come to one value.** -/
theorem Twins.agreed {s₁ : Store} (h : Twins x y s) (ht : Tidy s) (hxy : x ≠ y)
    (hr : freezeAttribute x s = .ok () s₁) (hm : Follows (fun _ => True) s₁ m)
    (hx : (m.slot x).bare = (s₁.slot x).bare) (hy : (m.slot y).bare = (s₁.slot y).bare) :
    ∃ s₂, Agreed x y s s₁ m s₂ := by
  by_cases hw : ∃ c, (s.slot x).Wants c
  · obtain ⟨c, hw⟩ := hw
    exact h.agreed_asked hxy hr hm hx hy ht hw
  · exact h.agreed_plain hxy hr hm hx hy fun c hc => hw ⟨c, hc⟩

/-- A deferred value that works on no attributes can be asked for, unless it is being
computed at that moment. -/
theorem force_effectless {c : CellId} (heffects : (s.cell c).effects = [])
    (hp : (s.cell c).progress ≠ .running) : ∃ v s', force c s = .ok v s' := by
  cases hc : (s.cell c).progress with
  | finished v => exact ⟨_, s, force_finished (by rw [Cell.isFinished, hc])⟩
  | running => exact absurd hc hp
  | pending =>
    have hrun := forceWithin_pending (n := s.cells.size) hc
    rw [heffects, forM_nil] at hrun
    exact ⟨_, _, hrun⟩

/-- What becomes of two attributes of which `x` is frozen first and `y` later. -/
structure Agree (x y : SlotId) (s : Store) : Prop where
  /-- The first freeze ends, unless the deferred value that it asks for works on
  attributes, or is being computed at that moment, and is broken off. -/
  ends : (∃ s₁, freezeAttribute x s = .ok () s₁) ∨
    ∃ c e s₁, (s.slot x).Wants c ∧ force c s = .error e s₁ ∧
      ((s.cell c).effects ≠ [] ∨ (s.cell c).progress = .running)
  /-- Then so does the second one, whatever happens in between but that one of the two
  attributes is written or released, and they agree. -/
  agreed : ∀ s₁, freezeAttribute x s = .ok () s₁ → ∀ m, Follows (fun _ => True) s₁ m →
    (m.slot x).bare = (s₁.slot x).bare → (m.slot y).bare = (s₁.slot y).bare →
      ∃ s₂, Agreed x y s s₁ m s₂

/-- Twins agree if `x` is frozen first, as far as the deferred value that they share leaves
both alone. -/
theorem Twins.agree (h : Twins x y s) (ht : Tidy s) (hxy : x ≠ y) : Agree x y s where
  ends := by
    by_cases hw : ∃ c, (s.slot x).Wants c
    · obtain ⟨c, hw⟩ := hw
      have hrun : freezeWith force x s = _ := freezeWith_pending hw.mutable hw.unvalued hw.deferred
      cases hr : force c s with
      | ok v s' =>
        rw [hr] at hrun
        exact Or.inl ⟨_, hrun⟩
      | error e s' =>
        refine Or.inr ⟨c, e, s', hw, hr, ?_⟩
        by_contra hnone
        obtain ⟨heffects, hp⟩ := not_or.1 hnone
        obtain ⟨v, s'', hforce⟩ := force_effectless (not_not.1 heffects) hp
        rw [hr] at hforce
        cases hforce
    · exact Or.inl ⟨_, (shared s).plain x fun c hc => hw ⟨c, hc⟩⟩
  agreed _ hr _ hm hx hy := h.agreed ht hxy hr hm hx hy

/-! ### Making a copy -/

/-- Slot `j` has a copy of the attribute in slot `i`: one that can be written, and on
which there are no references. -/
structure Copied (p : SetId) (i j : SlotId) (s s' : Store) : Prop where
  other : j ≠ i
  free : (s.slot j).definition = none
  copy : s'.slot j =
    { definition := (s.slot i).definition
      value := (s.slot i).value
      deferred := if (s.slot i).value.isSome then none else (s.slot i).deferred
      home := some p }
  others : ∀ k, k ≠ j → s'.slot k = s.slot k
  only : OnlySlots s s'

/-- A free slot has no copy, and nothing is taken from the pool. -/
theorem copyAttribute_free (p : SetId) (hi : (s.slot i).definition = none) :
    copyAttribute p i s = .ok none s := by
  simp only [copyAttribute, bind_apply, get_apply, hi, pure_apply]

/-- A copy is made in a slot of its own, and nothing else is different. -/
theorem copyAttribute_copies (ht : Tidy s) (p : SetId) {d : Definition}
    (hi : (s.slot i).definition = some d) :
    ∃ j s', copyAttribute p i s = .ok (some j) s' ∧ Tidy s' ∧ Copied p i j s s' := by
  obtain ⟨j, s₁, hmade, ht₁, honly, hself, hfree, hothers⟩ := createAttribute_tidy ht p d
  have hthere : j < s₁.slots.size := by
    refine lt_size_of_definition ?_
    rw [hself]
    exact Option.some_ne_none d
  -- what is written besides the value is not there yet
  refine ⟨j, s₁.modifySlot j fun slot =>
    { slot with
      value := (s.slot i).value
      deferred := if (s.slot i).value.isSome then none else (s.slot i).deferred },
    ?_, ht₁.modifySlot_alike fun _ => ⟨rfl, rfl, rfl⟩, ?_, hfree, ?_, fun k hk => ?_, ?_⟩
  · simp only [copyAttribute, bind_apply, get_apply, hi, hmade, modify_apply, pure_apply]
    refine congrArg (EStateM.Result.ok (some j)) (modifySlot_congr ?_)
    rw [hself]
    cases (s.slot i).value <;> rfl
  · rintro rfl
    rw [hi] at hfree
    cases hfree
  · rw [slot_modifySlot_self hthere, hself, hi]
  · rw [slot_modifySlot_ne hk.symm, hothers k hk]
  · exact honly.trans ⟨rfl, fun _ => rfl, rfl, rfl⟩

/-- A fresh copy and its original are twins. -/
theorem Copied.twins {p : SetId} (h : Copied p i j s s') (hs : Backed s)
    (hi : (s.slot i).definition ≠ none) : Twins i j s' := by
  have hslot : s'.slot i = s.slot i := h.others i h.other.symm
  have hbacked : ∀ {a : Slot}, a.Backed s → a.Backed s' := fun ha =>
    ha.mono (by rw [h.only.cells]) fun x _ => by rw [cell, cell, h.only.cells]
  refine ⟨by rwa [hslot], by rwa [h.copy], by rw [h.copy, hslot], fun hv => ?_,
    by rw [hslot]; exact hbacked (hs.backed i), fun c hc => ⟨?_, ?_⟩⟩
  · rw [hslot] at hv ⊢
    rw [h.copy, hv]
    rfl
  · rw [h.copy] at hc
    dsimp only at hc
    split_ifs at hc
    exact (hbacked (hs.backed i) c hc).1
  · rw [h.copy]
    exact fun him => absurd him Bool.false_ne_true

end Store

namespace Tracer

open Store

/-- **A copy is faithful and independent.**  After any commands, a free slot has no
copy and the store stays as it is.  An attribute has one, in another slot.  As long as
neither of the two is written, freezing both in either order gives them one value, and
what they carry is computed once at most.  And whatever is done to one of them at any
later time leaves the other alone, unless a deferred value does it. -/
theorem run_copies (cs : List Command) (p : SetId) (i : SlotId) :
    let s := (({} : Tracer).run cs).2.store
    ((s.slot i).definition = none → copyAttribute p i s = .ok none s) ∧
      ((s.slot i).definition ≠ none → ∃ j s', copyAttribute p i s = .ok (some j) s' ∧
        Copied p i j s s' ∧
        (∀ m, Follows (fun _ => True) s' m → (m.slot i).bare = (s'.slot i).bare →
          (m.slot j).bare = (s'.slot j).bare → Agree i j m ∧ Agree j i m) ∧
        ∀ m, Aloof i j m ∧ Aloof j i m) := by
  intro s
  have hs : s.Backed := (backed_empty.run cs).store
  refine ⟨copyAttribute_free p, fun hi => ?_⟩
  obtain ⟨d, hd⟩ := Option.ne_none_iff_exists'.1 hi
  obtain ⟨j, s', hrun, ht, hcopied⟩ := copyAttribute_copies hs.toTidy p hd
  refine ⟨j, s', hrun, hcopied, fun m hm hmi hmj => ?_,
    fun m => ⟨aloof hcopied.other.symm m, aloof hcopied.other m⟩⟩
  have htwins : Twins i j m := (hcopied.twins hs hi).follows hm hmi hmj
  exact ⟨htwins.agree (hm.tidy ht) hcopied.other.symm, htwins.symm.agree (hm.tidy ht) hcopied.other⟩

/-- An attribute that carries a deferred value; computing it does some deeds besides. -/
def carrying (effects : List Effect) : List Command :=
  [.setUp "p" .small .small, .create "p" "a" { name := "k", category := .user },
    .defer "l" (some (.text "v")) effects, .setDeferred "a" "l"]

/-- With one that does none, the attribute and its copy agree in either order. -/
theorem copies_carrying :
    let s := (({} : Tracer).run (carrying [])).2.store
    (s.slot 0).definition ≠ none ∧ ∃ j s', copyAttribute 0 0 s = .ok (some j) s' ∧
      Copied 0 0 j s s' ∧ Agree 0 j s' ∧ Agree j 0 s' := by
  intro s
  have hbound : (s.slot 0).definition ≠ none := nofun
  obtain ⟨j, s', hrun, hcopied, hagree, -⟩ := (run_copies (carrying []) 0 0).2 hbound
  exact ⟨hbound, j, s', hrun, hcopied, hagree s' (.refl s') rfl rfl⟩

/-- One that writes the attribute does so when the copy is frozen, and the two come to
different values. -/
theorem values_carrying :
    let t := (({} : Tracer).run (carrying [⟨"a", .setValue (.text "x")⟩])).2
    let u := (t.step (.copy "p" "b" "a")).2
    let v := (u.step (.freezeAttribute "b")).2
    let w := (v.step (.freezeAttribute "a")).2
    u.slot? "a" = some 0 ∧ u.slot? "b" = some 1 ∧ (u.store.slot 0).value = none ∧
      (v.store.slot 0).value = some (.text "x") ∧ (w.store.slot 0).value = some (.text "x") ∧
        (w.store.slot 1).value = some (.text "v") := by
  decide +kernel

end Tracer
end Telemetry
