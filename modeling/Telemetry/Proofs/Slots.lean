/-
# Slots and the references on them

`Counted s D` says of a store that the references on its slots are those of a
multiset `D`, no more and no less, that no referenced slot is free, and that
what the pools hold are free slots, each once and at home.  Who holds the
references is left open here: `D` is the demand that the maps of the records
and all others make together.

Every operation on attributes takes a demand to a demand.  Making an attribute
changes nothing in it (`createAttribute_counted`); a new reference adds its
slot (`addReference_counted`); giving one up takes the slot out, never fails,
and leaves alone what is still demanded (`removeReference_counted`).
-/

import Telemetry.Proofs.Tidy

namespace Telemetry

open Trace

namespace Trace

/-- A write: the attribute stays the same one, and a frozen one stays as it
is. -/
structure Slot.Writes (a b : Slot) : Prop where
  definition : b.definition = a.definition
  references : b.references = a.references
  home : b.home = a.home
  marked : b.marked = a.marked
  frozen : a.immutable = true → b = a

/-- A slot on which a reference less is held. -/
def Slot.unreferred (a : Slot) : Slot := { a with references := a.references - 1 }

namespace Slot

/-- Pools see no difference when an attribute is written. -/
theorem Writes.alike {a b : Slot} (h : Writes a b) : Alike a b := ⟨h.definition, h.home, h.marked⟩

/-- Writing nothing is a write. -/
theorem writes_refl (a : Slot) : Writes a a := ⟨rfl, rfl, rfl, rfl, fun _ => rfl⟩

/-- Writing a value is a write, which a frozen attribute refuses. -/
theorem setValue_writes (v : Value) (a : Slot) : Writes a (a.setValue v) := by
  unfold setValue
  split_ifs with h
  · exact writes_refl a
  · exact ⟨rfl, rfl, rfl, rfl, fun ha => absurd ha h⟩

/-- Writing a deferred value is a write, which a frozen attribute refuses. -/
theorem setDeferred_writes (c : CellId) (a : Slot) : Writes a (a.setDeferred c) := by
  unfold setDeferred
  split_ifs with h
  · exact writes_refl a
  · exact ⟨rfl, rfl, rfl, rfl, fun ha => absurd ha h⟩

end Slot
end Trace

namespace Store

/-- The references on the slots are those of the demand `D`, and the pools hold
free slots only. -/
structure Counted (s : Store) (D : Multiset SlotId) : Prop where
  references : ∀ i, (s.slot i).references = D.count i
  bound : ∀ i ∈ D, (s.slot i).definition ≠ none
  unmarked : ∀ i, (s.slot i).definition ≠ none → (s.slot i).marked = false
  stored : ∀ p, ∀ i ∈ (s.set p).slots.stored,
    (s.slot i).definition = none ∧ (s.slot i).marked = true ∧ (s.slot i).home = some p
  once : ∀ p, (s.set p).slots.stored.Nodup

variable {s s' : Store} {D : Multiset SlotId} {i : SlotId} {p : SetId}

/-- Where references are counted the pools are in order. -/
theorem Counted.tidy (h : Counted s D) : Tidy s := ⟨h.unmarked, h.stored, h.once⟩

/-- Pools in order and references that agree with the demand are all there is to counting. -/
theorem Tidy.counted (h : Tidy s) (href : ∀ i, (s.slot i).references = D.count i)
    (hbound : ∀ i ∈ D, (s.slot i).definition ≠ none) : Counted s D :=
  ⟨href, hbound, h.unmarked, h.stored, h.once⟩

namespace Counted

/-- Nobody demands a slot without attribute. -/
theorem not_mem (h : Counted s D) (hi : (s.slot i).definition = none) : i ∉ D :=
  fun hD => h.bound i hD hi

/-- Equal demands are counted alike. -/
theorem congr (h : Counted s D) {D' : Multiset SlotId} (hD : D = D') : Counted s D' := hD ▸ h

/-- Slots may be written, and the pools may lose what they hold. -/
theorem of_alike (h : Counted s D) (hslot : ∀ j, (s.slot j).Alike (s'.slot j))
    (href : ∀ j, (s'.slot j).references = (s.slot j).references)
    (hstock : ∀ p, (s'.set p).slots.stored.Sublist (s.set p).slots.stored) : Counted s' D := by
  refine (h.tidy.of_alike hslot hstock).counted (fun j => (href j).trans (h.references j))
    fun j hj => ?_
  rw [(hslot j).definition]
  exact h.bound j hj

/-- The pools may lose what they hold. -/
theorem of_stock (h : Counted s D) (hs : s'.slots = s.slots)
    (hp : ∀ p, (s'.set p).slots.stored.Sublist (s.set p).slots.stored) : Counted s' D := by
  have hslot : ∀ j, s'.slot j = s.slot j := fun j => by simp only [slot, hs]
  refine h.of_alike (fun j => ?_) (fun j => by rw [hslot]) hp
  rw [hslot]
  exact Slot.alike_refl _

/-- Changes of records alone change no count of the slots. -/
theorem of_onlyRecords (h : Counted s D) (hs : OnlyRecords s s') : Counted s' D :=
  h.of_stock hs.slots fun p => by rw [hs.stock p]

/-- Slots may be written. -/
theorem of_writes (h : Counted s D) (hw : ∀ j, (s.slot j).Writes (s'.slot j))
    (hp : ∀ p, (s'.set p).slots.stored = (s.set p).slots.stored) : Counted s' D :=
  h.of_alike (fun j => (hw j).alike) (fun j => (hw j).references) fun p => by rw [hp]

/-- One slot may change, with the demand for it. -/
theorem of_slot (h : Counted s D) {D' : Multiset SlotId} (ht : Tidy s')
    (hcount : (s'.slot i).references = D'.count i)
    (hbound : i ∈ D' → (s'.slot i).definition ≠ none)
    (hslots : ∀ j, j ≠ i → s'.slot j = s.slot j) (hrest : ∀ j, j ≠ i → D'.count j = D.count j) :
    Counted s' D' := by
  refine ht.counted (fun j => ?_) fun j hj => ?_
  · rcases eq_or_ne j i with rfl | hne
    · exact hcount
    · rw [hslots j hne, h.references, hrest j hne]
  · rcases eq_or_ne j i with rfl | hne
    · exact hbound hj
    · rw [hslots j hne]
      refine h.bound j (Multiset.count_pos.1 ?_)
      rw [← hrest j hne]
      exact Multiset.count_pos.2 hj

end Counted

/-- **An attribute can always be made.**  Nobody refers to it. -/
theorem createAttribute_counted (h : Counted s D) (p : SetId) (d : Definition) :
    ∃ i s', createAttribute p d s = .ok i s' ∧ Counted s' D ∧ OnlySlots s s' ∧
      s'.slot i = { definition := some d, home := some p } ∧ (s.slot i).definition = none ∧
      ∀ j, j ≠ i → s'.slot j = s.slot j := by
  obtain ⟨i, s', hrun, ht, honly, hself, hfree, hrest⟩ := createAttribute_tidy h.tidy p d
  have hD : i ∉ D := h.not_mem hfree
  refine ⟨i, s', hrun, h.of_slot ht ?_ (fun hi => absurd hi hD) hrest fun _ _ => rfl, honly, hself,
    hfree, hrest⟩
  rw [hself]
  exact (Multiset.count_eq_zero.2 hD).symm

/-! ### References -/

/-- **How a reference is given up.**  Where there is none nothing changes. -/
theorem removeReference_apply (i : SlotId) (s : Store) : removeReference i s =
    if (s.slot i).references = 1 then
      match releaseSlot i (s.modifySlot i Slot.unreferred) with
      | .ok _ s => .ok true s
      | .error e s => .error e s
    else .ok false (s.modifySlot i Slot.unreferred) := by
  simp only [removeReference, Action.bind_apply, Action.get_apply]
  rcases hn : (s.slot i).references with _ | _ | n
  · have hsame : s.modifySlot i Slot.unreferred = s :=
      modifySlot_self (by rw [Slot.unreferred, hn, Nat.zero_sub, ← hn])
    simp [hsame]
  · have hdrop : (s.modifySlot i fun slot => { slot with references := 0 }) =
        s.modifySlot i Slot.unreferred := modifySlot_congr (by simp [Slot.unreferred, hn])
    simp only [zero_add, one_ne_zero, if_false, if_true, Nat.sub_self, Action.bind_apply,
      Action.modify_apply, Action.pure_apply, hdrop]
    cases releaseSlot i (s.modifySlot i Slot.unreferred) <;> rfl
  · have hdrop : (s.modifySlot i fun slot => { slot with references := n + 1 }) =
        s.modifySlot i Slot.unreferred := modifySlot_congr (by simp [Slot.unreferred, hn])
    simp [hdrop]

/-- **A reference on an attribute adds to the demand.** -/
theorem addReference_counted (h : Counted s D) (hi : (s.slot i).definition ≠ none) :
    ∃ s', addReference i s = .ok () s' ∧ Counted s' (i ::ₘ D) ∧ OnlySlots s s' ∧
      (s'.slot i).bare = (s.slot i).bare ∧ ∀ j, j ≠ i → s'.slot j = s.slot j := by
  have hself := slot_modifySlot_self (s := s) (lt_size_of_definition hi) fun slot =>
    { slot with references := slot.references + 1 }
  have hrest : ∀ j, j ≠ i → (s.modifySlot i fun slot =>
      { slot with references := slot.references + 1 }).slot j = s.slot j := fun j hj =>
    slot_modifySlot_ne hj.symm _
  refine ⟨_, rfl, h.of_slot (h.tidy.modifySlot_alike fun _ => ⟨rfl, rfl, rfl⟩) ?_ ?_ hrest
    fun j hj => Multiset.count_cons_of_ne hj D, ⟨rfl, fun _ => rfl, rfl, rfl⟩, ?_, hrest⟩
  · rw [hself, Multiset.count_cons_self]
    exact congrArg (· + 1) (h.references i)
  · rw [hself]
    exact fun _ => hi
  · rw [hself]
    rfl

/-- An attribute without references can be emptied and offered to its pool. -/
theorem releaseSlot_counted (h : Counted s D) {d : Definition} (hd : (s.slot i).definition = some d)
    (hD : i ∉ D) : ∃ s', releaseSlot i s = .ok () s' ∧ Counted s' D ∧ OnlySlots s s' ∧
      (∀ j, j ≠ i → s'.slot j = s.slot j) ∧ Sheds (if d.cached then [] else [i]) [] s s' := by
  obtain ⟨s', hrun, ht, honly, hrest, href, hsheds⟩ := releaseSlot_tidy h.tidy hd
  refine ⟨s', hrun, h.of_slot ht ?_ (fun hi => absurd hi hD) hrest fun _ _ => rfl, honly, hrest,
    hsheds⟩
  rw [href]
  exact h.references i

/-- **A reference can be given up once it is held.**  With the last one the slot
is shed, unless its attribute is cached. -/
theorem removeReference_sheds (h : Counted s (i ::ₘ D)) :
    ∃ b s', removeReference i s = .ok b s' ∧ Counted s' D ∧ OnlySlots s s' ∧
      (∀ j, j ≠ i → s'.slot j = s.slot j) ∧
      Sheds (if i ∈ D ∨ (s.slot i).isCached then [] else [i]) [] s s' := by
  have hi : (s.slot i).definition ≠ none := h.bound i (Multiset.mem_cons_self i D)
  obtain ⟨d, hd⟩ := Option.ne_none_iff_exists'.1 hi
  have hn : (s.slot i).references = D.count i + 1 := by
    rw [h.references, Multiset.count_cons_self]
  set s₁ := s.modifySlot i fun slot => { slot with references := D.count i } with hs₁
  have hself : s₁.slot i = { s.slot i with references := D.count i } :=
    slot_modifySlot_self (lt_size_of_definition hi) _
  have hrest : ∀ j, j ≠ i → s₁.slot j = s.slot j := fun j hj => slot_modifySlot_ne hj.symm _
  have honly : OnlySlots s s₁ := ⟨rfl, fun _ => rfl, rfl, rfl⟩
  have h₁ : Counted s₁ D :=
    h.of_slot (h.tidy.modifySlot_alike fun _ => ⟨rfl, rfl, rfl⟩) (by rw [hself])
      (by rw [hself]; exact fun _ => hi) hrest fun j hj => (Multiset.count_cons_of_ne hj D).symm
  have hsame : Sheds [] [] s s₁ := by
    refine Sheds.of_eq (fun j => ?_) rfl
    rcases eq_or_ne j i with rfl | hj
    · rw [hself]
      exact ⟨rfl, rfl⟩
    · rw [hrest j hj]
      exact ⟨rfl, rfl⟩
  by_cases hlast : i ∈ D
  · -- others are left: the attribute is as before
    have hmore : D.count i ≠ 0 := (Multiset.count_pos.2 hlast).ne'
    refine ⟨false, s₁, ?_, h₁, honly, hrest, ?_⟩
    · simp [removeReference, hn, ← hs₁, hmore]
    · rw [if_pos (Or.inl hlast)]
      exact hsame
  · -- it was the last one: the slot is emptied
    have hnone : D.count i = 0 := Multiset.count_eq_zero.2 hlast
    obtain ⟨s₂, hrel, h₂, honly₂, hrest₂, hsheds⟩ :=
      releaseSlot_counted (d := d) h₁ (by rw [hself]; exact hd) hlast
    refine ⟨true, s₂, ?_, h₂, honly.trans honly₂, fun j hj => (hrest₂ j hj).trans (hrest j hj), ?_⟩
    · have hone : (s.slot i).references = 1 := by rw [hn, hnone]
      have hdrop : s.modifySlot i (fun slot => { slot with references := 0 }) = s₁ := by
        rw [hs₁, hnone]
      simp [removeReference, hone, hdrop, hrel]
    · have hcached : (i ∈ D ∨ (s.slot i).isCached) ↔ d.cached := by
        rw [Slot.isCached, hd]
        exact or_iff_right hlast
      simp only [hcached]
      exact hsame.trans hsheds fun r => rfl

/-- What is still demanded is left alone, and what is not loses its attribute at
most. -/
theorem removeReference_counted (h : Counted s (i ::ₘ D)) :
    ∃ b s', removeReference i s = .ok b s' ∧ Counted s' D ∧ OnlySlots s s' ∧
      (∀ j, j ≠ i → s'.slot j = s.slot j) ∧ (∀ j ∈ D, (s'.slot j).bare = (s.slot j).bare) ∧
      ((s'.slot i).bare = (s.slot i).bare ∨ (s'.slot i).bare = (s.slot i).reset.bare) := by
  obtain ⟨b, s', hrun, hc, honly, hrest, hsheds⟩ := removeReference_sheds h
  refine ⟨b, s', hrun, hc, honly, hrest, fun j hj => hsheds.kept j fun hmem => ?_, ?_⟩
  · split_ifs at hmem with hlast
    · cases hmem
    · exact hlast (Or.inl (List.mem_singleton.1 hmem ▸ hj))
  · split_ifs at hsheds
    · exact Or.inl (hsheds.kept i nofun)
    · exact Or.inr (hsheds.emptied i (List.mem_singleton_self i))

end Store
end Telemetry
