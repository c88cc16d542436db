/-
# What the pools store

Pools store free slots, each once and at home, and no attribute bears the mark
of a stored slot (`Store.Tidy`).  This does not depend on the references on the
slots, so it outlasts every misuse of them.  Where it holds, a slot can always
be taken and an attribute always made (`createAttribute_tidy`), and an attribute
can always be released: its slot is emptied and offered to its pool, unless it
is cached (`releaseSlot_tidy`).

`Store.Sheds` says of a store what has become of another one in which some
slots were emptied, and these and some records were offered to their pools.
-/

import Telemetry.Proofs.Pool
import Telemetry.Proofs.Store

namespace Telemetry

open Trace

namespace Trace

/-- A slot without its bookkeeping: what its attribute is. -/
def Slot.bare (slot : Slot) : Slot := { slot with references := 0, home := none, marked := false }

/-- Whether the attribute keeps its slot for good. -/
def Slot.isCached (slot : Slot) : Bool := slot.definition.elim false Definition.cached

/-- Two states of a slot between which a pool sees no difference. -/
structure Slot.Alike (a b : Slot) : Prop where
  definition : b.definition = a.definition
  home : b.home = a.home
  marked : b.marked = a.marked

namespace Slot

variable {a b : Slot}

/-- The definition is no bookkeeping. -/
theorem definition_of_bare (h : a.bare = b.bare) : a.definition = b.definition := by
  rw [← show a.bare.definition = a.definition from rfl, h]
  rfl

/-- The value is no bookkeeping. -/
theorem value_of_bare (h : a.bare = b.bare) : a.value = b.value := by
  rw [← show a.bare.value = a.value from rfl, h]
  rfl

/-- The deferred value is no bookkeeping. -/
theorem deferred_of_bare (h : a.bare = b.bare) : a.deferred = b.deferred := by
  rw [← show a.bare.deferred = a.deferred from rfl, h]
  rfl

/-- Whether the attribute is frozen is no bookkeeping. -/
theorem immutable_of_bare (h : a.bare = b.bare) : a.immutable = b.immutable := by
  rw [← show a.bare.immutable = a.immutable from rfl, h]
  rfl

/-- A slot is like itself. -/
theorem alike_refl (a : Slot) : Alike a a := ⟨rfl, rfl, rfl⟩

end Slot
end Trace

namespace Store

/-- The pools store free slots, each once and at home, and what is bound is not
marked. -/
structure Tidy (s : Store) : Prop where
  unmarked : ∀ i, (s.slot i).definition ≠ none → (s.slot i).marked = false
  stored : ∀ p, ∀ i ∈ (s.set p).slots.stored,
    (s.slot i).definition = none ∧ (s.slot i).marked = true ∧ (s.slot i).home = some p
  once : ∀ p, (s.set p).slots.stored.Nodup

/-- A slot that is there, without attribute and in no pool. -/
structure Vacant (s : Store) (i : SlotId) : Prop where
  there : i < s.slots.size
  free : (s.slot i).definition = none
  unmarked : (s.slot i).marked = false

variable {s s' s'' : Store} {i : SlotId} {p : SetId}

/-- After a set of pools was changed, a pool stores what it stored, or what the change makes
it store. -/
theorem stored_modifySet (s : Store) (p q : SetId) (f : PoolSet → PoolSet) :
    ((s.modifySet p f).set q).slots.stored = (s.set q).slots.stored ∨
      p = q ∧ ((s.modifySet p f).set q).slots.stored = (f (s.set p)).slots.stored := by
  rw [set_modifySet]
  split_ifs with h
  · exact Or.inr ⟨h.1, by rw [h.1]⟩
  · exact Or.inl rfl

/-- A change of slot pools is a change of slots alone. -/
theorem OnlySlots.modifySet {f : PoolSet → PoolSet}
    (hf : (f (s.set p)).records = (s.set p).records) : OnlySlots s (s.modifySet p f) := by
  refine ⟨rfl, fun q => ?_, rfl, rfl⟩
  rw [set_modifySet]
  split_ifs with h
  · rw [← h.1, hf]
  · rfl

/-- A slot that was never used is there once it was made. -/
theorem slot_push_blank (s : Store) (j : SlotId) :
    ({ s with slots := s.slots.push {} } : Store).slot j = s.slot j := by
  rw [slot_push]
  split_ifs with hj
  · rw [hj, slot_of_size_le le_rfl]
    rfl
  · rfl

namespace Tidy

/-- What is not marked is in no pool. -/
theorem not_stored_of_unmarked (h : Tidy s) (hi : (s.slot i).marked = false) :
    i ∉ (s.set p).slots.stored := fun hs => by
  rw [(h.stored p i hs).2.1] at hi
  exact absurd hi (by decide)

/-- A slot with an attribute is in no pool. -/
theorem not_stored (h : Tidy s) (hi : (s.slot i).definition ≠ none) :
    i ∉ (s.set p).slots.stored :=
  h.not_stored_of_unmarked (h.unmarked i hi)

/-- Slots may be written, and the pools may lose what they store. -/
theorem of_alike (h : Tidy s) (hslot : ∀ j, (s.slot j).Alike (s'.slot j))
    (hstock : ∀ p, (s'.set p).slots.stored.Sublist (s.set p).slots.stored) : Tidy s' := by
  refine ⟨fun j hj => ?_, fun q j hj => ?_, fun q => (h.once q).sublist (hstock q)⟩
  · rw [(hslot j).definition] at hj
    rw [(hslot j).marked]
    exact h.unmarked j hj
  · rw [(hslot j).definition, (hslot j).marked, (hslot j).home]
    exact h.stored q j ((hstock q).subset hj)

/-- Pools in order stay so if they store no more. -/
theorem of_stock (h : Tidy s) (hslots : s'.slots = s.slots)
    (hstock : ∀ p, (s'.set p).slots.stored.Sublist (s.set p).slots.stored) : Tidy s' := by
  refine h.of_alike (fun j => ?_) hstock
  rw [slot, slot, hslots]
  exact Slot.alike_refl _

/-- A slot that no pool stores may change, if it is not marked then. -/
theorem modifySlot (h : Tidy s) {f : Slot → Slot} (hout : ∀ p, i ∉ (s.set p).slots.stored)
    (hmark : (f (s.slot i)).definition ≠ none → (f (s.slot i)).marked = false) :
    Tidy (s.modifySlot i f) := by
  refine ⟨fun j hj => ?_, fun q j hj => ?_, h.once⟩
  · rw [slot_modifySlot] at hj ⊢
    split_ifs at hj ⊢ with hi
    · obtain ⟨rfl, -⟩ := hi
      exact hmark hj
    · exact h.unmarked j hj
  · have hne : j ≠ i := fun hji => hout q (hji ▸ hj)
    rw [slot_modifySlot_ne hne.symm]
    exact h.stored q j hj

/-- Pools see no difference between slots that are alike. -/
theorem modifySlot_alike (h : Tidy s) {f : Slot → Slot} (hf : ∀ a : Slot, a.Alike (f a)) :
    Tidy (s.modifySlot i f) := by
  refine h.of_alike (fun j => ?_) fun _ => List.Sublist.refl _
  rw [slot_modifySlot]
  split_ifs
  · exact hf _
  · exact Slot.alike_refl _

/-- A pool that loses some of what it stores, or gains nothing. -/
theorem modifySet (h : Tidy s) {f : PoolSet → PoolSet}
    (hf : (f (s.set p)).slots.stored.Sublist (s.set p).slots.stored) :
    Tidy (s.modifySet p f) := by
  refine h.of_stock rfl fun q => ?_
  rcases stored_modifySet s p q f with hq | ⟨rfl, hq⟩
  · rw [hq]
  · rw [hq]
    exact hf

/-- A vacant slot that goes to the end of its pool's storage. -/
theorem stash (h : Tidy s) (hv : s.Vacant i) (hp : (s.slot i).home = some p)
    {f : PoolSet → PoolSet}
    (hf : (f (s.set p)).slots.stored = (s.set p).slots.stored ++ [i]) :
    Tidy ((s.modifySet p f).modifySlot i fun slot => { slot with marked := true }) := by
  -- the slot is marked and stored at home, and no other slot is written
  have hself := slot_modifySlot_self (s := s.modifySet p f) hv.there
    fun slot => { slot with marked := true }
  have hother : ∀ j, j ≠ i → ((s.modifySet p f).modifySlot i fun slot =>
      { slot with marked := true }).slot j = s.slot j := fun j hj => slot_modifySlot_ne hj.symm _
  have hout := h.not_stored_of_unmarked (p := p) hv.unmarked
  refine ⟨fun j hj => ?_, fun q j hj => ?_, fun q => ?_⟩
  · -- no slot with an attribute is marked: this one has none
    rcases eq_or_ne j i with rfl | hne
    · rw [hself] at hj
      exact absurd hv.free hj
    · rw [hother j hne] at hj ⊢
      exact h.unmarked j hj
  · -- what is stored is free, marked and at home: so is this one
    rw [set_modifySlot] at hj
    rcases eq_or_ne j i with rfl | hne
    · rcases stored_modifySet s p q f with hq | ⟨rfl, hq⟩
      · rw [hq] at hj
        exact absurd hj (h.not_stored_of_unmarked hv.unmarked)
      · rw [hself]
        exact ⟨hv.free, rfl, hp⟩
    · rw [hother j hne]
      rcases stored_modifySet s p q f with hq | ⟨rfl, hq⟩
      · exact h.stored q j (hq ▸ hj)
      · rw [hq, hf, List.mem_append, List.mem_singleton] at hj
        exact h.stored p j (hj.resolve_right hne)
  · -- nothing is stored twice: this slot was in no pool
    rw [set_modifySlot]
    rcases stored_modifySet s p q f with hq | ⟨rfl, hq⟩
    · rw [hq]
      exact h.once q
    · rw [hq, hf]
      exact List.nodup_append.2 ⟨h.once p, List.nodup_singleton i, fun a ha b hb hab =>
        hout (List.mem_singleton.1 hb ▸ hab ▸ ha)⟩

end Tidy

/-! ### What is shed -/

/-- Some slots were emptied, and these and some records were offered to the
pools they came from, in order. -/
structure Sheds (zs : List SlotId) (rs : List RecordId) (s s' : Store) : Prop where
  emptied : ∀ i ∈ zs, (s'.slot i).bare = {}
  kept : ∀ i, i ∉ zs → (s'.slot i).bare = (s.slot i).bare
  home : ∀ i, (s'.slot i).home = (s.slot i).home
  size : s'.sets.size = s.sets.size
  offered : ∀ p, p < s.sets.size → s'.set p =
    if s.isAlive p then { s.set p with
      slots := (s.set p).slots.putEach (zs.filter fun i => (s.slot i).home = some p)
      records := (s.set p).records.putEach (rs.filter fun r => (s.record r).home = some p) }
    else s.set p

namespace Sheds

variable {zs zs' : List SlotId} {rs rs' : List RecordId}

/-- Nothing the pools look at is different. -/
theorem of_eq (hslot : ∀ i, (s'.slot i).bare = (s.slot i).bare ∧ (s'.slot i).home = (s.slot i).home)
    (hsets : s'.sets = s.sets) : Sheds [] [] s s' := by
  refine ⟨nofun, fun i _ => (hslot i).1, fun i => (hslot i).2, by rw [hsets], fun p _ => ?_⟩
  rw [set, hsets, ← set]
  split_ifs <;> rfl

/-- Nothing is shed. -/
theorem refl (s : Store) : Sheds [] [] s s := of_eq (fun _ => ⟨rfl, rfl⟩) rfl

/-- A slot was emptied that may get its mark. -/
theorem of_reset {m : Bool} (hself : s'.slot i = { (s.slot i).reset with marked := m })
    (hrest : ∀ j, j ≠ i → s'.slot j = s.slot j) (hsize : s'.sets.size = s.sets.size)
    (hsets : ∀ p, p < s.sets.size → s'.set p =
      if (s.slot i).home = some p ∧ s.isAlive p then
        { s.set p with slots := ((s.set p).slots.put false i).2 }
      else s.set p) : Sheds [i] [] s s' := by
  refine ⟨fun j hj => ?_, fun j hj => ?_, fun j => ?_, hsize, fun p hp => ?_⟩
  · rw [List.mem_singleton.1 hj, hself]
    rfl
  · rw [hrest j (mt List.mem_singleton.2 hj)]
  · rcases eq_or_ne j i with rfl | hj
    · rw [hself]
      rfl
    · rw [hrest j hj]
  · -- the pools: only the home of the slot is offered it
    rw [hsets p hp]
    by_cases hhome : (s.slot i).home = some p
    · have hfilter : [i].filter (fun j => (s.slot j).home = some p) = [i] := by simp [hhome]
      rw [hfilter]
      simp only [hhome, true_and]
      split_ifs <;> rfl
    · have hfilter : [i].filter (fun j => (s.slot j).home = some p) = [] := by simp [hhome]
      rw [hfilter]
      simp only [hhome, false_and, if_false]
      split_ifs <;> rfl

/-- A record was offered to the pool it came from, if that is still there. -/
theorem of_put {r : RecordId}
    (hslot : ∀ i, (s'.slot i).bare = (s.slot i).bare ∧ (s'.slot i).home = (s.slot i).home)
    (hsize : s'.sets.size = s.sets.size)
    (hsets : ∀ p, p < s.sets.size → s'.set p =
      if (s.record r).home = some p ∧ s.isAlive p then
        { s.set p with records := ((s.set p).records.put false r).2 }
      else s.set p) : Sheds [] [r] s s' := by
  refine ⟨nofun, fun i _ => (hslot i).1, fun i => (hslot i).2, hsize, fun p hp => ?_⟩
  rw [hsets p hp]
  by_cases hhome : (s.record r).home = some p
  · have hfilter : [r].filter (fun q => (s.record q).home = some p) = [r] := by simp [hhome]
    rw [hfilter]
    simp only [hhome, true_and]
    split_ifs <;> rfl
  · have hfilter : [r].filter (fun q => (s.record q).home = some p) = [] := by simp [hhome]
    rw [hfilter]
    simp only [hhome, false_and, if_false]
    split_ifs <;> rfl

/-- A pool set is still held after slots and records were shed into it. -/
theorem isAlive (h : Sheds zs rs s s') (hp : p < s.sets.size) : s'.isAlive p = s.isAlive p := by
  rw [Store.isAlive, h.offered p hp]
  split_ifs <;> rfl

/-- What is shed in turn is shed together. -/
theorem trans (h : Sheds zs rs s s') (h' : Sheds zs' rs' s' s'')
    (hrecords : ∀ r, (s'.record r).home = (s.record r).home) :
    Sheds (zs ++ zs') (rs ++ rs') s s'' := by
  refine ⟨fun i hi => ?_, fun i hi => ?_, fun i => (h'.home i).trans (h.home i),
    h'.size.trans h.size, fun p hp => ?_⟩
  · by_cases hi' : i ∈ zs'
    · exact h'.emptied i hi'
    · rw [h'.kept i hi']
      exact h.emptied i ((List.mem_append.1 hi).resolve_right hi')
  · rw [List.mem_append, not_or] at hi
    rw [h'.kept i hi.2, h.kept i hi.1]
  · rw [h'.offered p (h.size ▸ hp), h.isAlive hp, h.offered p hp]
    split_ifs
    · simp only [h.home, hrecords, List.filter_append, Pool.putEach_append]
    · rfl

end Sheds

/-! ### Into a pool and out of it -/

/-- **A vacant slot at home may be offered to its pool.** -/
theorem putSlot_tidy (h : Tidy s) (hv : s.Vacant i) (hp : (s.slot i).home = some p) :
    ∃ s', putSlot p i s = .ok () s' ∧ Tidy s' ∧ OnlySlots s s' ∧
      (∀ j, j ≠ i → s'.slot j = s.slot j) ∧ (∃ m, s'.slot i = { s.slot i with marked := m }) ∧
      s'.sets =
        (s.modifySet p fun q => { q with slots := ((s.set p).slots.put false i).2 }).sets := by
  rcases (s.set p).slots.put_unmarked i with ⟨q, hq, hstored⟩ | ⟨q, n, hq, hstored⟩ <;>
    rw [hq] <;> rw [← hv.unmarked] at hq
  · -- there is room: the slot goes to the end of the storage and is marked
    refine ⟨(s.modifySet p fun x => { x with slots := q }).modifySlot i fun slot =>
      { slot with marked := true }, ?_, h.stash hv hp hstored,
      (OnlySlots.modifySet rfl).trans ⟨rfl, fun _ => rfl, rfl, rfl⟩,
      fun j hj => slot_modifySlot_ne hj.symm _, ⟨true, ?_⟩, rfl⟩
    · rw [putSlot, Action.modify_apply, hq]
    · rw [slot_modifySlot_self (show i < (s.modifySet p _).slots.size from hv.there)]
      rfl
  · -- there is none: the slot is dropped
    refine ⟨(s.modifySet p fun x => { x with slots := q }).report [.itemOverflow n], ?_, ?_,
      (OnlySlots.modifySet rfl).trans ⟨rfl, fun _ => rfl, rfl, rfl⟩, fun j _ => rfl,
      ⟨(s.slot i).marked, rfl⟩, rfl⟩
    · rw [putSlot, Action.modify_apply, hq]
    · refine (h.modifySet (p := p) (f := fun x => { x with slots := q }) ?_).of_stock rfl
        fun _ => List.Sublist.refl _
      exact hstored ▸ List.Sublist.refl _

/-- Where nothing is stored, a slot is made. -/
theorem takeSlot_makes (h : Tidy s) {p : SetId} {q : Pool SlotId}
    (hq : (s.set p).slots.take (fun i => (s.slot i).marked) = (.missed, q)) (hnew : q.stored = []) :
    ∃ i s', takeSlot p s = .ok i s' ∧ Tidy s' ∧ s'.Vacant i ∧ OnlySlots s s' ∧
      s'.slot i = { s.slot i with marked := false } ∧ ∀ j, j ≠ i → s'.slot j = s.slot j := by
  -- the miss is counted, which lets the pool store no more than before
  set s₁ := s.modifySet p fun x => { x with slots := q } with hs₁
  have h₁ : Tidy s₁ := h.modifySet (show q.stored.Sublist _ from hnew ▸ List.nil_sublist _)
  have hfree : s.slot s.slots.size = {} := slot_of_size_le le_rfl
  -- a slot that was made is like one that was not, so all slots read as before
  have hslot : ∀ j, ({ s₁ with slots := s₁.slots.push {} } : Store).slot j = s.slot j :=
    slot_push_blank s₁
  refine ⟨s.slots.size, { s₁ with slots := s₁.slots.push {} }, ?_, ?_, ⟨?_, ?_, ?_⟩, ?_, ?_, ?_⟩
  · simp only [takeSlot, Action.bind_apply, Action.get_apply, hq, Action.modify_apply,
      Action.pure_apply, hs₁]
  · refine h₁.of_alike (fun j => ?_) fun _ => List.Sublist.refl _
    rw [hslot]
    exact Slot.alike_refl _
  · rw [Array.size_push]
    exact Nat.lt_succ_self _
  · rw [hslot, hfree]
  · rw [hslot, hfree]
  · exact (OnlySlots.modifySet rfl).trans ⟨rfl, fun _ => rfl, rfl, rfl⟩
  · rw [hslot, hfree]
  · exact fun j _ => hslot j

/-- A slot that is taken off a pool stood in this pool only, and only at the
front. -/
theorem Tidy.taken_out (h : Tidy s) {p : SetId} {q : Pool SlotId}
    (hold : (s.set p).slots.stored = i :: q.stored) (r : SetId) :
    i ∉ ((s.modifySet p fun x => { x with slots := q }).set r).slots.stored := by
  have hin : i ∈ (s.set p).slots.stored := hold ▸ List.mem_cons_self
  have hpset : p < s.sets.size := by
    by_contra hp
    rw [set_of_size_le (not_lt.1 hp)] at hin
    exact absurd hin List.not_mem_nil
  intro hr
  rw [set_modifySet] at hr
  split_ifs at hr with hpr
  · have hnodup := h.once p
    rw [hold, List.nodup_cons] at hnodup
    exact hnodup.1 hr
  · have hhome := (h.stored r i hr).2.2
    rw [(h.stored p i hin).2.2, Option.some.injEq] at hhome
    exact hpr ⟨hhome, hpset⟩

/-- Else the oldest stored slot is taken, and its mark cleared. -/
theorem takeSlot_reuses (h : Tidy s) {p : SetId} {q : Pool SlotId}
    (hq : (s.set p).slots.take (fun i => (s.slot i).marked) = (.reused i, q))
    (hold : (s.set p).slots.stored = i :: q.stored) :
    ∃ i s', takeSlot p s = .ok i s' ∧ Tidy s' ∧ s'.Vacant i ∧ OnlySlots s s' ∧
      s'.slot i = { s.slot i with marked := false } ∧ ∀ j, j ≠ i → s'.slot j = s.slot j := by
  -- the pool stores no more than before
  set s₁ := s.modifySet p fun x => { x with slots := q } with hs₁
  have h₁ : Tidy s₁ :=
    h.modifySet (show q.stored.Sublist _ from hold ▸ List.sublist_cons_self _ _)
  -- what it hands out was free, marked and in no other pool
  obtain ⟨hfree, hmark, -⟩ := h.stored p i (hold ▸ List.mem_cons_self)
  have hthere : i < s.slots.size := lt_size_of_marked hmark
  have hself : (s₁.modifySlot i fun slot => { slot with marked := false }).slot i =
      { s.slot i with marked := false } := slot_modifySlot_self (s := s₁) hthere _
  refine ⟨i, s₁.modifySlot i fun slot => { slot with marked := false }, ?_, ?_, ⟨?_, ?_, ?_⟩,
    ?_, hself, ?_⟩
  · simp only [takeSlot, Action.bind_apply, Action.get_apply, hq, Action.modify_apply,
      Action.pure_apply, hs₁]
  · exact h₁.modifySlot (h.taken_out hold) fun _ => rfl
  · rw [size_modifySlot]
    exact hthere
  · rw [hself]
    exact hfree
  · rw [hself]
  · exact (OnlySlots.modifySet rfl).trans ⟨rfl, fun _ => rfl, rfl, rfl⟩
  · intro j hj
    rw [slot_modifySlot_ne hj.symm, hs₁, slot_modifySet]

/-- **A slot can always be taken.**  It is vacant then, and was free before. -/
theorem takeSlot_tidy (h : Tidy s) (p : SetId) :
    ∃ i s', takeSlot p s = .ok i s' ∧ Tidy s' ∧ s'.Vacant i ∧ OnlySlots s s' ∧
      s'.slot i = { s.slot i with marked := false } ∧ ∀ j, j ≠ i → s'.slot j = s.slot j := by
  rcases (s.set p).slots.take_of_marked (fun i => (s.slot i).marked)
    fun j hj => (h.stored p j hj).2.1 with ⟨q, hq, -, hnew⟩ | ⟨i, q, hq, hold⟩
  · exact takeSlot_makes h hq hnew
  · exact takeSlot_reuses h hq hold

/-! ### Attributes -/

/-- **An attribute can always be made.**  It has the definition and nothing
else, in a slot that was free. -/
theorem createAttribute_tidy (h : Tidy s) (p : SetId) (d : Definition) :
    ∃ i s', createAttribute p d s = .ok i s' ∧ Tidy s' ∧ OnlySlots s s' ∧
      s'.slot i = { definition := some d, home := some p } ∧ (s.slot i).definition = none ∧
      ∀ j, j ≠ i → s'.slot j = s.slot j := by
  obtain ⟨i, s₁, htake, h₁, hv, honly, htaken, hrest⟩ := takeSlot_tidy h p
  have hself := slot_modifySlot_self (s := s₁) hv.there fun slot =>
    { slot.reset with definition := some d, home := some p, references := 0 }
  refine ⟨i, s₁.modifySlot i fun slot =>
    { slot.reset with definition := some d, home := some p, references := 0 },
    ?_, ?_, ?_, ?_, ?_, ?_⟩
  · simp only [createAttribute, Action.bind_apply, htake, Action.modify_apply, Action.pure_apply]
  · exact h₁.modifySlot (fun q => h₁.not_stored_of_unmarked hv.unmarked) fun _ => hv.unmarked
  · exact honly.trans ⟨rfl, fun _ => rfl, rfl, rfl⟩
  · rw [hself, Slot.reset, hv.unmarked]
  · have hfree := hv.free
    rw [htaken] at hfree
    exact hfree
  · intro j hj
    rw [slot_modifySlot_ne hj.symm, hrest j hj]

/-- A slot without attribute cannot be released: this is the fault of a double reset. -/
theorem releaseSlot_free (h : (s.slot i).definition = none) :
    releaseSlot i s = .error .doubleReset s := by
  simp only [releaseSlot, Action.bind_apply, Action.get_apply, h, Action.throw_apply]

/-- A cached attribute is not released. -/
theorem releaseSlot_cached {d : Definition} (hd : (s.slot i).definition = some d)
    (hc : d.cached = true) : releaseSlot i s = .ok () s := by
  simp only [releaseSlot, Action.bind_apply, Action.get_apply, hd, hc, if_true, Action.pure_apply]

/-- **An attribute can always be released.**  Its slot is emptied and offered to
the pool it came from, unless it is cached. -/
theorem releaseSlot_tidy (h : Tidy s) {d : Definition} (hd : (s.slot i).definition = some d) :
    ∃ s', releaseSlot i s = .ok () s' ∧ Tidy s' ∧ OnlySlots s s' ∧
      (∀ j, j ≠ i → s'.slot j = s.slot j) ∧ (s'.slot i).references = (s.slot i).references ∧
      Sheds (if d.cached then [] else [i]) [] s s' := by
  have hi : (s.slot i).definition ≠ none := by
    rw [hd]
    exact Option.some_ne_none d
  have hthere := lt_size_of_definition hi
  cases hcached : d.cached with
  | true =>
    exact ⟨s, releaseSlot_cached hd hcached, h, OnlySlots.refl s, fun _ _ => rfl, rfl, Sheds.refl s⟩
  | false =>
    -- the slot is emptied first, which its pool has no part in
    set s₁ := s.modifySlot i Slot.reset with hs₁
    have hself : s₁.slot i = (s.slot i).reset := slot_modifySlot_self hthere _
    have hmark : (s₁.slot i).marked = false := by
      rw [hself]
      exact h.unmarked i hi
    have h₁ : Tidy s₁ := h.modifySlot (fun q => h.not_stored hi) fun _ => h.unmarked i hi
    have honly : OnlySlots s s₁ := ⟨rfl, fun _ => rfl, rfl, rfl⟩
    have hrest : ∀ j, j ≠ i → s₁.slot j = s.slot j := fun j hj => slot_modifySlot_ne hj.symm _
    -- then it goes home if there is a home and somebody holds on to it
    have hrun : ∀ p, (s.slot i).home = some p → s₁.isAlive p = true →
        releaseSlot i s = putSlot p i s₁ := by
      intro p hp halive
      simp [releaseSlot, hd, hcached, hp, ← hs₁, halive]
    have hend : (∀ p, (s.slot i).home = some p → s₁.isAlive p = false) →
        releaseSlot i s = .ok () s₁ := by
      intro hdead
      cases hp : (s.slot i).home with
      | none => simp [releaseSlot, hd, hcached, hp, ← hs₁]
      | some p => simp [releaseSlot, hd, hcached, hp, ← hs₁, hdead p hp]
    by_cases halive : ∃ p, (s.slot i).home = some p ∧ s₁.isAlive p = true
    · obtain ⟨p, hp, hp'⟩ := halive
      obtain ⟨s₂, hput, h₂, honly₂, hrest₂, ⟨m, hself₂⟩, hsets₂⟩ := putSlot_tidy h₁
        ⟨by simpa [hs₁] using hthere, by rw [hself]; rfl, hmark⟩
        (by rw [hself]; exact hp)
      refine ⟨s₂, (hrun p hp hp').trans hput, h₂, honly.trans honly₂,
        fun j hj => (hrest₂ j hj).trans (hrest j hj), by rw [hself₂, hself]; rfl, ?_⟩
      refine Sheds.of_reset (m := m) (by rw [hself₂, hself])
        (fun j hj => (hrest₂ j hj).trans (hrest j hj)) (by rw [hsets₂]; exact Array.size_modify)
        fun q hq => ?_
      rw [set, hsets₂, ← set, set_modifySet]
      by_cases hpq : p = q
      · subst hpq
        rw [if_pos ⟨rfl, hq⟩, if_pos ⟨hp, hp'⟩]
        rfl
      · rw [if_neg fun h => hpq h.1, if_neg fun h => hpq (Option.some.inj (hp.symm.trans h.1))]
        rfl
    · refine ⟨s₁, hend fun p hp => ?_, h₁, honly, hrest, by rw [hself]; rfl, ?_⟩
      · exact Bool.eq_false_iff.2 fun hp' => halive ⟨p, hp, hp'⟩
      · exact Sheds.of_reset (m := (s.slot i).reset.marked) hself hrest rfl fun q _ =>
          (if_neg fun h => halive ⟨q, h⟩).symm

end Store
end Telemetry
