/-
# References that are given up

A record that is released gives up one reference for every entry, whatever has
become of the references meanwhile.  A count goes down by the number of entries
and stops at none; what breaks the release off is a slot without attribute on
which there still are references, no more than there are entries for it
(`Store.Jams`), and nothing else does (`Store.Forfeits`).
-/

import Telemetry.Proofs.Misuse
import Telemetry.Proofs.Stocked

namespace Telemetry

open Trace

namespace Store

open Telemetry.Action

variable {s s' s'' : Store} {D D' : Multiset SlotId} {H : Multiset RecordId} {i j : SlotId}
  {r : RecordId} {p : SetId} {α : Type}

/-- To give up the references `D` comes upon the last reference on a slot without
attribute. -/
structure Jams (D : Multiset SlotId) (s : Store) (i : SlotId) : Prop where
  free : (s.slot i).definition = none
  held : 0 < (s.slot i).references
  last : (s.slot i).references ≤ D.count i

/-- The references `D` were given up. -/
structure Drops (D : Multiset SlotId) (s s' : Store) : Prop where
  tidy : s'.Tidy
  references : ∀ i, (s'.slot i).references = (s.slot i).references - D.count i
  /-- What has references left keeps its attribute. -/
  kept : ∀ i, D.count i < (s.slot i).references → (s'.slot i).definition = (s.slot i).definition
  alive : ∀ p, s'.isAlive p = s.isAlive p
  free : ∀ i, ¬ Jams D s i

/-- What comes of giving up the references `D`: they are given up, or some slot
jams. -/
def Forfeits (D : Multiset SlotId) (s : Store) : EStateM.Result Fault Store α → Prop
  | .ok _ s' => Drops D s s'
  | .error f _ => f = .doubleReset ∧ ∃ i, Jams D s i

namespace Drops

/-- Giving up nothing. -/
theorem refl (h : s.Tidy) : Drops 0 s s :=
  ⟨h, fun _ => rfl, fun _ _ => rfl, fun _ => rfl, fun i hi =>
    absurd (hi.held.trans_le hi.last) (by simp)⟩

/-- Where the first references were given up, a slot jams later or not at all. -/
theorem jams (h : Drops D s s') : Jams (D + D') s i ↔ Jams D' s' i := by
  have href := h.references i
  constructor
  · intro hi
    have hfirst : D.count i < (s.slot i).references := by
      by_contra hlt
      exact h.free i ⟨hi.free, hi.held, not_lt.1 hlt⟩
    have hlast := hi.last
    rw [Multiset.count_add] at hlast
    exact ⟨(h.kept i hfirst).trans hi.free, by omega, by omega⟩
  · intro hi
    have hheld := hi.held
    have hlast := hi.last
    have hfirst : D.count i < (s.slot i).references := by omega
    refine ⟨(h.kept i hfirst).symm.trans hi.free, by omega, ?_⟩
    rw [Multiset.count_add]
    omega

/-- References given up in turn are given up together. -/
theorem trans (h : Drops D s s') (h' : Drops D' s' s'') : Drops (D + D') s s'' := by
  refine ⟨h'.tidy, fun i => ?_, fun i hi => ?_, fun p => (h'.alive p).trans (h.alive p),
    fun i hi => h'.free i (h.jams.1 hi)⟩
  · rw [h'.references, h.references, Multiset.count_add, Nat.sub_sub]
  · rw [Multiset.count_add] at hi
    have hlater : D'.count i < (s'.slot i).references := by
      rw [h.references]
      omega
    exact (h'.kept i hlater).trans (h.kept i (by omega))

/-- What is no matter to the slots and the pool sets that are alive. -/
theorem of_slots (h : Drops D s s') (hslots : s''.slots = s'.slots) (htidy : s''.Tidy)
    (halive : ∀ p, s''.isAlive p = s'.isAlive p) : Drops D s s'' := by
  have hslot : ∀ i, s''.slot i = s'.slot i := fun i => by simp only [slot, hslots]
  refine ⟨htidy, fun i => ?_, fun i hi => ?_, fun p => (halive p).trans (h.alive p), h.free⟩
  · rw [hslot]
    exact h.references i
  · rw [hslot]
    exact h.kept i hi

end Drops

/-- What jams with some references jams with more. -/
theorem Jams.mono (h : Jams D s i) (hD : D ≤ D') : Jams D' s i :=
  ⟨h.free, h.held, h.last.trans (Multiset.count_le_of_le i hD)⟩

/-- One after the other. -/
theorem forfeits_bind {β : Type} {a : Action α} {f : α → Action β} (ha : Forfeits D s (a s))
    (hf : ∀ x s', a s = .ok x s' → Drops D s s' → Forfeits D' s' (f x s')) :
    Forfeits (D + D') s ((a >>= f) s) := by
  rw [bind_apply]
  cases hrun : a s with
  | error e s' =>
    rw [hrun] at ha
    obtain ⟨rfl, i, hi⟩ := ha
    exact ⟨rfl, i, hi.mono (Multiset.le_add_right D D')⟩
  | ok x s' =>
    rw [hrun] at ha
    have hrest := hf x s' hrun ha
    dsimp only
    cases hrun' : f x s' with
    | ok y s'' =>
      rw [hrun'] at hrest
      exact Drops.trans ha hrest
    | error e s'' =>
      rw [hrun'] at hrest
      obtain ⟨rfl, i, hi⟩ := hrest
      exact ⟨rfl, i, (Drops.jams ha).2 hi⟩

/-- Dropping the answer changes nothing about what is given up. -/
theorem forfeits_discard {a : Action α} (h : Forfeits D s (a s)) :
    Forfeits D s ((discard a : Action PUnit) s) := by
  rw [discard_apply]
  cases hrun : a s <;> rw [hrun] at h <;> exact h

/-- One reference on one slot: what becomes of that slot is all that matters. -/
theorem drops_one (htidy : s'.Tidy) (hrest : ∀ j, j ≠ i → s'.slot j = s.slot j)
    (href : (s'.slot i).references = (s.slot i).references - 1)
    (hkept : 1 < (s.slot i).references → (s'.slot i).definition = (s.slot i).definition)
    (halive : ∀ p, s'.isAlive p = s.isAlive p)
    (hfree : (s.slot i).references = 1 → (s.slot i).definition ≠ none) : Drops {i} s s' := by
  have hself : Multiset.count i {i} = 1 := Multiset.count_singleton_self i
  have hother : ∀ j, j ≠ i → Multiset.count j {i} = 0 := fun j hj =>
    Multiset.count_eq_zero.2 (mt Multiset.mem_singleton.1 hj)
  refine ⟨htidy, fun j => ?_, fun j hj => ?_, halive, fun j hj => ?_⟩
  · rcases eq_or_ne j i with rfl | hne
    · rw [href, hself]
    · rw [hrest j hne, hother j hne, Nat.sub_zero]
  · rcases eq_or_ne j i with rfl | hne
    · exact hkept (hself ▸ hj)
    · rw [hrest j hne]
  · rcases eq_or_ne j i with rfl | hne
    · exact hfree (le_antisymm (hself ▸ hj.last) hj.held) hj.free
    · exact absurd (hj.held.trans_le (hother j hne ▸ hj.last)) (lt_irrefl 0)

/-- **One reference.** -/
theorem removeReference_forfeits (h : s.Tidy) (i : SlotId) :
    Forfeits {i} s (removeReference i s) := by
  rw [removeReference_apply]
  split_ifs with hone
  · -- it is the last one
    have hthere : i < s.slots.size := lt_size_of_references (hone ▸ Nat.one_ne_zero)
    set s₁ := s.modifySlot i Slot.unreferred with hs₁
    have hself₁ : s₁.slot i = (s.slot i).unreferred := slot_modifySlot_self hthere _
    cases hd : (s.slot i).definition with
    | none =>
      simp only [releaseSlot_free (s := s₁) (i := i) (by rw [hself₁]; exact hd)]
      exact ⟨rfl, i, hd, hone ▸ Nat.one_pos, by rw [hone, Multiset.count_singleton_self]⟩
    | some d =>
      have h₁ : Tidy s₁ := h.modifySlot_alike fun _ => ⟨rfl, rfl, rfl⟩
      obtain ⟨s₂, hrun, h₂, -, hrest, href, hsheds⟩ :=
        releaseSlot_tidy h₁ (d := d) (by rw [hself₁]; exact hd)
      simp only [hrun]
      refine drops_one h₂ (fun j hj => (hrest j hj).trans (slot_modifySlot_ne hj.symm _)) ?_
        (fun hmore => ?_) (fun p => ?_) fun _ => by rw [hd]; exact Option.some_ne_none d
      · rw [href, hself₁]
        rfl
      · rw [hone] at hmore
        exact absurd hmore (lt_irrefl 1)
      · by_cases hp : p < s.sets.size
        · exact hsheds.isAlive hp
        · rw [isAlive, isAlive, set_of_size_le (not_lt.1 hp),
            set_of_size_le (hsheds.size.symm ▸ not_lt.1 hp)]
  · -- others are left, or there is none
    have hslot : ((s.modifySlot i Slot.unreferred).slot i).references =
        (s.slot i).references - 1 ∧
          ((s.modifySlot i Slot.unreferred).slot i).definition = (s.slot i).definition := by
      rw [slot_modifySlot]
      split_ifs with hi
      · exact ⟨rfl, rfl⟩
      · have hnone : (s.slot i).references = 0 := by
          by_contra hn
          exact hi ⟨rfl, lt_size_of_references hn⟩
        exact ⟨by rw [hnone], rfl⟩
    exact drops_one (h.modifySlot_alike fun _ => ⟨rfl, rfl, rfl⟩)
      (fun j hj => slot_modifySlot_ne hj.symm _) hslot.1 (fun _ => hslot.2) (fun _ => rfl)
      fun h => absurd h hone

/-- **References that are given up one after the other.** -/
theorem removeReferences_forfeits (l : List SlotId) :
    ∀ s, s.Tidy → Forfeits ↑l s ((l.forM fun i => discard (removeReference i)) s) := by
  induction l with
  | nil => exact fun s h => Drops.refl h
  | cons i l ih =>
    intro s h
    have hfirst := forfeits_discard (removeReference_forfeits h i)
    exact forfeits_bind hfirst fun _ s₁ _ hdrops => ih s₁ hdrops.tidy

/-! ### Records -/

/-- What a record has is no matter to slots. -/
theorem Forfeits.of_modifyRecord {f : Record → Record} {out : EStateM.Result Fault Store α}
    (h : Forfeits D (s.modifyRecord r f) out) : Forfeits D s out := by
  cases out with
  | ok x s' =>
    exact ⟨h.tidy, h.references, h.kept, h.alive,
      fun i hi => h.free i ⟨hi.free, hi.held, hi.last⟩⟩
  | error e s' =>
    obtain ⟨he, i, hi⟩ := h
    exact ⟨he, i, hi.free, hi.held, hi.last⟩

/-- Clearing a category gives up the references of its entries. -/
theorem clearCategory_forfeits (h : s.Tidy) (r : RecordId) (k : Category) :
    Forfeits (((s.record r).attributes k).total ({·})) s (clearCategory r k s) := by
  rw [Keyed.total_singleton]
  exact Forfeits.of_modifyRecord (removeReferences_forfeits _ _ (h.of_stock rfl fun _ =>
    List.Sublist.refl _))

/-- The categories are walked one after the other, and each gives up its own
entries. -/
theorem clearCategories_forfeits (ks : List Category) :
    ∀ s : Store, s.Tidy → r < s.records.size → ks.Nodup →
      Forfeits (ks.map fun k => ((s.record r).attributes k).total ({·})).sum s
        (ks.forM (clearCategory r) s) := by
  induction ks with
  | nil => exact fun s h _ _ => Drops.refl h
  | cons k ks ih =>
    intro s h hr hks
    obtain ⟨hk, hks⟩ := List.nodup_cons.1 hks
    refine forfeits_bind (clearCategory_forfeits h r k) fun _ s₁ hrun hdrops => ?_
    obtain ⟨hr₁, hself, -⟩ := clearCategory_record hr hrun
    have hsame : (ks.map fun k => ((s₁.record r).attributes k).total ({·})) =
        ks.map fun k => ((s.record r).attributes k).total ({·}) :=
      List.map_congr_left fun j hj => by
        rw [hself, Record.attributes_setAttributes, if_neg fun hkj : k = j => hk (hkj ▸ hj)]
    exact hsame ▸ ih s₁ hdrops.tidy hr₁ hks

/-- The references that some records hold. -/
def demand (s : Store) (rs : List RecordId) : Multiset SlotId :=
  (rs.map fun r => (s.record r).held).sum

/-- Some records were released: they are blank, the references that they held are
given up, and a record is in a pool only if anybody holds on to it. -/
structure Releases (rs : List RecordId) (s s' : Store) : Prop where
  drops : Drops (s.demand rs) s s'
  blank : ∀ r ∈ rs, ∃ m, s'.record r = { home := (s.record r).home, marked := m }
  others : ∀ r, r ∉ rs → s'.record r = s.record r
  stored : ∀ p, ∀ r ∈ (s'.set p).records.stored, r ∈ (s.set p).records.stored ∨
    r ∈ rs ∧ (s.record r).home = some p ∧ s.isAlive p

/-- The references that records hold are those of the first and those of the others. -/
theorem demand_cons (s : Store) (r : RecordId) (rs : List RecordId) :
    s.demand (r :: rs) = (s.record r).held + s.demand rs := List.sum_cons

/-- A single record holds its own references. -/
theorem demand_singleton (s : Store) (r : RecordId) : s.demand [r] = (s.record r).held :=
  List.sum_singleton

/-- Releasing no records. -/
theorem Releases.nil (h : s.Tidy) : Releases [] s s :=
  ⟨Drops.refl h, nofun, fun _ _ => rfl, fun _ _ hr => Or.inl hr⟩

/-- Releasing one record and then others, all of them different. -/
theorem Releases.cons {rs : List RecordId} (h : Releases [r] s s') (h' : Releases rs s' s'')
    (hr : r ∉ rs) : Releases (r :: rs) s s'' := by
  have hother : ∀ q, q ≠ r → s'.record q = s.record q := fun q hq =>
    h.others q (mt List.mem_singleton.1 hq)
  have hne : ∀ q ∈ rs, q ≠ r := fun q hq hqr => hr (hqr ▸ hq)
  -- the first release leaves the other records, so their demand is the same
  have hdemand : s'.demand rs = s.demand rs :=
    congrArg List.sum (List.map_congr_left fun q hq => by rw [hother q (hne q hq)])
  refine ⟨?_, fun q hq => ?_, fun q hq => ?_, fun p q hq => ?_⟩
  · rw [demand_cons, ← hdemand, ← demand_singleton]
    exact h.drops.trans h'.drops
  · rcases List.mem_cons.1 hq with rfl | hq
    · rw [h'.others q hr]
      exact h.blank q List.mem_cons_self
    · rw [← hother q (hne q hq)]
      exact h'.blank q hq
  · rw [List.mem_cons, not_or] at hq
    rw [h'.others q hq.2, hother q hq.1]
  · -- what a pool stores came in with one of the two releases
    rcases h'.stored p q hq with hq | ⟨hq, hhome, halive⟩
    · exact (h.stored p q hq).imp_right fun hq =>
        ⟨List.mem_cons.2 (Or.inl (List.mem_singleton.1 hq.1)), hq.2⟩
    · rw [hother q (hne q hq)] at hhome
      rw [h.drops.alive] at halive
      exact Or.inr ⟨List.mem_cons_of_mem r hq, hhome, halive⟩

/-- **A record in hand that is released gives up a reference for every entry,** and
is blank then, whether its pool is still there or not. -/
theorem releaseRecord_releases (h : Stocked s (r ::ₘ H)) (ht : s.Tidy) :
    (∃ s', releaseRecord r s = .ok () s' ∧ Releases [r] s s') ∨
      ∃ s', releaseRecord r s = .error .doubleReset s' ∧ ∃ i, Jams (s.demand [r]) s i := by
  have hmem : r ∈ r ::ₘ H := Multiset.mem_cons_self r H
  have hthere := h.housed.there r hmem
  have hcleared := clearAll_stocked h hmem
  have hstored := clearAll_stored r s
  -- clearing gives up what the record holds, or jams on the way
  have hforfeits := clearCategories_forfeits Category.all s ht hthere (by decide)
  rw [← Record.held_eq, ← demand_singleton] at hforfeits
  cases hclear : Category.all.forM (clearCategory r) s with
  | error e s₁ =>
    rw [hclear] at hforfeits
    obtain ⟨rfl, hjams⟩ := hforfeits
    exact Or.inr ⟨s₁, by simp only [releaseRecord, bind_apply, hclear], hjams⟩
  | ok u s₁ =>
    rw [hclear] at hforfeits
    rw [leaves_ok hclear] at hcleared hstored
    obtain ⟨hempty, hhome, hother⟩ := clearAll_record hthere hclear
    -- a cleared record is put back, which touches no slot
    obtain ⟨s₂, hrun, hreturns, -⟩ := hcleared.housed.releaseRecord_returns hclear hempty
    have hdrops : Drops (s.demand [r]) s s₁ := hforfeits
    refine Or.inl ⟨s₂, hrun, hdrops.of_slots hreturns.slots ?_ fun p => (hreturns.stock p).2,
      fun q hq => ?_, fun q hq => ?_, fun p q hq => ?_⟩
    · exact hdrops.tidy.of_stock hreturns.slots fun p => by rw [(hreturns.stock p).1]
    · obtain rfl := List.mem_singleton.1 hq
      exact hhome ▸ hreturns.record
    · have hne : q ≠ r := mt List.mem_singleton.2 hq
      rw [hreturns.others q hne, hother q hne]
    · -- a pool stores one record more only if it is this one, and its home
      rcases hreturns.stored hq with hq | ⟨rfl, hhome', halive⟩
      · exact Or.inl ((hstored p).subset hq)
      · rw [hhome] at hhome'
        rw [hdrops.alive] at halive
        exact Or.inr ⟨List.mem_singleton_self q, hhome', halive⟩

/-- **Records in hand that are released,** all of them or up to the first slot that
jams. -/
theorem releaseRecords_releases (rs : List RecordId) :
    ∀ s, Stocked s (↑rs + H) → s.Tidy →
      (∃ s', releaseRecords rs s = .ok () s' ∧ Releases rs s s') ∨
        ∃ s', releaseRecords rs s = .error .doubleReset s' ∧ ∃ i, Jams (s.demand rs) s i := by
  induction rs with
  | nil => exact fun s _ ht => Or.inl ⟨s, rfl, .nil ht⟩
  | cons r rs ih =>
    intro s h ht
    rw [← Multiset.cons_coe, Multiset.cons_add] at h
    have hleft := releaseRecord_stocked h
    have hr : r ∉ rs := fun hr =>
      (Multiset.nodup_cons.1 h.housed.once).1 (Multiset.mem_add.2 (Or.inl hr))
    -- the first release ends, or it jams and nothing more is released
    rcases releaseRecord_releases h ht with ⟨s₁, hrun, hfirst⟩ | ⟨s₁, hrun, i, hi⟩
    · rw [leaves_ok hrun] at hleft
      have hdemand : s₁.demand rs = s.demand rs := congrArg List.sum
        (List.map_congr_left fun q hq => by
          rw [hfirst.others q (mt List.mem_singleton.1 fun hqr : q = r => hr (hqr ▸ hq))])
      rcases ih s₁ hleft hfirst.drops.tidy with ⟨s₂, hrest, hrecords⟩ | ⟨s₂, hrest, i, hi⟩
      · refine Or.inl ⟨s₂, ?_, hfirst.cons hrecords hr⟩
        rw [releaseRecords, forM_cons, hrun]
        exact hrest
      · refine Or.inr ⟨s₂, ?_, i, ?_⟩
        · rw [releaseRecords, forM_cons, hrun]
          exact hrest
        · -- a slot that jams after the first release jams with all references together
          rw [demand_cons, ← demand_singleton, ← hdemand]
          exact hfirst.drops.jams.2 hi
    · refine Or.inr ⟨s₁, by rw [releaseRecords, forM_cons, hrun], i, hi.mono ?_⟩
      rw [demand_singleton, demand_cons]
      exact Multiset.le_add_right _ _

end Store
end Telemetry
