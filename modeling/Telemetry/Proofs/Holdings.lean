/-
# What the records hold

Each entry of a record's maps holds one reference on its attribute.  The
holdings of a store are the entries of all its records together, and a change
to one record changes them by what that record held and by what it holds then
(`Store.holdings_modifyRecord`).

Records that are held by somebody are in no pool; those in a pool are blank
and at home (`Store.Housed`).  The books of a store (`Store.Books`) put both
sides together: the references on the slots are the entries of the maps and
those of the ledger, and every entry stands under the category and the name of
its attribute.
-/

import Telemetry.Proofs.Ledger

namespace Telemetry

open Trace

namespace Trace.Record

/-- The attributes of a record, each as often as an entry holds it. -/
def held (r : Record) : Multiset SlotId :=
  r.intrinsics.total ({·}) + r.agent.total ({·}) + r.user.total ({·})

/-- What a record holds is what its three maps hold. -/
theorem held_eq (r : Record) :
    r.held = (Category.all.map fun k => (r.attributes k).total ({·})).sum := by
  simp only [held, Category.all, attributes, List.map_cons, List.map_nil, List.sum_cons,
    List.sum_nil]
  abel

/-- Replacing one map of a record leaves the other two. -/
@[simp] theorem attributes_setAttributes (r : Record) (m : Keyed SlotId) (k j : Category) :
    (r.setAttributes m k).attributes j = if k = j then m else r.attributes j := by
  cases k <;> cases j <;> rfl

/-- The maps of a record change one at a time. -/
theorem held_setAttributes (r : Record) (m : Keyed SlotId) (k : Category) :
    (r.setAttributes m k).held + (r.attributes k).total ({·}) = r.held + m.total ({·}) := by
  cases k <;> simp only [held, setAttributes, attributes] <;> abel

/-- A record holds what stands under some category and name. -/
theorem mem_held {r : Record} {i : SlotId} :
    i ∈ r.held ↔ ∃ k n, (r.attributes k).get? n = some i := by
  have htotal : ∀ m : Keyed SlotId, i ∈ m.total ({·}) ↔ ∃ n, m.get? n = some i := by
    intro m
    simp [Keyed.mem_total]
  simp only [held, Multiset.mem_add, htotal]
  constructor
  · rintro ((⟨n, h⟩ | ⟨n, h⟩) | ⟨n, h⟩)
    · exact ⟨.intrinsic, n, h⟩
    · exact ⟨.agent, n, h⟩
    · exact ⟨.user, n, h⟩
  · rintro ⟨k, n, h⟩
    cases k
    · exact Or.inl (Or.inl ⟨n, h⟩)
    · exact Or.inl (Or.inr ⟨n, h⟩)
    · exact Or.inr ⟨n, h⟩

/-- A fresh record holds nothing. -/
@[simp] theorem held_default : (default : Record).held = 0 := rfl

/-- A record without anything of a span. -/
structure Blank (r : Record) : Prop where
  traceId : r.traceId = ""
  spanId : r.spanId = ""
  priority : r.priority = .zero false
  held : r.held = 0

/-- Identifying a span changes no attribute of it. -/
@[simp] theorem attributes_identify (r : Record) (n : String) (v : Option Value) (k : Category) :
    (r.identify n v).attributes k = r.attributes k := by
  unfold identify
  split_ifs <;> cases k <;> rfl

/-- What a record holds is told by its maps. -/
theorem held_of_attributes {r q : Record} (h : ∀ k, q.attributes k = r.attributes k) :
    q.held = r.held := by
  rw [held_eq, held_eq]
  simp only [h]

end Trace.Record

namespace Store

variable {s s' s'' : Store} {L : Ledger} {H : Multiset RecordId} {r : RecordId}

/-- The entries of all records. -/
def holdings (s : Store) : Multiset SlotId :=
  ∑ r ∈ Finset.range s.records.size, (s.record r).held

/-- A record holds a part of what all records hold. -/
theorem held_le_holdings (s : Store) (r : RecordId) : (s.record r).held ≤ s.holdings := by
  by_cases hr : r < s.records.size
  · rw [holdings, ← Finset.add_sum_erase _ _ (Finset.mem_range.2 hr)]
    exact Multiset.le_add_right _ _
  · rw [record_of_size_le (not_lt.1 hr)]
    exact Multiset.zero_le _

/-- What is held at all stands under a category and a name of some record. -/
theorem mem_holdings {i : SlotId} :
    i ∈ s.holdings ↔ ∃ r k n, ((s.record r).attributes k).get? n = some i := by
  constructor
  · intro h
    obtain ⟨r, -, hr⟩ := Multiset.mem_sum.1 h
    exact ⟨r, Record.mem_held.1 hr⟩
  · rintro ⟨r, h⟩
    exact Multiset.mem_of_le (held_le_holdings s r) (Record.mem_held.2 h)

/-- What is held is the same if each record holds the same. -/
theorem holdings_congr (hsize : s'.records.size = s.records.size)
    (h : ∀ r, (s'.record r).held = (s.record r).held) : s'.holdings = s.holdings := by
  simp only [holdings, hsize, h]

/-- Changes of slots alone change no entry. -/
theorem OnlySlots.holdings (h : OnlySlots s s') : s'.holdings = s.holdings :=
  holdings_congr (by rw [h.records]) fun r => by rw [h.record]

/-- **A change to one record exchanges its entries.** -/
theorem holdings_modifyRecord (f : Record → Record) (hr : r < s.records.size) :
    (s.modifyRecord r f).holdings + (s.record r).held =
      s.holdings + (f (s.record r)).held := by
  have hmem : r ∈ Finset.range s.records.size := Finset.mem_range.2 hr
  have hrest : ∀ q ∈ (Finset.range s.records.size).erase r,
      ((s.modifyRecord r f).record q).held = (s.record q).held := by
    intro q hq
    rw [record_modifyRecord_ne (Finset.ne_of_mem_erase hq).symm]
  simp only [holdings, size_modifyRecord]
  rw [← Finset.add_sum_erase _ _ hmem, ← Finset.add_sum_erase _ (fun q => (s.record q).held) hmem,
    record_modifyRecord_self hr, Finset.sum_congr rfl hrest]
  abel

/-- A change that keeps the maps of a record keeps the holdings. -/
theorem holdings_modifyRecord_of_held {f : Record → Record}
    (hf : (f (s.record r)).held = (s.record r).held) :
    (s.modifyRecord r f).holdings = s.holdings := by
  by_cases hr : r < s.records.size
  · have h := holdings_modifyRecord (s := s) f hr
    rw [hf] at h
    exact add_right_cancel h
  · refine holdings_congr (size_modifyRecord ..) fun q => ?_
    rw [record_modifyRecord, if_neg fun h => hr h.2]

/-- Two records make their demands side by side. -/
theorem held_add_held_le {q : RecordId} (hq : q ≠ r) :
    (s.record q).held + (s.record r).held ≤ s.holdings := by
  by_cases hr : r < s.records.size
  · have hexchange := holdings_modifyRecord (s := s) (fun _ => default) hr
    rw [Record.held_default, add_zero] at hexchange
    have hle := held_le_holdings (s.modifyRecord r fun _ => default) q
    rw [record_modifyRecord_ne hq.symm] at hle
    exact hexchange ▸ add_le_add_left hle _
  · rw [record_of_size_le (not_lt.1 hr), Record.held_default, add_zero]
    exact held_le_holdings s q

/-- A record that is made empty holds nothing more. -/
theorem holdings_push (s : Store) {record : Record} (hrecord : record.held = 0) :
    ({ s with records := s.records.push record } : Store).holdings = s.holdings := by
  simp only [holdings, Array.size_push, Finset.sum_range_succ]
  rw [record_push, if_pos rfl, hrecord, add_zero]
  refine Finset.sum_congr rfl fun q hq => ?_
  rw [record_push, if_neg (Finset.mem_range.1 hq).ne]

/-! ### Records in hand and in pools -/

/-- The records `H` are in somebody's hands, each in one place, and the pools
hold blank records only. -/
structure Housed (s : Store) (H : Multiset RecordId) : Prop where
  once : H.Nodup
  there : ∀ r ∈ H, r < s.records.size
  unmarked : ∀ r ∈ H, (s.record r).marked = false
  stored : ∀ p, ∀ r ∈ (s.set p).records.stored,
    (s.record r).Blank ∧ (s.record r).marked = true ∧ (s.record r).home = some p
  apart : ∀ p, (s.set p).records.stored.Nodup

namespace Housed

/-- A record that is not marked is in no pool. -/
theorem not_stored (h : Housed s H) {p : SetId} (hr : (s.record r).marked = false) :
    r ∉ (s.set p).records.stored := fun hs => by
  rw [(h.stored p r hs).2.1] at hr
  exact absurd hr (by decide)

/-- Fewer records are in hand in one place each, too. -/
theorem mono (h : Housed s H) {H' : Multiset RecordId} (hH : H' ≤ H) : Housed s H' :=
  ⟨Multiset.nodup_of_le hH h.once, fun r hr => h.there r (Multiset.mem_of_le hH hr),
    fun r hr => h.unmarked r (Multiset.mem_of_le hH hr), h.stored, h.apart⟩

/-- The pools may lose what they hold. -/
theorem of_stock (h : Housed s H) (hs : s'.records = s.records)
    (hp : ∀ p, (s'.set p).records.stored.Sublist (s.set p).records.stored) : Housed s' H := by
  have hrecord : ∀ r, s'.record r = s.record r := fun r => by simp only [record, hs]
  refine ⟨h.once, fun r hr => ?_, fun r hr => ?_, fun p r hr => ?_, fun p => ?_⟩
  · rw [hs]
    exact h.there r hr
  · rw [hrecord]
    exact h.unmarked r hr
  · rw [hrecord]
    exact h.stored p r ((hp p).subset hr)
  · exact (h.apart p).sublist (hp p)

/-- Changes of slots alone leave records where they are. -/
theorem of_onlySlots (h : Housed s H) (hs : OnlySlots s s') : Housed s' H :=
  h.of_stock hs.records fun p => by rw [hs.stock p]

/-- A record that is blank and in no pool comes into somebody's hands. -/
theorem handOut (h : Housed s H) (hr : r ∉ H) (hout : ∀ p, r ∉ (s.set p).records.stored)
    (hsets : ∀ p, s'.set p = s.set p) (hother : ∀ q, q ≠ r → s'.record q = s.record q)
    (hsize : s.records.size ≤ s'.records.size) (hthere : r < s'.records.size)
    (hmark : (s'.record r).marked = false) : Housed s' (r ::ₘ H) := by
  refine ⟨Multiset.nodup_cons.2 ⟨hr, h.once⟩, fun q hq => ?_, fun q hq => ?_, fun p q hq => ?_,
    fun p => ?_⟩
  · rcases Multiset.mem_cons.1 hq with rfl | hq
    · exact hthere
    · exact (h.there q hq).trans_le hsize
  · rcases Multiset.mem_cons.1 hq with rfl | hq
    · exact hmark
    · rw [hother q fun hqr => hr (hqr ▸ hq)]
      exact h.unmarked q hq
  · rw [hsets] at hq
    rw [hother q fun hqr => hout p (hqr ▸ hq)]
    exact h.stored p q hq
  · rw [hsets]
    exact h.apart p

/-- A record in hand is blanked, marked, and goes to the end of its pool. -/
theorem stash (h : Housed s (r ::ₘ H)) (hother : ∀ q, q ≠ r → s'.record q = s.record q)
    (hsize : s'.records.size = s.records.size) (hblank : (s'.record r).Blank)
    (hmark : (s'.record r).marked = true) (hhome : (s'.record r).home = some p)
    (hsets : ∀ x, (s'.set x).records.stored = (s.set x).records.stored ∨
      x = p ∧ (s'.set x).records.stored = (s.set p).records.stored ++ [r]) : Housed s' H := by
  -- the record was in no pool and is in no other hand
  have hrH : r ∉ H := (Multiset.nodup_cons.1 h.once).1
  have hout : ∀ x, r ∉ (s.set x).records.stored := fun x =>
    h.not_stored (h.unmarked r (Multiset.mem_cons_self r H))
  refine ⟨(Multiset.nodup_cons.1 h.once).2, fun q hq => ?_, fun q hq => ?_, fun x q hq => ?_,
    fun x => ?_⟩
  · rw [hsize]
    exact h.there q (Multiset.mem_cons_of_mem hq)
  · rw [hother q fun hqr => hrH (hqr ▸ hq)]
    exact h.unmarked q (Multiset.mem_cons_of_mem hq)
  · -- this record is stored at home only, blank and marked
    rcases eq_or_ne q r with rfl | hne
    · rcases hsets x with hx | ⟨rfl, -⟩
      · rw [hx] at hq
        exact absurd hq (hout x)
      · exact ⟨hblank, hmark, hhome⟩
    · rw [hother q hne]
      rcases hsets x with hx | ⟨rfl, hx⟩
      · exact h.stored x q (hx ▸ hq)
      · rw [hx, List.mem_append, List.mem_singleton] at hq
        exact h.stored x q (hq.resolve_right hne)
  · rcases hsets x with hx | ⟨rfl, hx⟩
    · rw [hx]
      exact h.apart x
    · rw [hx]
      exact List.nodup_append.2 ⟨h.apart x, List.nodup_singleton r, fun a ha b hb hab =>
        hout x (List.mem_singleton.1 hb ▸ hab ▸ ha)⟩

/-- A record in hand may be written. -/
theorem modifyRecord (h : Housed s H) (hr : r ∈ H) {f : Record → Record}
    (hf : (f (s.record r)).marked = (s.record r).marked) : Housed (s.modifyRecord r f) H := by
  have hself := record_modifyRecord_self (s := s) (h.there r hr) f
  refine ⟨h.once, fun q hq => ?_, fun q hq => ?_, fun p q hq => ?_, h.apart⟩
  · rw [size_modifyRecord]
    exact h.there q hq
  · rcases eq_or_ne q r with rfl | hne
    · rw [hself, hf]
      exact h.unmarked q hq
    · rw [record_modifyRecord_ne hne.symm]
      exact h.unmarked q hq
  · have hne : q ≠ r := fun hqr => h.not_stored (h.unmarked r hr) (hqr ▸ hq)
    rw [record_modifyRecord_ne hne.symm]
    exact h.stored p q hq

end Housed

/-! ### The books -/

/-- Every entry stands under the category and the name of its attribute. -/
def Labelled (s : Store) : Prop :=
  ∀ r k n i, ((s.record r).attributes k).get? n = some i →
    ∃ d, (s.slot i).definition = some d ∧ d.name = n ∧ d.category = k

/-- No deferred value is being computed, and one that was computed has what it
yields. -/
def AtRest (s : Store) : Prop :=
  ∀ c, (s.cell c).progress = .pending ∨ (s.cell c).progress = .finished (s.cell c).yields

/-- Computing deferred values ends with none being computed. -/
theorem AtRest.of_advances (h : AtRest s) (hs : ∀ c, (s.cell c).Advances (s'.cell c)) :
    AtRest s' := by
  intro c
  rw [(hs c).yields]
  rcases (hs c).progress with hp | ⟨-, hp⟩
  · rw [hp]
    exact h c
  · exact Or.inr hp

/-- The references on the slots are the entries of the records and the ledger,
and all that is in a pool is blank. -/
structure Books (s : Store) (L : Ledger) (H : Multiset RecordId) : Prop where
  counted : Counted s (s.holdings + L)
  labelled : Labelled s
  housed : Housed s H
  rest : AtRest s

/-- The books stand for fewer records in hand, too. -/
theorem Books.mono (h : Books s L H) {H' : Multiset RecordId} (hH : H' ≤ H) : Books s L H' :=
  ⟨h.counted, h.labelled, h.housed.mono hH, h.rest⟩

end Store
end Telemetry
