/-
# What releasing records does

When a record is released its entries give up their references, and the slots
that lose the last one are emptied and offered to their pools, but for cached
attributes; then the record is blank and goes to its own pool.  Which slots these
are is a matter of two demands, the one before and the one after
(`Store.Sinks`), and so it does not matter in which order the entries are walked.

All this needs of a store is that the references are balanced and that the
records are in hand (`Store.Balanced`).
-/

import Telemetry.Proofs.Lending

namespace Telemetry

open Trace

namespace Store

variable {s s' s'' : Store} {L : Ledger} {H : Multiset RecordId} {D D' D'' : Multiset SlotId}
  {rs rs' : List RecordId} {i : SlotId} {r : RecordId} {p : SetId}

/-! ### Demands that sink -/

/-- The demand for slots has sunk: those that nobody demands any more were shed,
each once, unless they are cached; and so were some records. -/
structure Sinks (D D' : Multiset SlotId) (rs : List RecordId) (s s' : Store) : Prop where
  le : D' ≤ D
  shed : ∃ zs : List SlotId, zs.Nodup ∧
    (∀ i, i ∈ zs ↔ i ∈ D ∧ i ∉ D' ∧ (s.slot i).isCached = false) ∧ Sheds zs rs s s'

/-- Whether an attribute is cached is no matter of bookkeeping. -/
theorem isCached_of_bare {a b : Slot} (h : a.bare = b.bare) : a.isCached = b.isCached := by
  rw [Slot.isCached, Slot.isCached, Slot.definition_of_bare h]

namespace Sinks

/-- What is still demanded is left alone. -/
theorem bare (h : Sinks D D' rs s s') (hi : i ∈ D') : (s'.slot i).bare = (s.slot i).bare := by
  obtain ⟨zs, -, hzs, hsheds⟩ := h.shed
  exact hsheds.kept i fun hmem => ((hzs i).1 hmem).2.1 hi

/-- Where only records are shed, the demand for slots stays. -/
theorem of_sheds (h : Sheds [] rs s s') : Sinks D D rs s s' := by
  refine ⟨le_rfl, [], List.nodup_nil, fun i => ?_, h⟩
  simp only [List.not_mem_nil, false_iff]
  exact fun hi => hi.2.1 hi.1

/-- **What is shed in turn is shed together,** since what is demanded in between
is as it was before. -/
theorem trans (h : Sinks D D' rs s s') (h' : Sinks D' D'' rs' s' s'')
    (hhome : ∀ r, (s'.record r).home = (s.record r).home) : Sinks D D'' (rs ++ rs') s s'' := by
  have hkept : ∀ i ∈ D', (s'.slot i).isCached = (s.slot i).isCached := fun i hi =>
    isCached_of_bare (h.bare hi)
  have hle := h'.le
  obtain ⟨hle₁, zs, hnodup, hzs, hsheds⟩ := h
  obtain ⟨-, zs', hnodup', hzs', hsheds'⟩ := h'
  refine ⟨hle.trans hle₁, zs ++ zs', List.nodup_append.2 ⟨hnodup, hnodup', ?_⟩, fun i => ?_,
    hsheds.trans hsheds' hhome⟩
  · rintro i hi j hj rfl
    exact ((hzs i).1 hi).2.1 ((hzs' i).1 hj).1
  · rw [List.mem_append, hzs, hzs']
    constructor
    · rintro (⟨hD, hD', hcached⟩ | ⟨hD', hD'', hcached⟩)
      · exact ⟨hD, fun hi => hD' (Multiset.mem_of_le hle hi), hcached⟩
      · exact ⟨Multiset.mem_of_le hle₁ hD', hD'', hkept i hD' ▸ hcached⟩
    · rintro ⟨hD, hD'', hcached⟩
      by_cases hi : i ∈ D'
      · exact Or.inr ⟨hi, hD'', (hkept i hi).trans hcached⟩
      · exact Or.inl ⟨hD, hi, hcached⟩

end Sinks

/-- One reference less: if it was the last one, the slot is shed unless it is cached. -/
theorem removeReference_sinks (h : Counted s (i ::ₘ D)) :
    ∃ b s', removeReference i s = .ok b s' ∧ Counted s' D ∧ OnlySlots s s' ∧
      (∀ j, j ≠ i → s'.slot j = s.slot j) ∧ Sinks (i ::ₘ D) D [] s s' := by
  obtain ⟨b, s', hrun, hc, honly, hrest, hsheds⟩ := removeReference_sheds h
  refine ⟨b, s', hrun, hc, honly, hrest, Multiset.le_cons_self D i, _, ?_, fun j => ?_, hsheds⟩
  · split_ifs
    · exact List.nodup_nil
    · exact List.nodup_singleton i
  · rw [Multiset.mem_cons]
    split_ifs with hlast
    · simp only [List.not_mem_nil, false_iff]
      rintro ⟨rfl | hj, hD, hcached⟩
      · exact hlast.elim hD fun hc => Bool.false_ne_true (hcached.symm.trans hc)
      · exact hD hj
    · rw [List.mem_singleton, not_or, Bool.not_eq_true] at *
      constructor
      · rintro rfl
        exact ⟨Or.inl rfl, hlast⟩
      · exact fun hj => hj.1.resolve_right hj.2.1

/-- References that are given up one after the other. -/
theorem removeReferences_sinks (l : List SlotId) :
    ∀ s, Counted s (↑l + D) →
      ∃ s', (l.forM fun i => discard (removeReference i)) s = .ok () s' ∧ Counted s' D ∧
        OnlySlots s s' ∧ Sinks (↑l + D) D [] s s' := by
  induction l with
  | nil =>
    intro s h
    rw [Multiset.coe_nil, zero_add] at *
    exact ⟨s, rfl, h, OnlySlots.refl s, Sinks.of_sheds (Sheds.refl s)⟩
  | cons i l ih =>
    intro s h
    rw [← Multiset.cons_coe, Multiset.cons_add] at *
    obtain ⟨b, s₁, hrun, hc₁, honly₁, -, hsinks₁⟩ := removeReference_sinks h
    obtain ⟨s₂, hrest, hc₂, honly₂, hsinks₂⟩ := ih s₁ hc₁
    refine ⟨s₂, ?_, hc₂, honly₁.trans honly₂, hsinks₁.trans hsinks₂ fun r => by rw [honly₁.record]⟩
    rw [Action.forM_cons, Action.discard_apply, hrun]
    exact hrest

/-! ### Records -/

/-- The references are balanced, and the records are in hand. -/
structure Balanced (s : Store) (L : Ledger) (H : Multiset RecordId) : Prop where
  counted : Counted s (s.holdings + L)
  housed : Housed s H

/-- The books are balanced. -/
theorem Books.balanced (h : Books s L H) : Balanced s L H := ⟨h.counted, h.housed⟩

/-- Nothing differs but some records, slots, pools, the clock and the log. -/
structure Confined (rs : List RecordId) (s s' : Store) : Prop where
  record : ∀ q, q ∉ rs → s'.record q = s.record q
  home : ∀ q, (s'.record q).home = (s.record q).home
  size : s'.records.size = s.records.size
  cells : s'.cells = s.cells
  handles : s'.handles = s.handles

namespace Confined

/-- Nothing differs at all. -/
theorem refl (rs : List RecordId) (s : Store) : Confined rs s s :=
  ⟨fun _ _ => rfl, fun _ => rfl, rfl, rfl, rfl⟩

/-- What is confined twice is confined. -/
theorem trans (h : Confined rs s s') (h' : Confined rs s' s'') : Confined rs s s'' :=
  ⟨fun q hq => (h'.record q hq).trans (h.record q hq), fun q => (h'.home q).trans (h.home q),
    h'.size.trans h.size, h'.cells.trans h.cells, h'.handles.trans h.handles⟩

/-- What is confined to some records is confined to more of them. -/
theorem mono (h : Confined rs s s') (hrs : rs ⊆ rs') : Confined rs' s s' :=
  ⟨fun q hq => h.record q fun hmem => hq (hrs hmem), h.home, h.size, h.cells, h.handles⟩

/-- Changes of slots alone are confined to any records. -/
theorem of_onlySlots (h : OnlySlots s s') : Confined rs s s' :=
  ⟨fun q _ => h.record q, fun q => by rw [h.record], by rw [h.records], h.cells, h.handles⟩

/-- A change of one record is confined to it, if the record keeps its home. -/
theorem modifyRecord {f : Record → Record} (hf : ∀ a : Record, (f a).home = a.home) :
    Confined [r] s (s.modifyRecord r f) := by
  refine ⟨fun q hq => ?_, fun q => ?_, size_modifyRecord .., rfl, rfl⟩
  · exact record_modifyRecord_ne (fun hrq => hq (List.mem_singleton.2 hrq.symm)) f
  · rw [record_modifyRecord]
    split_ifs
    · exact hf _
    · rfl

/-- What a record held goes, and what it holds now comes. -/
theorem exchange (h : Confined [r] s s') (hr : r < s.records.size) :
    s'.holdings + (s.record r).held = s.holdings + (s'.record r).held := by
  have hexchange := holdings_modifyRecord (s := s) (fun _ => s'.record r) hr
  rw [← hexchange]
  refine congrArg (· + _) (holdings_congr ?_ fun q => ?_)
  · rw [size_modifyRecord, h.size]
  · rcases eq_or_ne q r with rfl | hq
    · rw [record_modifyRecord_self hr]
    · rw [record_modifyRecord_ne hq.symm, h.record q (mt List.mem_singleton.1 hq)]

/-- What a record held that is blank now. -/
theorem holdings (h : Confined [r] s s') (hr : r < s.records.size) (hb : (s'.record r).Blank) :
    s'.holdings + (s.record r).held = s.holdings := by
  rw [h.exchange hr, hb.held, add_zero]

end Confined

/-- The entries of a category give up their references. -/
theorem clearCategory_sinks (h : Balanced s L H) (hr : r ∈ H) (k : Category) :
    ∃ s', clearCategory r k s = .ok () s' ∧ Balanced s' L H ∧
      Sinks (s.holdings + L) (s'.holdings + L) [] s s' ∧ Confined [r] s s' ∧
      s'.record r = (s.record r).setAttributes .empty k := by
  have hthere := h.housed.there r hr
  set s₁ := s.modifyRecord r fun record => record.setAttributes .empty k with hs₁
  -- the entries are taken out of the holdings
  have hdemand : s.holdings + L = ↑((s.record r).attributes k).values + (s₁.holdings + L) := by
    have hexchange := holdings_modifyRecord (fun record => record.setAttributes .empty k) hthere
    have hheld := (s.record r).held_setAttributes .empty k
    rw [Keyed.total_empty, add_zero, Keyed.total_singleton] at hheld
    refine add_right_cancel (b := ((s.record r).setAttributes .empty k).held) ?_
    calc s.holdings + L + ((s.record r).setAttributes .empty k).held
        = s.holdings + ((s.record r).setAttributes .empty k).held + L := by abel
      _ = s₁.holdings + (s.record r).held + L := by rw [← hexchange]
      _ = _ := by rw [← hheld]; abel
  have hc₁ : Counted s₁ (↑((s.record r).attributes k).values + (s₁.holdings + L)) :=
    (h.counted.congr hdemand).of_stock rfl fun _ => List.Sublist.refl _
  have hhoused₁ : Housed s₁ H := h.housed.modifyRecord hr (by cases k <;> rfl)
  obtain ⟨s₂, hrun, hc₂, honly, hsinks⟩ := removeReferences_sinks _ s₁ hc₁
  have hsame : Sheds [] [] s s₁ := Sheds.of_eq (fun _ => ⟨rfl, rfl⟩) rfl
  have hconfined : Confined [r] s s₁ := Confined.modifyRecord fun a => by cases k <;> rfl
  refine ⟨s₂, ?_, ⟨?_, hhoused₁.of_onlySlots honly⟩, ?_,
    hconfined.trans (Confined.of_onlySlots honly), ?_⟩
  · simp only [clearCategory, Action.bind_apply, Action.get_apply, Action.modify_apply, ← hs₁, hrun]
  · rw [honly.holdings]
    exact hc₂
  · rw [hdemand, honly.holdings]
    exact (Sinks.of_sheds hsame).trans hsinks hconfined.home
  · rw [honly.record, hs₁, record_modifyRecord_self hthere]

/-- **A record without entries leaves the hands for the pool it came from.** -/
theorem Balanced.of_returns (h : Balanced s L (r ::ₘ H)) (hs : Returns r s s')
    (hheld : (s.record r).held = 0) (hhoused : Housed s' H) :
    Balanced s' L H ∧ s'.holdings = s.holdings ∧ Sheds [] [r] s s' ∧ Confined [r] s s' := by
  have hslot : ∀ i, s'.slot i = s.slot i := fun i => by simp only [slot, hs.slots]
  have hholdings : s'.holdings = s.holdings := holdings_congr hs.size fun q => by
    rcases eq_or_ne q r with rfl | hq
    · rw [hs.blank.held, hheld]
    · rw [hs.others q hq]
  refine ⟨⟨?_, hhoused⟩, hholdings, Sheds.of_put (fun i => ?_) hs.sets hs.offered,
    fun q hq => hs.others q (mt List.mem_singleton.2 hq), hs.home, hs.size, hs.cells, hs.handles⟩
  · rw [hholdings]
    exact h.counted.of_stock hs.slots fun p => by rw [(hs.stock p).1]
  · rw [hslot]
    exact ⟨rfl, rfl⟩

/-- What a store is after some records in hand were released: they are blank and
hold nothing, and what nobody demands any more was shed. -/
structure Frees (L : Ledger) (H : Multiset RecordId) (rs : List RecordId) (s s' : Store) :
    Prop where
  balanced : Balanced s' L H
  sinks : Sinks (s.holdings + L) (s'.holdings + L) rs s s'
  confined : Confined rs s s'
  blank : ∀ r ∈ rs, (s'.record r).Blank
  holdings : s'.holdings + (rs.map fun r => (s.record r).held).sum = s.holdings

/-- One record is released and then the others. -/
theorem Frees.cons (h : Frees L (↑rs + H) [r] s s') (h' : Frees L H rs s' s'') (hr : r ∉ rs) :
    Frees L H (r :: rs) s s'' := by
  have hother : ∀ q ∈ rs, s'.record q = s.record q := fun q hq =>
    h.confined.record q fun hqr => hr (List.mem_singleton.1 hqr ▸ hq)
  refine ⟨h'.balanced, h.sinks.trans h'.sinks h.confined.home,
    (h.confined.mono (List.cons_subset.2 ⟨List.mem_cons_self, List.nil_subset _⟩)).trans
      (h'.confined.mono (List.subset_cons_self r rs)), fun q hq => ?_, ?_⟩
  · rcases List.mem_cons.1 hq with rfl | hq
    · rw [h'.confined.record q hr]
      exact h.blank q List.mem_cons_self
    · exact h'.blank q hq
  · have hlast := h'.holdings
    have hfirst := h.holdings
    rw [List.map_congr_left fun q hq => by rw [hother q hq]] at hlast
    rw [List.map_singleton, List.sum_singleton] at hfirst
    rw [List.map_cons, List.sum_cons, add_left_comm, hlast, add_comm, hfirst]

/-- **A record in hand can be released.**  Its entries give up their references,
and it is blank afterwards. -/
theorem releaseRecord_frees (h : Balanced s L (r ::ₘ H)) :
    ∃ s', releaseRecord r s = .ok () s' ∧ Frees L H [r] s s' := by
  have hr : r ∈ r ::ₘ H := Multiset.mem_cons_self r H
  obtain ⟨s₁, h₁, hb₁, hs₁, hc₁, hr₁⟩ := clearCategory_sinks h hr .intrinsic
  obtain ⟨s₂, h₂, hb₂, hs₂, hc₂, hr₂⟩ := clearCategory_sinks hb₁ hr .agent
  obtain ⟨s₃, h₃, hb₃, hs₃, hc₃, hr₃⟩ := clearCategory_sinks hb₂ hr .user
  have hempty : ∀ k, (s₃.record r).attributes k = .empty := fun k => by
    rw [hr₃, hr₂, hr₁]
    cases k <;> rfl
  have hc₁₃ : Confined [r] s s₃ := (hc₁.trans hc₂).trans hc₃
  have hs₁₃ : Sinks (s.holdings + L) (s₃.holdings + L) [] s s₃ :=
    (hs₁.trans hs₂ hc₁.home).trans hs₃ (hc₁.trans hc₂).home
  have hclear : Category.all.forM (clearCategory r) s = .ok () s₃ := by
    simp only [Category.all, Action.forM_cons, Action.forM_nil, h₁, h₂, h₃]
  obtain ⟨s₄, hrun, hreturns, hhoused⟩ := hb₃.housed.releaseRecord_returns hclear hempty
  obtain ⟨hb₄, hholdings, hsheds, hc₄⟩ :=
    hb₃.of_returns hreturns (Record.held_of_empty hempty) hhoused
  refine ⟨s₄, hrun, hb₄, ?_, hc₁₃.trans hc₄, fun q hq => ?_, ?_⟩
  · rw [hholdings]
    exact hs₁₃.trans (Sinks.of_sheds hsheds) hc₁₃.home
  · rw [List.mem_singleton.1 hq]
    exact hreturns.blank
  · rw [List.map_singleton, List.sum_singleton]
    exact (hc₁₃.trans hc₄).holdings (h.housed.there r hr) hreturns.blank

/-- **Records in hand can be released.** -/
theorem releaseRecords_frees (rs : List RecordId) :
    ∀ s, Balanced s L (↑rs + H) → ∃ s', releaseRecords rs s = .ok () s' ∧ Frees L H rs s s' := by
  induction rs with
  | nil =>
    intro s h
    rw [Multiset.coe_nil, zero_add] at h
    exact ⟨s, rfl, h, Sinks.of_sheds (Sheds.refl s), Confined.refl [] s, nofun, add_zero _⟩
  | cons r rs ih =>
    intro s h
    rw [← Multiset.cons_coe, Multiset.cons_add] at h
    obtain ⟨s₁, hrun, hfirst⟩ := releaseRecord_frees h
    obtain ⟨s₂, hrest, hrecords⟩ := ih s₁ hfirst.balanced
    refine ⟨s₂, by rw [releaseRecords, Action.forM_cons, hrun]; exact hrest,
      hfirst.cons hrecords fun hr => ?_⟩
    exact (Multiset.nodup_cons.1 h.housed.once).1 (Multiset.mem_add.2 (Or.inl hr))

end Store
end Telemetry
