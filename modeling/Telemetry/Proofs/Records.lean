/-
# Moves of the books

An operation that keeps the books takes the store from one state of them to
another: `Moves P W s L H s'` says that the books of `s'` stand at the ledger
`L` and the records in hand `H`, that the records in `P` were left alone, and
that of the attributes they hold only those in `W` may have been written.

Moves compose, so an operation is followed step by step.  A record is leased
blank and enters the hands (`leaseRecord_moves`); when it is released it gives
up a reference for every entry and leaves them (`releaseRecord_moves`).
Neither can be broken off.
-/

import Telemetry.Proofs.Release

namespace Telemetry

open Trace

namespace Store

variable {s s' s'' : Store} {L L' L'' : Ledger} {H H' H'' : Multiset RecordId}
  {P P' : RecordId → Prop} {W W' : SlotId → Prop} {i : SlotId} {r : RecordId} {p : SetId}

/-- The records in `P` are left alone, and of the attributes they hold only
those in `W` may be written; no deferred value is lost or turns into another
one. -/
structure Spares (P : RecordId → Prop) (W : SlotId → Prop) (s s' : Store) : Prop where
  record : ∀ r, P r → s'.record r = s.record r
  kept : ∀ r, P r → Kept (s.record r).held W s s'
  size : s.cells.size ≤ s'.cells.size
  cells : ∀ c, c < s.cells.size → (s.cell c).Advances (s'.cell c)

namespace Spares

/-- Nothing is done to any record. -/
theorem refl (P : RecordId → Prop) (W : SlotId → Prop) (s : Store) : Spares P W s s :=
  ⟨fun _ _ => rfl, fun _ _ => Kept.refl _ _ _, le_rfl, fun _ _ => Cell.Advances.refl _⟩

/-- Records that are spared twice are spared. -/
theorem trans (h : Spares P W s s') (h' : Spares P W s' s'') : Spares P W s s'' := by
  refine ⟨fun r hr => (h'.record r hr).trans (h.record r hr), fun r hr => ?_,
    h.size.trans h'.size, fun c hc => (h.cells c hc).trans (h'.cells c (hc.trans_le h.size))⟩
  have hlater := h'.kept r hr
  rw [h.record r hr] at hlater
  exact (h.kept r hr).trans hlater

/-- Fewer records are spared where more may be written. -/
theorem mono (h : Spares P W s s') (hP : ∀ r, P' r → P r)
    (hW : ∀ r, P' r → ∀ i ∈ (s.record r).held, W i → W' i) : Spares P' W' s s' :=
  ⟨fun r hr => h.record r (hP r hr),
    fun r hr => (h.kept r (hP r hr)).mono (fun _ hi => hi) (hW r hr), h.size, h.cells⟩

end Spares

/-- The books stand at the ledger `L` and the records in hand `H` afterwards,
and the records in `P` are left alone; what computing a deferred value does is
as it was. -/
structure Moves (P : RecordId → Prop) (W : SlotId → Prop) (s : Store) (L : Ledger)
    (H : Multiset RecordId) (s' : Store) : Prop where
  books : Books s' L H
  spares : Spares P W s s'
  handles : s'.handles = s.handles
  effects : ∀ c, (s'.cell c).effects = (s.cell c).effects

namespace Moves

/-- Nothing moves, and the books stay. -/
theorem refl (h : Books s L H) : Moves P W s L H s :=
  ⟨h, Spares.refl P W s, rfl, fun _ => rfl⟩

/-- One move and then another one. -/
theorem trans (h : Moves P W s L' H' s') (h' : Moves P W s' L'' H'' s'') :
    Moves P W s L'' H'' s'' :=
  ⟨h'.books, h.spares.trans h'.spares, h'.handles.trans h.handles,
    fun c => (h'.effects c).trans (h.effects c)⟩

/-- What names stand for is not moved. -/
theorem named (h : Moves P W s L H s') (hN : Named W' s) : Named W' s' := by
  intro c e he i hi
  rw [h.effects] at he
  rw [h.handles] at hi
  exact hN c e he i hi

/-- Records may be let go of. -/
theorem release (h : Moves P W s L H s') (hH : H' ≤ H) : Moves P W s L H' s' :=
  ⟨h.books.mono hH, h.spares, h.handles, h.effects⟩

/-- A weaker promise about other records. -/
theorem mono (h : Moves P W s L H s') (hP : ∀ r, P' r → P r)
    (hW : ∀ r, P' r → ∀ i ∈ (s.record r).held, W i → W' i) : Moves P' W' s L H s' :=
  ⟨h.books, h.spares.mono hP hW, h.handles, h.effects⟩

/-- Fewer records are known to be left alone. -/
theorem only (h : Moves P W s L H s') (hP : ∀ r, P' r → P r) : Moves P' W s L H s' :=
  h.mono hP fun _ _ _ _ hi => hi

end Moves

/-! ### On the side of the attributes -/

namespace Books

/-- **The books move where the demand is met and every attribute that is held
is kept.** -/
theorem moves_of_kept (h : Books s L H) (hrecords : s'.records = s.records)
    (hstock : ∀ p, (s'.set p).records.stored.Sublist (s.set p).records.stored)
    (hhandles : s'.handles = s.handles) (hsize : s'.cells.size = s.cells.size)
    (hcells : ∀ c, (s.cell c).Advances (s'.cell c)) (hc : Counted s' (s.holdings + L'))
    (hk : Kept s.holdings W s s') : Moves P W s L' H s' := by
  have hrecord : ∀ r, s'.record r = s.record r := fun r => by simp only [Store.record, hrecords]
  refine ⟨⟨hc.congr ?_, fun r k n i hi => ?_, h.housed.of_stock hrecords hstock,
    h.rest.of_advances hcells⟩, ⟨fun r _ => hrecord r, fun r _ => ?_, hsize.ge,
    fun c _ => hcells c⟩, hhandles, fun c => (hcells c).effects⟩
  · rw [holdings_congr (by rw [hrecords]) fun r => by rw [hrecord]]
  · rw [hrecord] at hi
    rw [(hk i (mem_holdings.2 ⟨r, k, n, hi⟩)).definition]
    exact h.labelled r k n i hi
  · exact hk.mono (fun i hi => Multiset.mem_of_le (held_le_holdings s r) hi) fun _ _ hi => hi

/-- Changes of slots alone move no record, if the references are counted again afterwards. -/
theorem moves_of_onlySlots (h : Books s L H) (ho : OnlySlots s s')
    (hc : Counted s' (s.holdings + L')) (hk : Kept s.holdings W s s') : Moves P W s L' H s' := by
  refine h.moves_of_kept ho.records (fun p => ?_) ho.handles (by rw [ho.cells]) (fun c => ?_) hc hk
  · rw [ho.stock p]
  · simp only [cell, ho.cells, Cell.Advances.refl]

/-- A computation moves the books. -/
theorem moves_of_computes (h : Books s L H) (hc : Computes s.holdings W s L' s') :
    Moves P W s L' H s' :=
  h.moves_of_kept hc.only.records (fun p => by rw [hc.only.stock p]) hc.only.handles hc.only.size
    hc.only.cells hc.counted hc.kept

/-- Pools that lose what they store, the clock and the log do not show in the
books. -/
theorem moves_of_stock (h : Books s L H) (hslots : s'.slots = s.slots)
    (hrecords : s'.records = s.records) (hcells : s'.cells = s.cells)
    (hhandles : s'.handles = s.handles)
    (hs : ∀ p, (s'.set p).slots.stored.Sublist (s.set p).slots.stored)
    (hr : ∀ p, (s'.set p).records.stored.Sublist (s.set p).records.stored) :
    Moves P W s L H s' := by
  refine h.moves_of_kept hrecords hr hhandles (by rw [hcells]) (fun c => ?_)
    (h.counted.of_stock hslots hs) (Kept.of_slot fun i _ => ?_)
  · simp only [cell, hcells, Cell.Advances.refl]
  · simp only [slot, hslots]

/-- A pool set changes, and its pools store nothing new. -/
theorem moves_of_modifySet (h : Books s L H) (p : SetId) {f : PoolSet → PoolSet}
    (hs : (f (s.set p)).slots.stored.Sublist (s.set p).slots.stored)
    (hr : (f (s.set p)).records.stored.Sublist (s.set p).records.stored) :
    Moves P W s L H (s.modifySet p f) := by
  refine h.moves_of_stock rfl rfl rfl rfl (fun q => ?_) fun q => ?_ <;> rw [set_modifySet] <;>
    split_ifs with hq
  · exact hq.1 ▸ hs
  · exact List.Sublist.refl _
  · exact hq.1 ▸ hr
  · exact List.Sublist.refl _

/-- **An attribute is made in a slot that nobody holds on to.** -/
theorem createAttribute_moves (h : Books s L H) (p : SetId) (d : Definition) :
    ∃ i s', createAttribute p d s = .ok i s' ∧ Moves P W s L H s' ∧ OnlySlots s s' ∧
      s'.slot i = { definition := some d, home := some p } ∧ i ∉ s.holdings + L := by
  obtain ⟨i, s', hrun, hc, honly, hself, hfree, hrest⟩ := createAttribute_counted h.counted p d
  have hi : i ∉ s.holdings + L := h.counted.not_mem hfree
  refine ⟨i, s', hrun, h.moves_of_onlySlots honly hc (Kept.of_slot fun j hj => hrest j ?_), honly,
    hself, hi⟩
  exact fun hji => hi (hji ▸ Multiset.mem_add.2 (Or.inl hj))

/-- A reference that is taken goes to the ledger. -/
theorem addReference_moves (h : Books s L H) (hi : (s.slot i).definition ≠ none) (hW : W i) :
    ∃ s', addReference i s = .ok () s' ∧ Moves P W s (i ::ₘ L) H s' := by
  obtain ⟨s', hrun, hc, honly, hkept, -⟩ := addReference_keeps h.counted hi hW
  exact ⟨s', hrun, h.moves_of_onlySlots honly (hc.congr (Multiset.add_cons ..).symm)
    (hkept.mono (fun _ hj => Multiset.mem_cons_of_mem hj) fun _ _ hj => hj)⟩

/-- A reference that is given up leaves the ledger. -/
theorem removeReference_moves (h : Books s (i ::ₘ L) H) :
    ∃ b s', removeReference i s = .ok b s' ∧ Moves P W s L H s' := by
  obtain ⟨b, s', hrun, hc, honly, hkept, -⟩ :=
    removeReference_keeps (W := W) (h.counted.congr (Multiset.add_cons i s.holdings L))
  exact ⟨b, s', hrun, h.moves_of_onlySlots honly hc hkept⟩

/-- A write to an attribute that may be written. -/
theorem modifySlot_moves (h : Books s L H) {f : Slot → Slot}
    (hf : (s.slot i).Writes (f (s.slot i))) (hW : W i) : Moves P W s L H (s.modifySlot i f) := by
  refine h.moves_of_onlySlots ⟨rfl, fun _ => rfl, rfl, rfl⟩
    (h.counted.of_writes (fun j => ?_) fun _ => rfl) (Kept.modifySlot hf hW)
  rw [slot_modifySlot]
  split_ifs with hj
  · obtain ⟨rfl, -⟩ := hj
    exact hf
  · exact Slot.writes_refl _

/-! ### On the side of the records -/

/-- **A record in hand changes together with slots.**  The demand that it then
makes has to be met, and its entries have to stand in their places. -/
theorem exchange_moves (h : Books s L H) (hr : r ∈ H) {f : Record → Record} (ho : OnlySlots s s')
    (hm : (f (s.record r)).marked = (s.record r).marked)
    (hc : Counted s' ((s'.modifyRecord r f).holdings + L'))
    (hk : ∀ q, q ≠ r → Kept (s.record q).held W s s')
    (hlabels : ∀ k n i, ((f (s.record r)).attributes k).get? n = some i →
      ∃ d, (s'.slot i).definition = some d ∧ d.name = n ∧ d.category = k) :
    Moves (· ≠ r) W s L' H (s'.modifyRecord r f) := by
  have hthere : r < s'.records.size := by
    rw [ho.records]
    exact h.housed.there r hr
  have hself : (s'.modifyRecord r f).record r = f (s.record r) := by
    rw [record_modifyRecord_self hthere, ho.record]
  have hother : ∀ q, q ≠ r → (s'.modifyRecord r f).record q = s.record q := fun q hq => by
    rw [record_modifyRecord_ne hq.symm, ho.record]
  have hcell : ∀ c, (s'.modifyRecord r f).cell c = s.cell c := fun c => by
    simp only [cell, modifyRecord, ho.cells]
  -- the books in the order of their clauses: entries, records, deferred values
  refine ⟨⟨hc.of_stock rfl fun _ => List.Sublist.refl _, fun q k n i hi => ?_,
    (h.housed.of_onlySlots ho).modifyRecord hr (by rw [ho.record, hm]),
    fun c => ?_⟩, ⟨hother, hk, (show s'.cells.size = s.cells.size by rw [ho.cells]).ge,
    fun c _ => ?_⟩, ho.handles, fun c => ?_⟩
  · rcases eq_or_ne q r with rfl | hq
    · rw [hself] at hi
      exact hlabels k n i hi
    · rw [hother q hq] at hi
      obtain ⟨d, hd, hn, hk'⟩ := h.labelled q k n i hi
      exact ⟨d, ((hk q hq) i (Record.mem_held.2 ⟨k, n, hi⟩)).definition.trans hd, hn, hk'⟩
  · rw [hcell]
    exact h.rest c
  · rw [hcell]
    exact Cell.Advances.refl _
  · rw [hcell]

/-- **A record in hand changes, and the ledger takes over the references that
its entries give up or lends those that they need.** -/
theorem modifyRecord_moves (h : Books s L H) (hr : r ∈ H) {f : Record → Record}
    (hm : (f (s.record r)).marked = (s.record r).marked)
    (hheld : (f (s.record r)).held + L' = (s.record r).held + L)
    (hlabels : ∀ k n i, ((f (s.record r)).attributes k).get? n = some i →
      ∃ d, (s.slot i).definition = some d ∧ d.name = n ∧ d.category = k) :
    Moves (· ≠ r) W s L' H (s.modifyRecord r f) := by
  refine h.exchange_moves hr (OnlySlots.refl s) hm (h.counted.congr ?_) (fun q _ => Kept.refl _ _ _)
    hlabels
  have hexchange := holdings_modifyRecord f (h.housed.there r hr)
  refine (add_right_cancel (b := (s.record r).held) ?_).symm
  calc (s.modifyRecord r f).holdings + L' + (s.record r).held
      = (s.modifyRecord r f).holdings + (s.record r).held + L' := by abel
    _ = s.holdings + ((f (s.record r)).held + L') := by rw [hexchange]; abel
    _ = s.holdings + L + (s.record r).held := by rw [hheld]; abel

/-- A change that leaves the maps of a record alone. -/
theorem touchRecord_moves (h : Books s L H) (hr : r ∈ H) {f : Record → Record}
    (hm : (f (s.record r)).marked = (s.record r).marked)
    (hf : ∀ k, (f (s.record r)).attributes k = (s.record r).attributes k) :
    Moves (· ≠ r) W s L H (s.modifyRecord r f) := by
  refine h.modifyRecord_moves hr hm (by rw [Record.held_of_attributes hf]) fun k n i hi => ?_
  rw [hf] at hi
  exact h.labelled r k n i hi

end Books

/-! ### Release -/

/-- **The books move where records are released.** -/
theorem Books.moves_of_frees {rs : List RecordId} (h : Books s L (↑rs + H))
    (hf : Frees L H rs s s') : Moves (· ∉ rs) W s L H s' := by
  have hcell : ∀ c, s'.cell c = s.cell c := fun c => by simp only [cell, hf.confined.cells]
  have hbare : ∀ i ∈ s'.holdings, (s'.slot i).bare = (s.slot i).bare := fun i hi =>
    hf.sinks.bare (Multiset.mem_add.2 (Or.inl hi))
  refine ⟨⟨hf.balanced.counted, fun q k n i hi => ?_, hf.balanced.housed, fun c => ?_⟩,
    ⟨hf.confined.record, fun q hq => ?_, by rw [hf.confined.cells], fun c _ => ?_⟩,
    hf.confined.handles, fun c => by rw [hcell]⟩
  · by_cases hq : q ∈ rs
    · -- a blank record has no entries
      have hheld := Record.mem_held.2 ⟨k, n, hi⟩
      rw [(hf.blank q hq).held] at hheld
      exact absurd hheld (Multiset.notMem_zero i)
    · rw [Slot.definition_of_bare (hbare i (mem_holdings.2 ⟨q, k, n, hi⟩))]
      rw [hf.confined.record q hq] at hi
      exact h.labelled q k n i hi
  · rw [hcell]
    exact h.rest c
  · refine Kept.of_counted h.counted hf.balanced.counted hf.sinks.le fun i hi => hbare i ?_
    rw [← hf.confined.record q hq] at hi
    exact Multiset.mem_of_le (held_le_holdings s' q) hi
  · rw [hcell]
    exact Cell.Advances.refl _

/-- A record in hand can be released, and is blank afterwards. -/
theorem releaseRecord_moves (h : Books s L (r ::ₘ H)) :
    ∃ s', releaseRecord r s = .ok () s' ∧ Moves (· ≠ r) W s L H s' ∧ (s'.record r).Blank := by
  have h' : Books s L (↑[r] + H) := h
  obtain ⟨s', hrun, hf⟩ := releaseRecord_frees h'.balanced
  exact ⟨s', hrun, (h'.moves_of_frees hf).only fun _ => mt List.mem_singleton.1,
    hf.blank r List.mem_cons_self⟩

/-- Records that are released one after the other. -/
theorem releaseRecords_moves (rs : List RecordId) (s : Store) (h : Books s L (↑rs + H)) :
    ∃ s', releaseRecords rs s = .ok () s' ∧ Moves (· ∉ rs) W s L H s' := by
  obtain ⟨s', hrun, hf⟩ := releaseRecords_frees rs s h.balanced
  exact ⟨s', hrun, h.moves_of_frees hf⟩

/-! ### Lease -/

/-- The books move where only a record changes that is blank then. -/
theorem Books.moves_of_blank (h : Books s L H) (hs : OnlyRecords s s')
    (hother : ∀ q, q ≠ r → s'.record q = s.record q) (hblank : (s'.record r).Blank)
    (hholdings : s'.holdings = s.holdings) (hhoused : Housed s' H') :
    Moves (· ≠ r) W s L H' s' := by
  have hcell : ∀ c, s'.cell c = s.cell c := fun c => by simp only [cell, hs.cells]
  have hslot : ∀ i, s'.slot i = s.slot i := fun i => by simp only [slot, hs.slots]
  refine ⟨⟨?_, fun q k n i hi => ?_, hhoused, fun c => ?_⟩,
    ⟨hother, fun q _ i _ => ?_, by rw [hs.cells], fun c _ => ?_⟩, hs.handles, fun c => ?_⟩
  · rw [hholdings]
    exact h.counted.of_onlyRecords hs
  · rcases eq_or_ne q r with rfl | hq
    · -- a blank record has no entries
      have hheld := Record.mem_held.2 ⟨k, n, hi⟩
      rw [hblank.held] at hheld
      exact absurd hheld (Multiset.notMem_zero i)
    · rw [hother q hq] at hi
      rw [hslot]
      exact h.labelled q k n i hi
  · rw [hcell]
    exact h.rest c
  · rw [hslot]
    exact Slot.Lasts.refl _ _
  · rw [hcell]
    exact Cell.Advances.refl _
  · rw [hcell]

/-- **A record can always be leased.**  It is blank, and it was in nobody's
hands. -/
theorem leaseRecord_moves (h : Books s L H) (p : SetId) :
    ∃ r s', leaseRecord p s = .ok r s' ∧ Moves (· ≠ r) W s L (r ::ₘ H) s' ∧
      (s'.record r).Blank := by
  obtain ⟨r, s', hrun, hlends, hhoused⟩ := h.housed.lease p
  have hblank := Record.blank_of_eq hlends.record
  exact ⟨r, s', hrun,
    h.moves_of_blank hlends.only hlends.others hblank hlends.holdings hhoused, hblank⟩

end Store
end Telemetry
