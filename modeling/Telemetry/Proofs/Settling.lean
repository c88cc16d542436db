/-
# Sending is all or nothing

A batch that is refused stays as it is, and so does everything else but the
clock and the log.  A batch that is accepted is emptied and its records are
settled (`Store.Settles`).  Every slot loses one reference for each of their
entries that holds it.  The slots that lose the last one are emptied, unless
they are cached, and each is offered once to the pool it came from; so are the
records.  What a pool has no room for it counts as overflow.

All this depends on which slots lose their last reference, and that does not
depend on the order in which the maps are walked: two stores with the same
entries in another order come out with the same counts (`Settles.tallies`).

The references need to be balanced (`Tracer.Balanced`), and that is all.  They
are in every state that can be reached, and they stay so where the maps of a
record are written directly (`Balanced.insert`).  `Balanced.send` puts this
together.
-/

import Telemetry.Proofs.Reachable

namespace Telemetry

open Trace

/-- Two pools that count the same. -/
structure Pool.Tallies {α : Type} (q q' : Pool α) : Prop where
  window : q'.window = q.window
  capacity : q'.capacity = q.capacity
  length : q'.stored.length = q.stored.length

namespace Pool

variable {α : Type} {q q₁ q₂ : Pool α} {xs ys : List α}

/-- A pool counts what it counts. -/
theorem tallies_refl (q : Pool α) : q.Tallies q := ⟨rfl, rfl, rfl⟩

/-- How many items are offered is all that counts. -/
theorem Receives.tallies (h : q.Receives xs q₁) (h' : q.Receives ys q₂)
    (hlength : ys.length = xs.length) : q₁.Tallies q₂ := by
  refine ⟨?_, h'.capacity.trans h.capacity.symm, by rw [h'.length, h.length, hlength]⟩
  have htakes := h'.takes.trans h.takes.symm
  have hmisses := h'.misses.trans h.misses.symm
  have hreturns : q₂.window.returns = q₁.window.returns := by rw [h'.returns, h.returns, hlength]
  have hoverflow : q₂.window.overflow = q₁.window.overflow := by
    rw [h'.overflow, h.overflow, hlength]
  show (⟨_, _, _, _⟩ : Window) = ⟨_, _, _, _⟩
  rw [htakes, hmisses, hreturns, hoverflow]

end Pool

/-- Two records with the same entries, which may stand in another order. -/
structure Trace.Record.Reordered (a b : Record) : Prop where
  traceId : b.traceId = a.traceId
  spanId : b.spanId = a.spanId
  priority : b.priority = a.priority
  home : b.home = a.home
  marked : b.marked = a.marked
  entries : ∀ k, (b.attributes k).entries.Perm (a.attributes k).entries

/-- Entries in another order are held all the same. -/
theorem Trace.Record.Reordered.held {a b : Record} (h : a.Reordered b) : b.held = a.held := by
  rw [Record.held_eq, Record.held_eq]
  refine congrArg List.sum (List.map_congr_left fun k _ => ?_)
  rw [Keyed.total_singleton, Keyed.total_singleton, Multiset.coe_eq_coe]
  exact (h.entries k).map Prod.snd

namespace Store

variable {s s' t t' : Store} {L : Ledger} {H : Multiset RecordId} {rs : List RecordId}
  {zs zs' : List SlotId} {i : SlotId} {r : RecordId}

/-! ### What is settled -/

/-- How many entries of some records hold a slot. -/
def entriesIn (s : Store) (rs : List RecordId) (i : SlotId) : Nat :=
  (rs.map fun r => (s.record r).held.count i).sum

/-- What the release of the records `rs` does, with which the slots `zs` lose
their attributes. -/
structure Settles (rs : List RecordId) (zs : List SlotId) (s s' : Store) : Prop where
  /-- A slot loses one reference for each entry that held it. -/
  references : ∀ i, (s.slot i).references = (s'.slot i).references + s.entriesIn rs i
  /-- Those that lose the last one lose their attribute, unless it is cached. -/
  lost : ∀ i, i ∈ zs ↔ (s.slot i).references ≠ 0 ∧ (s'.slot i).references = 0 ∧
    (s.slot i).isCached = false
  once : zs.Nodup
  emptied : ∀ i ∈ zs, (s'.slot i).bare = {}
  /-- The others keep their attribute as it is. -/
  kept : ∀ i, i ∉ zs → (s'.slot i).bare = (s.slot i).bare
  home : ∀ i, (s'.slot i).home = (s.slot i).home
  blank : ∀ r ∈ rs, (s'.record r).Blank
  record : ∀ r, r ∉ rs → s'.record r = s.record r
  sets : s'.sets.size = s.sets.size
  holders : ∀ p, p < s.sets.size → (s'.set p).holders = (s.set p).holders
  /-- The slots and the records go to the pools they came from. -/
  pools : ∀ p, p < s.sets.size → s.isAlive p = true →
    (s.set p).slots.Receives (zs.filter fun i => (s.slot i).home = some p) (s'.set p).slots ∧
      (s.set p).records.Receives (rs.filter fun r => (s.record r).home = some p) (s'.set p).records
  /-- Pools that nobody holds on to get nothing. -/
  gone : ∀ p, p < s.sets.size → s.isAlive p = false → s'.set p = s.set p
  cells : s'.cells = s.cells
  handles : s'.handles = s.handles

/-- How often records hold a slot is a matter of their entries. -/
theorem count_sum_held (s : Store) (rs : List RecordId) (i : SlotId) :
    (rs.map fun r => (s.record r).held).sum.count i = s.entriesIn rs i := by
  induction rs with
  | nil => exact Multiset.count_zero i
  | cons r rs ih =>
    simp only [entriesIn, List.map_cons, List.sum_cons, Multiset.count_add] at ih ⊢
    rw [ih]

/-- The slots `zs` lose their last reference, and with it their attribute; they and
the records `rs` go to the pools they came from. -/
structure Drains (zs : List SlotId) (rs : List RecordId) (s s' : Store) : Prop where
  lost : ∀ i, i ∈ zs ↔ (s.slot i).references ≠ 0 ∧ (s'.slot i).references = 0 ∧
    (s.slot i).isCached = false
  once : zs.Nodup
  emptied : ∀ i ∈ zs, (s'.slot i).bare = {}
  kept : ∀ i, i ∉ zs → (s'.slot i).bare = (s.slot i).bare
  home : ∀ i, (s'.slot i).home = (s.slot i).home
  sets : s'.sets.size = s.sets.size
  holders : ∀ p, p < s.sets.size → (s'.set p).holders = (s.set p).holders
  pools : ∀ p, p < s.sets.size → s.isAlive p = true →
    (s.set p).slots.Receives (zs.filter fun i => (s.slot i).home = some p) (s'.set p).slots ∧
      (s.set p).records.Receives (rs.filter fun r => (s.record r).home = some p) (s'.set p).records
  gone : ∀ p, p < s.sets.size → s.isAlive p = false → s'.set p = s.set p

/-- **What sinks drains the slots that nobody demands any more.** -/
theorem Sinks.drains {D D' : Multiset SlotId} (h : Sinks D D' rs s s') (hc : Counted s D)
    (hc' : Counted s' D') : ∃ zs, Drains zs rs s s' := by
  obtain ⟨zs, hnodup, hzs, hsheds⟩ := h.shed
  refine ⟨zs, fun i => ?_, hnodup, hsheds.emptied, hsheds.kept, hsheds.home, hsheds.size,
    fun p hp => ?_, fun p hp halive => ?_, fun p hp hdead => ?_⟩
  · rw [hzs, hc.references, hc'.references, Multiset.count_ne_zero, Multiset.count_eq_zero]
  · rw [hsheds.offered p hp]
    split_ifs <;> rfl
  · rw [hsheds.offered p hp, if_pos halive]
    exact ⟨Pool.putEach_receives _ _, Pool.putEach_receives _ _⟩
  · rw [hsheds.offered p hp, if_neg (by rw [hdead]; exact Bool.false_ne_true)]

/-- The slots that are settled are drained. -/
theorem Settles.drains (h : Settles rs zs s s') : Drains zs rs s s' :=
  ⟨h.lost, h.once, h.emptied, h.kept, h.home, h.sets, h.holders, h.pools, h.gone⟩

/-- **Records in hand that are released are settled.** -/
theorem Frees.settles (hf : Frees L H rs s s') (h : Balanced s L (↑rs + H)) :
    ∃ zs, Settles rs zs s s' := by
  obtain ⟨zs, hd⟩ := hf.sinks.drains h.counted hf.balanced.counted
  refine ⟨zs, fun i => ?_, hd.lost, hd.once, hd.emptied, hd.kept, hd.home, hf.blank,
    hf.confined.record, hd.sets, hd.holders, hd.pools, hd.gone, hf.confined.cells,
    hf.confined.handles⟩
  rw [h.counted.references, hf.balanced.counted.references, ← hf.holdings, Multiset.count_add,
    Multiset.count_add, Multiset.count_add, count_sum_held]
  omega

/-- What happened before to the clock and the log does not matter. -/
theorem Settles.of_quiet (h : Settles rs zs t s') (hq : Quiet s t) : Settles rs zs s s' := by
  obtain ⟨n, l, rfl⟩ := hq
  exact ⟨h.references, h.lost, h.once, h.emptied, h.kept, h.home, h.blank, h.record, h.sets,
    h.holders, h.pools, h.gone, h.cells, h.handles⟩

/-! ### The order of the entries -/

/-- Nothing differs but the order of the entries in the maps of the records, the
clock and the log. -/
structure Reordered (s t : Store) : Prop where
  slots : t.slots = s.slots
  cells : t.cells = s.cells
  sets : t.sets = s.sets
  handles : t.handles = s.handles
  size : t.records.size = s.records.size
  record : ∀ r, (s.record r).Reordered (t.record r)

namespace Reordered

/-- Nothing is reordered. -/
theorem refl (s : Store) : Reordered s s :=
  ⟨rfl, rfl, rfl, rfl, rfl, fun _ => ⟨rfl, rfl, rfl, rfl, rfl, fun _ => List.Perm.refl _⟩⟩

/-- Another order of entries changes no slot. -/
theorem slot (h : Reordered s t) (i : SlotId) : t.slot i = s.slot i := by
  rw [Store.slot, h.slots, Store.slot]

/-- Another order of entries changes no pool. -/
theorem set (h : Reordered s t) (p : SetId) : t.set p = s.set p := by
  rw [Store.set, h.sets, Store.set]

/-- There are as many entries in any order. -/
theorem entriesIn (h : Reordered s t) (rs : List RecordId) (i : SlotId) :
    t.entriesIn rs i = s.entriesIn rs i := by
  simp only [Store.entriesIn, (h.record _).held]

/-- Clock and log may differ besides. -/
theorem quiet (h : Reordered s t) (hs : Quiet s s') (ht : Quiet t t') : Reordered s' t' := by
  obtain ⟨n, l, rfl⟩ := hs
  obtain ⟨m, k, rfl⟩ := ht
  exact ⟨h.slots, h.cells, h.sets, h.handles, h.size, h.record⟩

/-- Books that are balanced are so in any order. -/
theorem balanced (h : Reordered s t) (hb : Balanced s L H) : Balanced t L H := by
  have hholdings : t.holdings = s.holdings := holdings_congr h.size fun r => (h.record r).held
  have hcounted := hb.counted.of_stock h.slots fun p => by rw [h.set]
  obtain ⟨-, honce, hthere, hunmarked, hstored, hapart⟩ := hb
  refine ⟨hholdings ▸ hcounted, honce, fun r hr => ?_, fun r hr => ?_, fun p r hr => ?_,
    fun p => ?_⟩
  · rw [h.size]
    exact hthere r hr
  · rw [(h.record r).marked]
    exact hunmarked r hr
  · rw [h.set] at hr
    obtain ⟨hblank, hmarked, hhome⟩ := hstored p r hr
    have hr := h.record r
    exact ⟨⟨hr.traceId.trans hblank.traceId, hr.spanId.trans hblank.spanId,
      hr.priority.trans hblank.priority, hr.held.trans hblank.held⟩, hr.marked.trans hmarked,
      hr.home.trans hhome⟩
  · rw [h.set]
    exact hapart p

end Reordered

/-- Two stores that count the same: references and attributes in the slots, and
what the pools count. -/
structure Tallies (s t : Store) : Prop where
  references : ∀ i, (t.slot i).references = (s.slot i).references
  bare : ∀ i, (t.slot i).bare = (s.slot i).bare
  sets : t.sets.size = s.sets.size
  slots : ∀ p, (s.set p).slots.Tallies (t.set p).slots
  records : ∀ p, (s.set p).records.Tallies (t.set p).records

/-- Where nothing happens, nothing is counted. -/
theorem Reordered.tallies (h : Reordered s t) : Tallies s t := by
  refine ⟨fun i => by rw [h.slot], fun i => by rw [h.slot], by rw [h.sets], fun p => ?_,
    fun p => ?_⟩
  · rw [h.set]
    exact Pool.tallies_refl _
  · rw [h.set]
    exact Pool.tallies_refl _

/-- **The order in which slots are drained does not show in any count,** if in the end
the same references are left. -/
theorem Drains.tallies (h : Drains zs rs s s') (h' : Drains zs' rs t t') (ho : Reordered s t)
    (href : ∀ i, (t'.slot i).references = (s'.slot i).references) : Tallies s' t' := by
  -- both runs lose the same slots, in whichever order they come upon them
  have hmem : ∀ i, i ∈ zs' ↔ i ∈ zs := fun i => by
    rw [h'.lost, h.lost, ho.slot, href]
  have hperm : zs'.Perm zs := (List.perm_ext_iff_of_nodup h'.once h.once).2 hmem
  have hpools : ∀ p, (s'.set p).slots.Tallies (t'.set p).slots ∧
      (s'.set p).records.Tallies (t'.set p).records := by
    intro p
    -- a pool set that is still held gets what was lost; any other one is as it was
    rcases Nat.lt_or_ge p s.sets.size with hp | hp
    · have hp' : p < t.sets.size := ho.sets ▸ hp
      have halive : t.isAlive p = s.isAlive p := by rw [isAlive, ho.set, isAlive]
      cases hs : s.isAlive p with
      | true =>
        obtain ⟨hslots, hrecords⟩ := h.pools p hp hs
        obtain ⟨hslots', hrecords'⟩ := h'.pools p hp' (halive.trans hs)
        rw [ho.set] at hslots' hrecords'
        refine ⟨hslots.tallies hslots' ?_, hrecords.tallies hrecords' ?_⟩
        · -- a pool counts how many slots come home, and not in which order
          simp only [ho.slot]
          exact (hperm.filter _).length_eq
        · simp only [(ho.record _).home]
      | false =>
        rw [h.gone p hp hs, h'.gone p hp' (halive.trans hs), ho.set]
        exact ⟨Pool.tallies_refl _, Pool.tallies_refl _⟩
    · rw [set_of_size_le (h.sets ▸ hp), set_of_size_le (h'.sets ▸ ho.sets ▸ hp)]
      exact ⟨Pool.tallies_refl _, Pool.tallies_refl _⟩
  refine ⟨href, fun i => ?_, by rw [h'.sets, h.sets, ho.sets], fun p => (hpools p).1,
    fun p => (hpools p).2⟩
  by_cases hi : i ∈ zs
  · rw [h.emptied i hi, h'.emptied i ((hmem i).2 hi)]
  · rw [h.kept i hi, h'.kept i (mt (hmem i).1 hi), ho.slot]

/-- **The order of the entries does not show in any count.**  The same slots lose
their attributes, if not in the same order. -/
theorem Settles.tallies (h : Settles rs zs s s') (h' : Settles rs zs' t t') (ho : Reordered s t) :
    Tallies s' t' := by
  refine h.drains.tallies h'.drains ho fun i => ?_
  have hs := h.references i
  have ht := h'.references i
  rw [ho.slot, ho.entriesIn] at ht
  omega

/-! ### Entries that are written directly -/

/-- A direct reference is handed over to an entry, and what stood there before
leaves one behind. -/
theorem Balanced.write (h : Balanced s (i ::ₘ L) H) (hr : r ∈ H) (k : Category) (n : String) :
    Balanced (s.modifyRecord r fun record =>
      record.setAttributes (((s.record r).attributes k).insert n i) k)
      ((((s.record r).attributes k).get? n).elim 0 ({·}) + L) H := by
  have hexchange := holdings_modifyRecord (fun record =>
    record.setAttributes (((s.record r).attributes k).insert n i) k) (h.housed.there r hr)
  have hheld := (s.record r).held_insert k n i
  refine ⟨(h.counted.congr ?_).of_stock rfl fun _ => List.Sublist.refl _,
    h.housed.modifyRecord hr (Record.marked_setAttributes ..)⟩
  set s₁ := s.modifyRecord r fun record =>
    record.setAttributes (((s.record r).attributes k).insert n i) k
  set lost : Multiset SlotId := (((s.record r).attributes k).get? n).elim 0 ({·})
  set now := ((s.record r).setAttributes (((s.record r).attributes k).insert n i) k).held
  refine add_right_cancel (b := (s.record r).held) ?_
  calc s.holdings + i ::ₘ L + (s.record r).held
      = s.holdings + i ::ₘ (s.record r).held + L := by
        rw [← Multiset.singleton_add, ← Multiset.singleton_add]; abel
    _ = s.holdings + now + (lost + L) := by rw [← hheld]; abel
    _ = s₁.holdings + (lost + L) + (s.record r).held := by rw [← hexchange]; abel

end Store

namespace Tracer

open Store

variable {t : Tracer} {L : Ledger} {n en : String} {e : Exporter} {rs : List RecordId}

/-- The references on the slots are the entries of the records and the ledger,
and the records are in hand. -/
def Balanced (t : Tracer) (L : Ledger) : Prop := Store.Balanced t.store L t.inHand

/-- In every state that is reached the books are balanced. -/
theorem Reachable.balanced (h : Reachable t L) : t.Balanced L := h.books.balanced

/-- What comes of sending a batch. -/
structure Settlement (t : Tracer) (en n : String) (e : Exporter) (rs : List RecordId) : Prop where
  /-- A refusal leaves everything as it was but the exporter, the clock and the
  log. -/
  refused : ∀ f, (e.exportBatch rs t.store).1 = some f → ∃ e' s',
    t.step (.send en n) =
      (.failure f, { t with store := s', exporters := t.exporters.insert en e' }) ∧
    Quiet t.store s'
  /-- A batch that is accepted is emptied, and its records are settled. -/
  accepted : (e.exportBatch rs t.store).1 = none → ∃ e' s' zs,
    t.step (.send en n) = (.count 0, { t with
      store := s'
      exporters := t.exporters.insert en e'
      batches := t.batches.insert n [] }) ∧
    Settles rs zs t.store s'
  /-- The order of the entries does not show in any count. -/
  unordered : ∀ s, Reordered t.store s →
    Tallies (t.step (.send en n)).2.store
      (({ t with store := s } : Tracer).step (.send en n)).2.store

/-- Nothing happens to a batch that is refused. -/
theorem step_refused {f : ExportFailure} (he : t.exporters.get? en = some e)
    (hn : t.batches.get? n = some rs) (hr : (e.exportBatch rs t.store).1 = some f) : ∃ e' s',
    t.step (.send en n) =
      (.failure f, { t with store := s', exporters := t.exporters.insert en e' }) ∧
    Quiet t.store s' := by
  rw [← e.exportBatch_failure rs t.store t.cleared.store] at hr
  obtain ⟨e', s', hsend, hquiet⟩ := Exporter.send_refused hr
  refine ⟨e', s', ?_, t.cleared_quiet.trans hquiet⟩
  rw [step_eq_answer]
  exact answer_delivery rfl rfl (performs he (performs hn (by rw [hsend]; rfl)))

namespace Balanced

/-- **The references stay balanced where an entry is written directly,** with a
reference of its own.  The reference of what stood there before is nobody's then
but the ledger's. -/
theorem insert {h : String} {r : RecordId} {i : SlotId} (hb : t.Balanced L)
    (hr : t.records.get? n = some r) (hi : t.slot? h = some i)
    (hbound : (t.store.slot i).definition ≠ none) (k : Category) (name : String) :
    (t.step (.insert n k name h true)).2.Balanced
      ((((t.store.record r).attributes k).get? name).elim 0 ({·}) + L) := by
  have hb₀ := Store.Balanced.of_quiet hb t.cleared_quiet
  -- the new reference is taken first, so the entry that is written has one to stand on
  obtain ⟨s₁, hadd, hc₁, honly, -, -⟩ := addReference_counted hb₀.counted hbound
  have hb₁ : Store.Balanced s₁ (i ::ₘ L) t.inHand :=
    ⟨hc₁.congr (by rw [honly.holdings, Multiset.add_cons]), hb₀.housed.of_onlySlots honly⟩
  set m := (t.store.record r).attributes k
  set s₂ := s₁.modifyRecord r fun record => record.setAttributes (m.insert name i) k with hs₂
  have hb₂ : Store.Balanced s₂ ((m.get? name).elim 0 ({·}) + L) t.inHand := by
    have hwrite := hb₁.write (mem_inHand_of_record hr) k name
    rw [honly.record] at hwrite
    exact hwrite
  -- the command in the monad, up to the write of the entry
  have hrun : (do
      if true then Trace.addReference i
      modify fun s => s.modifyRecord r fun record => record.setAttributes (m.insert name i) k :
      Action Unit) t.cleared.store = .ok () s₂ := by
    simp only [if_true, Action.bind_apply, hadd, Action.modify_apply, hs₂]
  have hanswer : t.step (.insert n k name h true) =
      (.flag (m.contains name), { t.cleared with store := s₂ }) :=
    answer_record rfl (performs hr (performs hi (congrArg some (after_ok hrun _))))
  rw [hanswer]
  exact hb₂

/-- The records of a batch that is accepted are settled. -/
theorem step_accepted (h : t.Balanced L) (he : t.exporters.get? en = some e)
    (hn : t.batches.get? n = some rs) (hr : (e.exportBatch rs t.store).1 = none) : ∃ e' s' zs,
    t.step (.send en n) = (.count 0, { t with
      store := s'
      exporters := t.exporters.insert en e'
      batches := t.batches.insert n [] }) ∧
    Settles rs zs t.store s' := by
  have hin := inHand_replaceBatch hn []
  rw [Multiset.coe_nil, add_zero, add_comm] at hin
  have hb : Store.Balanced t.store L
      (↑rs + ({ t with batches := t.batches.insert n [] } : Tracer).inHand) := hin ▸ h
  have hb₀ := hb.of_quiet t.cleared_quiet
  rw [← e.exportBatch_failure rs t.store t.cleared.store] at hr
  obtain ⟨e', s₁, s', hsend, hquiet, -, hf⟩ := Exporter.send_accepted hb₀ hr
  obtain ⟨zs, hs⟩ := hf.settles (hb₀.of_quiet hquiet)
  refine ⟨e', s', zs, ?_, hs.of_quiet (t.cleared_quiet.trans hquiet)⟩
  rw [step_eq_answer]
  exact answer_delivery rfl rfl (performs he (performs hn (by rw [hsend]; rfl)))

/-- **Sending a batch is all or nothing,** whatever its records share with each
other and with others, and whatever the exporter makes of it. -/
theorem settlement (h : t.Balanced L) (he : t.exporters.get? en = some e)
    (hn : t.batches.get? n = some rs) : Settlement t en n e rs := by
  refine ⟨fun f => step_refused he hn, h.step_accepted he hn, fun s ho => ?_⟩
  have h' : ({ t with store := s } : Tracer).Balanced L := ho.balanced h
  have hsame := e.exportBatch_failure rs t.store s
  cases hr : (e.exportBatch rs t.store).1 with
  | none =>
    obtain ⟨e₁, s₁, zs, hstep, hs⟩ := h.step_accepted he hn hr
    obtain ⟨e₂, s₂, zs', hstep', hs'⟩ := h'.step_accepted he hn (hsame.trans hr)
    rw [hstep, hstep']
    exact hs.tallies hs' ho
  | some f =>
    obtain ⟨e₁, s₁, hstep, hquiet⟩ := step_refused he hn hr
    obtain ⟨e₂, s₂, hstep', hquiet'⟩ :=
      step_refused (t := { t with store := s }) he hn (hsame.trans hr)
    rw [hstep, hstep']
    exact (ho.quiet hquiet hquiet').tallies

end Balanced

/-- Two records of a batch share an attribute with a collection, with a direct
holder and with another record, which may get it; each has one of its own, and
one of them a cached one besides.  The pools have room for one item. -/
def nearlyFull : List Command :=
  [.setUp "p" (.ofCapacity 1) (.ofCapacity 1), .create "p" "h" Definition.guid,
    .addReference "h", .openCollection "p" "a", .openCollection "p" "b", .openCollection "p" "c",
    .putAttribute "a" "h", .putAttribute "b" "h", .putAttribute "c" "h",
    .put "a" ⟨"x", .user, false⟩ (.bool true), .put "b" ⟨"x", .user, false⟩ (.bool false),
    .put "b" ⟨"y", .agent, true⟩ (.bool true), .intoRecord "a" "r", .intoRecord "b" "s",
    .batch "q" ["r", "s"], .lease "p" "u", .exporter "e" (.script [] 0 []) none]

/-- Of five references on what is shared three are left, what is cached stays
without any, and of two records and of two slots one each is stored. -/
theorem settlement_nearlyFull : ∃ t e t', t.exporters.get? "e" = some e ∧
    t.batches.get? "q" = some [0, 1] ∧ t.Balanced {0} ∧
    (e.exportBatch [0, 1] t.store).1 = none ∧ (t.step (.send "e" "q")).2 = t' ∧
    (t.store.slot 0).references = 5 ∧ (t'.store.slot 0).references = 3 ∧
    (t'.store.slot 3).references = 0 ∧ (t'.store.slot 3).definition.isSome ∧
    (t'.store.set 0).slots.stored = [1] ∧ (t'.store.set 0).slots.window = ⟨4, 4, 2, 1⟩ ∧
    (t'.store.set 0).records.stored = [0] ∧ (t'.store.set 0).records.window = ⟨4, 4, 2, 1⟩ ∧
    Settlement t "e" "q" e [0, 1] := by
  have hready : Reachable _ {0} := Reachable.start.follow nearlyFull rfl
  have hshared : Tracer.Balanced _ {0} :=
    hready.balanced.insert (n := "u") (h := "h") rfl rfl (by decide) .user "z"
  exact ⟨_, _, _, rfl, rfl, hshared, rfl, rfl, rfl, rfl, rfl, rfl, rfl, rfl, rfl, rfl,
    hshared.settlement rfl rfl⟩

end Tracer
end Telemetry
