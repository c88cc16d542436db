/-
# Records that are lent and taken back

A pool of records lends the oldest record that it stores, or a new one is made
for it, and either way the record has nothing of a span in it (`Housed.lease`).
A record that comes back is wiped when its entries are gone, and then marked and
stored last, or dropped for want of room; it is never turned away as one that the
pool has already (`Housed.releaseRecord_returns`).

Neither needs the references to be in order: it is enough that records in hand
are unmarked and that stored ones are blank.
-/

import Telemetry.Proofs.Holdings

namespace Telemetry

open Trace

namespace Keyed

/-- Where the values stand for nothing there are none. -/
theorem eq_empty_of_total {β : Type} {m : Keyed β} (h : m.total ({·}) = 0) : m = empty := by
  rw [total_singleton, Multiset.coe_eq_zero, values, List.map_eq_nil_iff] at h
  exact ext_entries h

end Keyed

namespace Trace.Record

/-- A blank record has nothing but its place. -/
theorem Blank.eq {r : Record} (h : r.Blank) : r = { home := r.home, marked := r.marked } := by
  have hempty : ∀ k, r.attributes k = .empty := fun k => by
    refine Keyed.eq_empty_of_total (Multiset.eq_zero_of_forall_notMem fun i hi => ?_)
    obtain ⟨n, j, hn, hj⟩ := Keyed.mem_total.1 hi
    rw [Multiset.mem_singleton.1 hj] at *
    exact Multiset.notMem_zero j (h.held ▸ Record.mem_held.2 ⟨k, n, hn⟩)
  have hintrinsics := hempty .intrinsic
  have hagent := hempty .agent
  have huser := hempty .user
  obtain ⟨htrace, hspan, hpriority, -⟩ := h
  rcases r with ⟨trace, span, intrinsics, agent, user, priority, home, marked⟩
  dsimp only [Record.attributes] at *
  rw [htrace, hspan, hpriority, hintrinsics, hagent, huser]

/-- A record whose maps are empty holds nothing. -/
theorem held_of_empty {r : Record} (h : ∀ k, r.attributes k = .empty) : r.held = 0 := by
  simp only [held_eq, h, Keyed.total_empty, List.map_const', List.sum_replicate, nsmul_zero]

/-- A record of which only home and mark are set is blank. -/
theorem blank_of_eq {r : Record} {home : Option SetId} {marked : Bool}
    (h : r = { home := home, marked := marked }) : r.Blank := by
  subst h
  exact ⟨rfl, rfl, rfl, rfl⟩

end Trace.Record

namespace Store

variable {s s' : Store} {H : Multiset RecordId} {r : RecordId} {p : SetId}

/-- A record comes out of a pool, or is made where the pool stores none. -/
structure Lends (p : SetId) (r : RecordId) (s s' : Store) : Prop where
  only : OnlyRecords s s'
  others : ∀ q, q ≠ r → s'.record q = s.record q
  /-- The record is as good as new. -/
  record : s'.record r = { home := some p }
  holdings : s'.holdings = s.holdings
  log : s'.log = s.log
  source : (s.set p).records.stored.head? = some r ∨
    (s.set p).records.stored = [] ∧ r = s.records.size

namespace Housed

/-- Where nothing is stored, a record is made. -/
theorem lease_made (h : Housed s H) {q : Pool RecordId}
    (hq : (s.set p).records.take (fun r => (s.record r).marked) = (.missed, q))
    (hold : (s.set p).records.stored = []) (hnew : q.stored = []) :
    ∃ r s', leaseRecord p s = .ok r s' ∧ Lends p r s s' ∧ Housed s' (r ::ₘ H) := by
  -- the miss is counted, which lets the pool store no more than before
  set s₁ := s.modifySet p fun x => { x with records := q } with hs₁
  have h₁ : Housed s₁ H := h.of_stock rfl fun x => by
    rw [hs₁, set_modifySet]
    split_ifs
    · exact hnew ▸ List.nil_sublist _
    · exact List.Sublist.refl _
  -- then the record is made, behind all others
  set s₂ : Store := { s₁ with records := s₁.records.push { home := some p } } with hs₂
  have hself : s₂.record s.records.size = { home := some p } :=
    (record_push s₁ _ _).trans (if_pos rfl)
  have hother : ∀ x, x ≠ s.records.size → s₂.record x = s₁.record x :=
    fun x hx => (record_push s₁ _ x).trans (if_neg hx)
  have hfresh : s.records.size ∉ H := fun hr => lt_irrefl _ (h.there _ hr)
  have hout : ∀ x, s.records.size ∉ (s₁.set x).records.stored := fun x hx => by
    have hmarked := (h₁.stored x _ hx).2.1
    rw [show s₁.record s.records.size = default from record_of_size_le le_rfl] at hmarked
    cases hmarked
  have hsize : s₂.records.size = s.records.size + 1 := Array.size_push ..
  refine ⟨s.records.size, s₂, ?_, ⟨⟨rfl, fun x => ?_, rfl, rfl⟩, hother, hself,
    holdings_push s₁ rfl, rfl, .inr ⟨hold, rfl⟩⟩, h₁.handOut hfresh hout (fun _ => rfl) hother
      (by rw [hsize]; exact Nat.le_succ _) (by rw [hsize]; exact Nat.lt_succ_self _)
      (by rw [hself])⟩
  · simp only [leaseRecord, Action.bind_apply, Action.get_apply, hq, Action.modify_apply,
      Action.pure_apply, hs₂, hs₁]
  · show ((s.modifySet p _).set x).slots = _
    rw [set_modifySet]
    split_ifs <;> rfl

/-- A record that is taken off a pool stood in this pool only, and only at the
front. -/
theorem taken_out (h : Housed s H) {q : Pool RecordId}
    (hold : (s.set p).records.stored = r :: q.stored) (x : SetId) :
    r ∉ ((s.modifySet p fun y => { y with records := q }).set x).records.stored := by
  have hin : r ∈ (s.set p).records.stored := hold ▸ List.mem_cons_self
  have hpset : p < s.sets.size := by
    by_contra hp
    rw [set_of_size_le (not_lt.1 hp)] at hin
    exact absurd hin List.not_mem_nil
  intro hx
  rw [set_modifySet] at hx
  split_ifs at hx with hpx
  · have hnodup := h.apart p
    rw [hold, List.nodup_cons] at hnodup
    exact hnodup.1 hx
  · have hhome := (h.stored x r hx).2.2
    rw [(h.stored p r hin).2.2, Option.some.injEq] at hhome
    exact hpx ⟨hhome, hpset⟩

/-- Else the oldest stored record is taken, and its mark cleared. -/
theorem lease_reused (h : Housed s H) {q : Pool RecordId}
    (hq : (s.set p).records.take (fun r => (s.record r).marked) = (.reused r, q))
    (hold : (s.set p).records.stored = r :: q.stored) :
    ∃ s', leaseRecord p s = .ok r s' ∧ Lends p r s s' ∧ Housed s' (r ::ₘ H) := by
  set s₁ := s.modifySet p fun x => { x with records := q } with hs₁
  -- the pool stores no more than before
  have h₁ : Housed s₁ H := h.of_stock rfl fun x => by
    rw [hs₁, set_modifySet]
    split_ifs with hx
    · rw [← hx.1, hold]
      exact List.sublist_cons_self _ _
    · exact List.Sublist.refl _
  -- what it hands out was in no hand, blank and marked
  obtain ⟨hblank, hmark, -⟩ := h.stored p r (hold ▸ List.mem_cons_self)
  have hthere : r < s.records.size := by
    by_contra hr
    rw [record_of_size_le (not_lt.1 hr)] at hmark
    cases hmark
  have hfresh : r ∉ H := fun hr => by
    rw [h.unmarked r hr] at hmark
    cases hmark
  -- the mark is taken off, and the home written, which is the old one
  set s₂ := s₁.modifyRecord r fun record => { record with marked := false, home := some p } with hs₂
  have hself : s₂.record r = { home := some p } := by
    rw [hs₂, record_modifyRecord_self (s := s₁) hthere, show s₁.record r = s.record r from rfl,
      hblank.eq]
  have hother : ∀ x, x ≠ r → s₂.record x = s₁.record x :=
    fun x hx => record_modifyRecord_ne hx.symm _
  refine ⟨s₂, ?_, ⟨⟨rfl, fun x => ?_, rfl, rfl⟩, hother, hself,
    holdings_modifyRecord_of_held (by rfl), rfl, .inl (by rw [hold]; rfl)⟩,
    h₁.handOut hfresh (h.taken_out hold) (fun _ => rfl) hother (size_modifyRecord ..).ge
      (by rw [hs₂, size_modifyRecord]; exact hthere) (by rw [hself])⟩
  · simp only [leaseRecord, Action.bind_apply, Action.get_apply, hq, Action.modify_apply,
      Action.pure_apply, hs₂, hs₁]
  · show ((s.modifySet p _).set x).slots = _
    rw [set_modifySet]
    split_ifs <;> rfl

/-- **A record can always be leased**, from any pool, and it is as good as new. -/
theorem lease (h : Housed s H) (p : SetId) :
    ∃ r s', leaseRecord p s = .ok r s' ∧ Lends p r s s' ∧ Housed s' (r ::ₘ H) := by
  rcases (s.set p).records.take_of_marked (fun r => (s.record r).marked)
    fun r hr => (h.stored p r hr).2.1 with ⟨q, hq, hold, hnew⟩ | ⟨r, q, hq, hold⟩
  · exact h.lease_made hq hold hnew
  · exact ⟨r, h.lease_reused hq hold⟩

end Housed

/-- A record is blank, and was offered to the pool that it came from if anybody
holds on to that. -/
structure Returns (r : RecordId) (s s' : Store) : Prop where
  slots : s'.slots = s.slots
  cells : s'.cells = s.cells
  handles : s'.handles = s.handles
  size : s'.records.size = s.records.size
  others : ∀ q, q ≠ r → s'.record q = s.record q
  record : ∃ m, s'.record r = { home := (s.record r).home, marked := m }
  sets : s'.sets.size = s.sets.size
  offered : ∀ p, p < s.sets.size → s'.set p =
    if (s.record r).home = some p ∧ s.isAlive p then
      { s.set p with records := ((s.set p).records.put false r).2 }
    else s.set p
  /-- Only want of room is reported. -/
  log : s'.log = s.log ∨ ∃ n, s'.log = s.log ++ #[Event.itemOverflow n]

namespace Returns

/-- A record that was given back is blank. -/
theorem blank (h : Returns r s s') : (s'.record r).Blank := by
  obtain ⟨m, hself⟩ := h.record
  exact Record.blank_of_eq hself

/-- Giving a record back changes no home. -/
theorem home (h : Returns r s s') (q : RecordId) : (s'.record q).home = (s.record q).home := by
  rcases eq_or_ne q r with rfl | hq
  · obtain ⟨m, hself⟩ := h.record
    rw [hself]
  · rw [h.others q hq]

/-- Nothing else of a pool set changes. -/
theorem stock (h : Returns r s s') (p : SetId) :
    (s'.set p).slots = (s.set p).slots ∧ s'.isAlive p = s.isAlive p := by
  by_cases hp : p < s.sets.size
  · rw [isAlive, isAlive, h.offered p hp]
    split_ifs <;> exact ⟨rfl, rfl⟩
  · rw [isAlive, isAlive, set_of_size_le (not_lt.1 hp), set_of_size_le (h.sets ▸ not_lt.1 hp)]
    exact ⟨rfl, rfl⟩

/-- A record gets into no pool but that which it came from, and into this one only
if anybody holds on to it. -/
theorem stored (h : Returns r s s') {q : RecordId} (hq : q ∈ (s'.set p).records.stored) :
    q ∈ (s.set p).records.stored ∨ q = r ∧ (s.record r).home = some p ∧ s.isAlive p := by
  by_cases hp : p < s.sets.size
  · rw [h.offered p hp] at hq
    split_ifs at hq with hcond
    · exact (Pool.of_mem_stored_put hq).imp_right fun hqr => ⟨hqr, hcond⟩
    · exact Or.inl hq
  · rw [set_of_size_le (h.sets ▸ not_lt.1 hp)] at hq
    exact absurd hq List.not_mem_nil

/-- What the record was before, apart from its home, does not matter. -/
theorem of_modifyRecord {f : Record → Record} (hf : ∀ a : Record, (f a).home = a.home)
    (h : Returns r (s.modifyRecord r f) s') : Returns r s s' := by
  have hhome : ((s.modifyRecord r f).record r).home = (s.record r).home := by
    rw [record_modifyRecord]
    split_ifs
    · exact hf _
    · rfl
  refine ⟨h.slots, h.cells, h.handles, h.size.trans (size_modifyRecord ..), fun q hq => ?_,
    hhome ▸ h.record, h.sets, fun p hp => ?_, h.log⟩
  · rw [h.others q hq, record_modifyRecord_ne hq.symm]
  · rw [h.offered p hp, hhome]
    rfl

end Returns

namespace Housed

/-- **A blank record leaves the hands for the pool it came from,** which never
turns it away for having it already. -/
theorem put (h : Housed s (r ::ₘ H)) (hb : (s.record r).Blank)
    (hp : (s.record r).home = some p) (halive : s.isAlive p) :
    ∃ s', putRecord p r s = .ok () s' ∧ Returns r s s' ∧ Housed s' H := by
  have hthere := h.there r (Multiset.mem_cons_self r H)
  have hmark := h.unmarked r (Multiset.mem_cons_self r H)
  have hoffered : ∀ x q, ((s.set p).records.put false r).2 = q → x < s.sets.size →
      (s.modifySet p fun y => { y with records := q }).set x =
        if (s.record r).home = some x ∧ s.isAlive x then
          { s.set x with records := ((s.set x).records.put false r).2 }
        else s.set x := by
    rintro x q rfl hx
    rw [set_modifySet]
    by_cases hpx : p = x
    · subst hpx
      rw [if_pos ⟨rfl, hx⟩, if_pos ⟨hp, halive⟩]
    · rw [if_neg fun h => hpx h.1, if_neg fun h => hpx (Option.some.inj (hp.symm.trans h.1))]
  rcases (s.set p).records.put_unmarked r with ⟨q, hput, hstored⟩ | ⟨q, n, hput, hstored⟩
  · -- there is room: the record goes to the end of the storage and is marked
    set s₁ := s.modifySet p fun x => { x with records := q } with hs₁
    set s₂ := s₁.modifyRecord r fun record => { record with marked := true } with hs₂
    have hself : s₂.record r = { home := (s.record r).home, marked := true } := by
      rw [hs₂, record_modifyRecord_self (s := s₁) hthere, show s₁.record r = s.record r from rfl,
        hb.eq]
    have hother : ∀ x, x ≠ r → s₂.record x = s.record x :=
      fun x hx => record_modifyRecord_ne (s := s₁) hx.symm _
    refine ⟨s₂, ?_, ⟨rfl, rfl, rfl, size_modifyRecord .., hother, ⟨true, hself⟩,
      Array.size_modify .., fun x hx => hoffered x q (by rw [hput]) hx, .inl rfl⟩, ?_⟩
    · rw [putRecord, Action.modify_apply, hmark, hput]
    · refine h.stash hother (size_modifyRecord ..) (Record.blank_of_eq hself) (by rw [hself])
        (by rw [hself]; exact hp) fun x => ?_
      rw [hs₂, set_modifyRecord, hs₁, set_modifySet]
      split_ifs with hx
      · exact Or.inr ⟨hx.1.symm, hstored⟩
      · exact Or.inl rfl
  · -- there is none: the record is dropped
    set s₁ := s.modifySet p fun x => { x with records := q } with hs₁
    refine ⟨s₁.report [.itemOverflow n], ?_, ⟨rfl, rfl, rfl, rfl, fun _ _ => rfl,
      ⟨(s.record r).marked, hb.eq⟩, Array.size_modify ..,
      fun x hx => hoffered x q (by rw [hput]) hx, .inr ⟨n, rfl⟩⟩, ?_⟩
    · rw [putRecord, Action.modify_apply, hmark, hput]
    · refine (h.mono (Multiset.le_cons_self H r)).of_stock rfl fun x => ?_
      show (s₁.set x).records.stored.Sublist _
      rw [hs₁, set_modifySet]
      split_ifs with hx
      · rw [← hx.1]
        exact hstored ▸ List.Sublist.refl _
      · exact List.Sublist.refl _

/-- **A record whose entries are gone is released for good,** whether the pool is
still there that it came from or not. -/
theorem releaseRecord_returns {u : Unit} (hclear : Category.all.forM (clearCategory r) s = .ok u s')
    (hempty : ∀ k, (s'.record r).attributes k = .empty) (h : Housed s' (r ::ₘ H)) :
    ∃ s'', releaseRecord r s = .ok () s'' ∧ Returns r s' s'' ∧ Housed s'' H := by
  have hmem : r ∈ r ::ₘ H := Multiset.mem_cons_self r H
  -- clearing left the maps empty, so only the identity and the priority are to be wiped
  set wipe : Record → Record := fun record =>
    { record with traceId := "", spanId := "", priority := .zero false } with hwipe
  set s₁ := s'.modifyRecord r wipe with hs₁
  have h₁ : Housed s₁ (r ::ₘ H) := h.modifyRecord hmem rfl
  have hblank : (s₁.record r).Blank := by
    rw [hs₁, record_modifyRecord_self (h.there r hmem)]
    refine ⟨rfl, rfl, rfl, ?_⟩
    exact Record.held_of_empty fun k => (by cases k <;> rfl : _ = _).trans (hempty k)
  -- it goes home if there is a home and somebody holds on to it
  by_cases halive : ∃ p, (s₁.record r).home = some p ∧ s₁.isAlive p = true
  · obtain ⟨p, hhome, halive⟩ := halive
    obtain ⟨s₂, hput, hreturns, hhoused⟩ := h₁.put hblank hhome halive
    refine ⟨s₂, ?_, hreturns.of_modifyRecord (f := wipe) fun _ => rfl, hhoused⟩
    simp only [releaseRecord, Action.bind_apply, hclear, Action.modify_apply, Action.get_apply,
      ← hwipe, ← hs₁, hhome, halive, if_true, hput]
  · have hreturns : Returns r s₁ s₁ := ⟨rfl, rfl, rfl, rfl, fun _ _ => rfl, ⟨_, hblank.eq⟩, rfl,
      fun p _ => (if_neg fun h => halive ⟨p, h⟩).symm, .inl rfl⟩
    refine ⟨s₁, ?_, hreturns.of_modifyRecord (f := wipe) fun _ => rfl,
      h₁.mono (Multiset.le_cons_self H r)⟩
    -- otherwise it is given up, for either reason
    cases hhome : (s₁.record r).home with
    | none =>
      simp only [releaseRecord, Action.bind_apply, hclear, Action.modify_apply, Action.get_apply,
        ← hwipe, ← hs₁, hhome, Action.pure_apply]
    | some p =>
      have hdead : s₁.isAlive p = false := Bool.eq_false_iff.2 fun h => halive ⟨p, hhome, h⟩
      simp only [releaseRecord, Action.bind_apply, hclear, Action.modify_apply, Action.get_apply,
        ← hwipe, ← hs₁, hhome, hdead, Bool.false_eq_true, if_false, Action.pure_apply]

end Housed
end Store
end Telemetry
