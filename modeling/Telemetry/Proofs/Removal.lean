/-
# Taking attributes out of a collection

Handles are given for the attributes that are to be taken out; they may be given
twice, stand for the same attribute, for a free slot or for an attribute that is
not in the collection.  What comes of it depends on the set of the attributes
alone (`Tracer.Reachable.removal`): the entries that hold them are left out of the
record, each attribute loses one reference, those that lose the last one go to
their pools, and nothing else is different.  Where nothing is left to take out,
nothing happens.

That the order does not show in the pools is `Drains.tallies`, as it is for the
release of records.
-/

import Telemetry.Proofs.Settling

namespace Telemetry

open Trace

namespace Trace.Record

variable {r : Record} {slots slots' : List SlotId} {i : SlotId}

/-- How many entries hold one of the slots. -/
def entriesWith (r : Record) (slots : List SlotId) : Nat :=
  (Category.all.map fun k => ((r.attributes k).entries.filter fun e => e.2 ∈ slots).length).sum

/-- How many entries there are depends only on which slots are named. -/
theorem entriesWith_congr (h : ∀ i, i ∈ slots' ↔ i ∈ slots) :
    r.entriesWith slots' = r.entriesWith slots := by
  simp only [entriesWith, h]

/-- A record holds as many attributes as its maps have entries. -/
theorem card_held (r : Record) :
    r.held.card = (Category.all.map fun k => (r.attributes k).entries.length).sum := by
  simp only [held, Keyed.total_singleton, Multiset.card_add, Multiset.coe_card, Keyed.values,
    List.length_map, Category.all, List.map_cons, List.map_nil, List.sum_cons, List.sum_nil,
    attributes]
  omega

/-- What is left out of the maps is not held. -/
theorem not_mem_held {a : Record} (h : ∀ k, (r.attributes k).entries =
    (a.attributes k).entries.filter fun e => e.2 ∉ slots) (hi : i ∈ slots) : i ∉ r.held := by
  intro hmem
  obtain ⟨k, n, hn⟩ := mem_held.1 hmem
  have hentry := Keyed.get?_eq_some_iff.1 hn
  rw [h, List.mem_filter] at hentry
  exact of_decide_eq_true hentry.2 hi

/-- Records are the same if their maps are and everything else. -/
theorem ext_attributes {a b : Record} (hmaps : ∀ k, b.attributes k = a.attributes k)
    (htrace : b.traceId = a.traceId) (hspan : b.spanId = a.spanId)
    (hpriority : b.priority = a.priority) (hhome : b.home = a.home) (hmark : b.marked = a.marked) :
    b = a := by
  have hintrinsics := hmaps .intrinsic
  have hagent := hmaps .agent
  have huser := hmaps .user
  cases a
  cases b
  simp only [attributes] at *
  simp only [htrace, hspan, hintrinsics, hagent, huser, hpriority, hhome, hmark]

end Trace.Record

namespace Store

open Telemetry.Action

variable {s s' t t' : Store} {L : Ledger} {H : Multiset RecordId} {c : Collection}
  {r : RecordId} {slots slots' : List SlotId} {i : SlotId} {n : Nat}

/-- In a record every attribute has one entry at most. -/
theorem Labelled.count_held (h : Labelled s) (hi : i ∈ (s.record r).held) :
    (s.record r).held.count i = 1 := by
  obtain ⟨k, n, hn⟩ := Record.mem_held.1 hi
  obtain ⟨d, hd, rfl, rfl⟩ := h r k n i hn
  rw [Record.held_erase hn, Multiset.count_cons_self, Multiset.count_eq_zero.2]
  intro hmem
  obtain ⟨k', n', hn'⟩ := Record.mem_held.1 hmem
  rw [Record.attributes_setAttributes] at hn'
  split_ifs at hn' with hk
  · -- under its own name it is erased
    rw [Keyed.get?_erase] at hn'
    split_ifs at hn' with hname
    obtain ⟨d', hd', hname', -⟩ := h r _ n' i hn'
    exact hname (Option.some.inj (hd'.symm.trans hd) ▸ hname')
  · obtain ⟨d', hd', -, hcategory⟩ := h r k' n' i hn'
    exact hk (Option.some.inj (hd'.symm.trans hd) ▸ hcategory)

/-- What is left out of a record and what is left in it. -/
theorem Loses.card_held (h : Loses r slots s s') :
    (s'.record r).held.card + (s.record r).entriesWith slots = (s.record r).held.card := by
  have hsplit : ∀ k, ((s'.record r).attributes k).entries.length +
      (((s.record r).attributes k).entries.filter fun e => e.2 ∈ slots).length =
        ((s.record r).attributes k).entries.length := by
    intro k
    have hlength := List.length_eq_length_filter_add
      (l := ((s.record r).attributes k).entries) fun e => decide (e.2 ∈ slots)
    rw [h.entries, hlength, Nat.add_comm]
    simp only [decide_not]
  simp only [Record.card_held, Record.entriesWith, Category.all, List.map_cons, List.map_nil,
    List.sum_cons, List.sum_nil, ← hsplit]
  omega

/-- What is left when the attributes in some slots are taken out of a record. -/
structure Removed (r : RecordId) (slots : List SlotId) (s s' : Store) : Prop where
  /-- The entries that hold one of them are left out. -/
  entries : ∀ k, ((s'.record r).attributes k).entries =
    ((s.record r).attributes k).entries.filter fun e => e.2 ∉ slots
  traceId : (s'.record r).traceId = (s.record r).traceId
  spanId : (s'.record r).spanId = (s.record r).spanId
  priority : (s'.record r).priority = (s.record r).priority
  home : (s'.record r).home = (s.record r).home
  marked : (s'.record r).marked = (s.record r).marked
  record : ∀ q, q ≠ r → s'.record q = s.record q
  /-- Each of them loses one reference. -/
  references : ∀ i ∈ (s.record r).held, i ∈ slots →
    (s.slot i).references = (s'.slot i).references + 1
  others : ∀ i, i ∉ (s.record r).held ∨ i ∉ slots → s'.slot i = s.slot i
  /-- Those that lose the last one go to their pools. -/
  drains : ∃ zs, Drains zs [] s s'
  cells : s'.cells = s.cells
  handles : s'.handles = s.handles

/-- What was withdrawn are the entries of the named slots, and nothing else was removed. -/
theorem Withdraws.removed (h : Withdraws r slots n L s s') (hs : Books s L H) (hs' : Books s' L H)
    (hr : r ∈ H) : n = (s.record r).entriesWith slots ∧ Removed r slots s s' := by
  have hthere := hs.housed.there r hr
  refine ⟨?_, h.entries, h.traceId, h.spanId, h.priority, h.confined.home r, ?_,
    fun q hq => h.confined.record q (mt List.mem_singleton.1 hq), fun i hi hslots => ?_, h.others,
    h.sinks.drains hs.counted hs'.counted, h.confined.cells, h.confined.handles⟩
  · have hcount := h.count
    have hcard := h.toLoses.card_held
    omega
  · rw [hs'.housed.unmarked r hr, hs.housed.unmarked r hr]
  · have hexchange := congrArg (Multiset.count i) (h.confined.exchange hthere)
    rw [Multiset.count_add, Multiset.count_add, hs.labelled.count_held hi,
      Multiset.count_eq_zero.2 (Record.not_mem_held h.entries hslots)] at hexchange
    rw [hs.counted.references, hs'.counted.references, Multiset.count_add, Multiset.count_add]
    omega

/-- **What taking attributes out does.** -/
theorem Books.removeMany_removed (h : Books s L H) (hr : c.record ∈ H) (slots : List SlotId) :
    ∃ s', c.removeMany slots s = .ok ((s.record c.record).entriesWith slots) s' ∧
      Removed c.record slots s s' := by
  obtain ⟨n, s', hrun, hm, hout⟩ := h.removeMany_moves (W := fun _ => True) hr slots
  obtain ⟨rfl, hremoved⟩ := hout.removed h hm.books hr
  exact ⟨s', hrun, hremoved⟩

/-- Which slots are drained does not depend on clock and log. -/
theorem Drains.of_quiet {zs : List SlotId} {rs : List RecordId} (h : Drains zs rs t s')
    (hq : Quiet s t) : Drains zs rs s s' := by
  obtain ⟨n, l, rfl⟩ := hq
  exact ⟨h.lost, h.once, h.emptied, h.kept, h.home, h.sets, h.holders, h.pools, h.gone⟩

/-- What is left of a record does not depend on clock and log. -/
theorem Removed.of_quiet (h : Removed r slots t s') (hq : Quiet s t) : Removed r slots s s' := by
  obtain ⟨zs, hdrains⟩ := h.drains
  have hbefore : Drains zs [] s s' := hdrains.of_quiet hq
  obtain ⟨n, l, rfl⟩ := hq
  exact ⟨h.entries, h.traceId, h.spanId, h.priority, h.home, h.marked, h.record, h.references,
    h.others, ⟨zs, hbefore⟩, h.cells, h.handles⟩

/-- **Only the set of the slots counts.** -/
theorem Removed.unordered (h : Removed r slots s s') (h' : Removed r slots' s t')
    (hslots : ∀ i, i ∈ slots' ↔ i ∈ slots) :
    (∀ q, t'.record q = s'.record q) ∧ Tallies s' t' := by
  obtain ⟨zs, hdrains⟩ := h.drains
  obtain ⟨zs', hdrains'⟩ := h'.drains
  refine ⟨fun q => ?_, hdrains.tallies hdrains' (.refl s) fun i => ?_⟩
  · rcases eq_or_ne q r with rfl | hq
    · refine Record.ext_attributes (fun k => Keyed.ext_entries ?_) ?_ ?_ ?_ ?_ ?_
      · rw [h.entries, h'.entries]
        simp only [hslots]
      · rw [h.traceId, h'.traceId]
      · rw [h.spanId, h'.spanId]
      · rw [h.priority, h'.priority]
      · rw [h.home, h'.home]
      · rw [h.marked, h'.marked]
    · rw [h.record q hq, h'.record q hq]
  · by_cases hi : i ∈ (s.record r).held ∧ i ∈ slots
    · have hfirst := h.references i hi.1 hi.2
      have hsecond := h'.references i hi.1 ((hslots i).2 hi.2)
      omega
    · rw [not_and_or] at hi
      rw [h.others i hi, h'.others i (hi.imp_right (mt (hslots i).1))]

/-- An attribute that is not there is not taken out. -/
theorem removeNamed_absent (h : i ∉ (s.record c.record).held) (k : Category) (name : String) :
    c.removeNamed k name i s = .ok false s := by
  have hnone : ¬ ((s.record c.record).attributes k).get? name = some i := fun hget =>
    h (Record.mem_held.2 ⟨k, name, hget⟩)
  simp only [Collection.removeNamed, Action.bind_apply, Action.get_apply, if_neg hnone,
    Action.pure_apply]

/-- Handles of attributes that the record does not hold take nothing out. -/
theorem removeEach_absent (l : List (SlotId × Definition))
    (h : ∀ e ∈ l, e.1 ∉ (s.record c.record).held) :
    (l.mapM fun e => c.removeNamed e.2.category e.2.name e.1) s = .ok (l.map fun _ => false) s := by
  induction l with
  | nil => rfl
  | cons e l ih =>
    rw [Action.mapM_cons, removeNamed_absent (h e List.mem_cons_self)]
    simp only [ih fun x hx => h x (List.mem_cons_of_mem e hx), List.map_cons]

/-- Where no attribute is there to be taken out, nothing happens. -/
theorem removeMany_absent (h : ∀ i ∈ slots, i ∉ (s.record c.record).held) :
    c.removeMany slots s = .ok 0 s := by
  set bound := slots.filterMap fun i => (s.slot i).definition.map fun d => (i, d) with hbound
  set ordered := Category.all.flatMap fun k => bound.filter fun e => e.2.category = k
    with hordered
  have hmem : ∀ e ∈ ordered, e.1 ∈ slots := by
    rintro ⟨i, d⟩ he
    simp only [hordered, hbound, List.mem_flatMap, List.mem_filter, List.mem_filterMap,
      Option.map_eq_some_iff, Prod.mk.injEq] at he
    obtain ⟨-, -, ⟨j, hj, -, -, rfl, -⟩, -⟩ := he
    exact hj
  have hnone : ((ordered.map fun _ => false).filter id).length = 0 := by
    rw [List.length_eq_zero_iff, List.filter_eq_nil_iff]
    simp
  simp only [Collection.removeMany, Action.bind_apply, Action.get_apply, ← hbound, ← hordered,
    removeEach_absent ordered fun e he => h e.1 (hmem e he), Action.pure_apply, hnone]

end Store

namespace Tracer

open Store

variable {t : Tracer} {L : Ledger} {cn : String} {hs hs' : List String} {co : Collection}

/-- The slots that some handles stand for. -/
def slotsOf (t : Tracer) (hs : List String) : List SlotId := hs.filterMap t.slot?

/-- Handles that are all known stand for their slots. -/
theorem mapM_slot? (h : ∀ name ∈ hs, t.slot? name ≠ none) :
    hs.mapM t.slot? = some (t.slotsOf hs) := by
  induction hs with
  | nil => rfl
  | cons name hs ih =>
    obtain ⟨i, hi⟩ := Option.ne_none_iff_exists'.1 (h name List.mem_cons_self)
    have hslots : t.slotsOf (name :: hs) = i :: t.slotsOf hs := List.filterMap_cons_some hi
    rw [List.mapM_cons, hi, ih fun x hx => h x (List.mem_cons_of_mem _ hx), hslots]
    rfl

/-- What comes of taking out the attributes that some handles stand for. -/
structure Removal (t : Tracer) (cn : String) (co : Collection) (hs : List String)
    (out : Reply × Tracer) : Prop where
  /-- The answer is the number of entries that are left out, and nothing but the
  store is different. -/
  answer : out = (.count ((t.store.record co.record).entriesWith (t.slotsOf hs)),
    { t with store := out.2.store })
  removed : Removed co.record (t.slotsOf hs) t.store out.2.store
  /-- Handles that stand for the same attributes come to the same. -/
  unordered : ∀ hs', (∀ name ∈ hs', t.slot? name ≠ none) →
    (∀ i, (∃ name ∈ hs', t.slot? name = some i) ↔ ∃ name ∈ hs, t.slot? name = some i) →
      (t.step (.removeMany cn hs')).1 = out.1 ∧
        (∀ r, (t.step (.removeMany cn hs')).2.store.record r = out.2.store.record r) ∧
        Tallies out.2.store (t.step (.removeMany cn hs')).2.store
  /-- The second time nothing happens. -/
  again : out.2.step (.removeMany cn hs) = (.count 0, out.2.cleared)

/-- The step takes out what the handles stand for, and answers how much that was. -/
theorem step_removed (h : Reachable t L) (hco : t.collections.get? cn = some co)
    (hknown : ∀ name ∈ hs, t.slot? name ≠ none) : ∃ s',
    t.step (.removeMany cn hs) = (.count ((t.store.record co.record).entriesWith (t.slotsOf hs)),
      { t with store := s' }) ∧ Removed co.record (t.slotsOf hs) t.store s' := by
  obtain ⟨s', hrun, hremoved⟩ :=
    h.books_cleared.removeMany_removed (mem_inHand_of_collection hco) (t.slotsOf hs)
  refine ⟨s', ?_, hremoved.of_quiet t.cleared_quiet⟩
  rw [step_eq_answer]
  exact answer_record rfl (performs hco (performs (mapM_slot? hknown)
    (congrArg some (after_ok (t := t.cleared) hrun _))))

/-- **Taking attributes out depends on the set of them alone,** whatever handles they
are given by. -/
theorem Reachable.removal (h : Reachable t L) (hco : t.collections.get? cn = some co)
    (hknown : ∀ name ∈ hs, t.slot? name ≠ none) :
    Removal t cn co hs (t.step (.removeMany cn hs)) := by
  obtain ⟨s', hstep, hremoved⟩ := step_removed h hco hknown
  rw [hstep]
  refine ⟨rfl, hremoved, fun hs' hknown' hsame => ?_, ?_⟩
  · obtain ⟨t', hstep', hremoved'⟩ := step_removed h hco hknown'
    have hslots : ∀ i, i ∈ t.slotsOf hs' ↔ i ∈ t.slotsOf hs := fun i => by
      rw [slotsOf, slotsOf, List.mem_filterMap, List.mem_filterMap]
      exact hsame i
    rw [hstep', Record.entriesWith_congr hslots]
    exact ⟨rfl, hremoved.unordered hremoved' hslots⟩
  · -- the handles still stand for what they stood for
    have hslot : ∀ name, ({ t with store := s' } : Tracer).cleared.slot? name = t.slot? name :=
      fun name => by
        show s'.handles.get? name = t.store.handles.get? name
        rw [hremoved.handles]
    have hmapM : hs.mapM ({ t with store := s' } : Tracer).cleared.slot? = some (t.slotsOf hs) := by
      rw [funext hslot]
      exact mapM_slot? hknown
    have habsent : co.removeMany (t.slotsOf hs) ({ t with store := s' } : Tracer).cleared.store =
        .ok 0 ({ t with store := s' } : Tracer).cleared.store :=
      removeMany_absent fun i hi => Record.not_mem_held hremoved.entries hi
    rw [step_eq_answer]
    exact answer_record rfl (performs hco (performs hmapM
      (congrArg some (after_ok (t := ({ t with store := s' } : Tracer).cleared) habsent _))))

/-- A collection with two attributes, one of which another collection shares. -/
def partlyShared : List Command :=
  [.setUp "p" .small .small, .openCollection "p" "c", .openCollection "p" "e",
    .put "c" ⟨"a", .user, false⟩ (.bool true), .put "c" ⟨"b", .agent, false⟩ (.bool false),
    .get "c" .user "a" (some "h"), .get "c" .agent "b" (some "g"), .putAttribute "e" "g"]

/-- Both are taken out, one of them by a handle that is given twice; the one that is
shared keeps a reference, and the other one goes to the pool. -/
theorem removal_partlyShared : ∃ t co, Reachable t 0 ∧ t.collections.get? "c" = some co ∧
    (∀ name ∈ ["g", "h", "g"], t.slot? name ≠ none) ∧
    let out := t.step (.removeMany "c" ["g", "h", "g"])
    out.1 = .count 2 ∧ (t.store.slot 1).references = 2 ∧ (out.2.store.slot 1).references = 1 ∧
      (out.2.store.set 0).slots.stored = [0] ∧ Removal t "c" co ["g", "h", "g"] out := by
  have hready : Reachable _ 0 := Reachable.start.follow partlyShared rfl
  exact ⟨_, _, hready, rfl, by decide +kernel, rfl, rfl, rfl, rfl,
    hready.removal (by rfl) (by decide +kernel)⟩

end Tracer
end Telemetry
