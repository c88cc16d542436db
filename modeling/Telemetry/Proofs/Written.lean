/-
# What was written into a collection

A plain account of a collection: under each category and name the last thing
that was written and not taken out again, the identity and the priority
(`Written`).  A record shows an account if its slots hold just that
(`Store.Shows`); the slots come from pools, were used before, and will be used
again, but the record has them to itself as long as it holds them.

When the record is frozen, its JSON is that of the account, each deferred value
replaced by what it yields (`Store.Shows.recordJson`).
-/

import Telemetry.Trace.View
import Telemetry.Proofs.Closing

namespace Telemetry

open Trace Numeric

/-- What is written under a name. -/
inductive Source where
  | value (v : Value)
  | deferred (c : CellId)

namespace Source

/-- The text that identifies a span if this is written under a name that does. -/
def text : Source → String
  | value v => v.display
  | deferred _ => ""

/-- The value that a source comes to. -/
def yield (s : Store) : Source → Option Value
  | value v => some v
  | deferred c => (s.cell c).yields

end Source

/-- What an attribute has that was written once and is not frozen. -/
def Trace.Slot.source? (a : Slot) : Option Source :=
  match a.immutable, a.value, a.deferred with
  | false, some v, none => some (.value v)
  | false, none, some c => some (.deferred c)
  | _, _, _ => none

/-- What an attribute has is no bookkeeping. -/
theorem Trace.Slot.source?_of_bare {a b : Slot} (h : a.bare = b.bare) :
    a.source? = b.source? := by
  rw [source?, source?, immutable_of_bare h, value_of_bare h, deferred_of_bare h]

/-- An attribute that carries a deferred value was written with it. -/
theorem Trace.Slot.eq_deferred_of_source? {a : Slot} {x : Source} {c : CellId}
    (hx : a.source? = some x) (hc : a.deferred = some c) : x = .deferred c := by
  unfold source? at hx
  split at hx
  · next hd =>
    rw [hd] at hc
    cases hc
  · next hd =>
    rw [hd] at hc
    cases hc
    exact (Option.some.inj hx).symm
  · cases hx

/-- What was written into a collection and not taken out again. -/
structure Written where
  traceId : String := ""
  spanId : String := ""
  priority : Binary32 := .zero false
  attributes : Category → Keyed Source := fun _ => .empty

namespace Written

/-- Something is written; what had the category and the name is gone. -/
def put (w : Written) (d : Definition) (x : Source) : Written where
  traceId := if d.name = Definition.traceIdName then x.text else w.traceId
  spanId := if d.name = Definition.guidName then x.text else w.spanId
  priority := w.priority
  attributes k :=
    if d.category = k then (w.attributes d.category).insert d.name x else w.attributes k

/-- The keys are taken out. -/
def remove (w : Written) (keys : List (Category × String)) : Written :=
  { w with attributes := fun k => (w.attributes k).keep fun n => (k, n) ∉ keys }

/-- A value as JSON, by its kind. -/
def valueJson : Value → Json
  | .bool b => .bool b
  | .int n => .int n.toInt
  | .double x => .double x
  | .text s => .text s

/-- The attributes of a category as JSON; what yields no value is left out. -/
def attributesJson (w : Written) (s : Store) (k : Category) : Json :=
  .object ((w.attributes k).entries.filterMap fun (n, x) =>
    (x.yield s).map fun v => (n, valueJson v))

/-- A span of what was written, as JSON. -/
def json (w : Written) (s : Store) : Json :=
  .object [("traceId", .text w.traceId), ("spanId", .text w.spanId),
    ("priority", .single w.priority), ("intrinsics", w.attributesJson s .intrinsic),
    ("agentAttributes", w.attributesJson s .agent),
    ("userAttributes", w.attributesJson s .user)]

/-- A value is written as JSON by its kind. -/
theorem toJson_eq_valueJson (v : Value) : v.toJson = valueJson v := by
  cases v <;> rfl

end Written

namespace Trace.Record

/-! ### The identity of a record with a new attribute -/

variable (r : Record) (d : Definition) (v : Option Value) (i : SlotId)

/-- An attribute of the name of the trace identifies it, and others leave the identity. -/
theorem traceId_placed : ((r.identify d.name v).place d i).traceId =
    if d.name = Definition.traceIdName then v.elim "" Value.display else r.traceId := by
  rw [place, identify]
  split_ifs <;> cases d.category <;> rfl

/-- An attribute of the name of the span identifies it, and others leave the identity. -/
theorem spanId_placed : ((r.identify d.name v).place d i).spanId =
    if d.name = Definition.guidName then v.elim "" Value.display else r.spanId := by
  rw [place, identify]
  split_ifs with htrace hguid
  · exact absurd (htrace.symm.trans hguid) (by decide)
  all_goals cases d.category <;> rfl

/-- An attribute does not change the priority. -/
theorem priority_placed : ((r.identify d.name v).place d i).priority = r.priority := by
  rw [place, identify]
  split_ifs <;> cases d.category <;> rfl

end Trace.Record

namespace Store

variable {s s' : Store} {r : RecordId} {w : Written} {L : Ledger} {H : Multiset RecordId}
  {P : RecordId → Prop} {W : SlotId → Prop} {d : Definition} {a : Slot} {i : SlotId}

/-! ### The JSON of a record -/

/-- A record as JSON, from its attributes as JSON. -/
theorem recordJson_eq {j : Category → Json}
    (h : ∀ k, s.attributesJson ((s.record r).attributes k) = j k) :
    s.recordJson r = .object [("traceId", .text (s.record r).traceId),
      ("spanId", .text (s.record r).spanId), ("priority", .single (s.record r).priority),
      (Category.intrinsic.label, j .intrinsic), (Category.agent.label, j .agent),
      (Category.user.label, j .user)] := by
  rw [← h, ← h, ← h]
  rfl

/-- The JSON of a record is that of the record and the values it holds. -/
theorem recordJson_congr (hr : s'.record r = s.record r)
    (h : ∀ i ∈ (s.record r).held, (s'.slot i).value = (s.slot i).value) :
    s'.recordJson r = s.recordJson r := by
  have hmap : ∀ k, s'.attributesJson ((s'.record r).attributes k) =
      s.attributesJson ((s.record r).attributes k) := fun k => by
    rw [hr]
    refine congrArg Json.object (List.filterMap_congr fun e he => ?_)
    dsimp only
    rw [h e.2 (Record.mem_held.2 ⟨k, e.1, Keyed.get?_eq_some_iff.2 he⟩)]
  rw [recordJson_eq hmap, hr]
  exact (recordJson_eq fun _ => rfl).symm

/-! ### Showing what was written -/

/-- A record shows what was written: its slots hold it, and hold it for this
record alone. -/
structure Shows (s : Store) (r : RecordId) (w : Written) : Prop where
  sole : Sole s r
  attributes : ∀ k, ((s.record r).attributes k).map (fun i => (s.slot i).source?) =
    (w.attributes k).map some
  traceId : (s.record r).traceId = w.traceId
  spanId : (s.record r).spanId = w.spanId
  priority : (s.record r).priority = w.priority

namespace Shows

/-- What stands under a name. -/
theorem source (h : Shows s r w) {k : Category} {n : String}
    (hi : ((s.record r).attributes k).get? n = some i) :
    ∃ x, (w.attributes k).get? n = some x ∧ (s.slot i).source? = some x := by
  have hk := congrArg (Keyed.get? · n) (h.attributes k)
  simp only [Keyed.get?_map, hi, Option.map_some] at hk
  cases hx : (w.attributes k).get? n with
  | none =>
    rw [hx] at hk
    cases hk
  | some x =>
    rw [hx] at hk
    exact ⟨x, rfl, Option.some.inj hk⟩

/-- **A place is free if nothing was written to it.** -/
theorem contains (h : Shows s r w) (k : Category) (n : String) :
    ((s.record r).attributes k).contains n = (w.attributes k).contains n := by
  rw [← Keyed.contains_map (fun i => (s.slot i).source?), h.attributes, Keyed.contains_map]

/-- A blank record shows that nothing was written. -/
theorem blank (h : (s.record r).Blank) : Shows s r {} := by
  have hnone : ∀ i, i ∉ (s.record r).held := fun i hi => by
    rw [h.held] at hi
    exact Multiset.notMem_zero i hi
  refine ⟨fun i hi => absurd hi (hnone i), fun k => ?_, h.traceId, h.spanId, h.priority⟩
  have hempty : ((s.record r).attributes k).entries = [] := by
    rw [List.eq_nil_iff_forall_not_mem]
    exact fun e he => hnone e.2 (Record.mem_held.2 ⟨k, e.1, Keyed.get?_eq_some_iff.2 he⟩)
  exact Keyed.ext_entries (congrArg (List.map _) hempty)

/-- A record that is left alone, with its attributes, shows what it did. -/
theorem spared (h : Shows s r w) (hs : Spares P W s s') (hr : P r)
    (hW : ∀ i ∈ (s.record r).held, ¬ W i) : Shows s' r w := by
  have hrecord := hs.record r hr
  refine ⟨fun i hi => ?_, fun k => ?_, hrecord ▸ h.traceId, hrecord ▸ h.spanId,
    hrecord ▸ h.priority⟩
  · rw [hrecord] at hi
    exact ((hs.kept r hr i hi).references (hW i hi)).trans (h.sole i hi)
  · rw [hrecord, ← h.attributes k]
    refine Keyed.map_congr fun i hi => Slot.source?_of_bare ?_
    obtain ⟨n, hn⟩ := Keyed.mem_values_iff.1 hi
    have hheld := Record.mem_held.2 ⟨k, n, hn⟩
    exact (hs.kept r hr i hheld).bare (Or.inr (hW i hheld))

/-- **What is put in is written.** -/
theorem gains (h : Shows s r w) (hg : Gains r d a i L s s') (hb : Books s' L H) {x : Source}
    (ha : a.source? = some x) (htext : a.value.elim "" Value.display = x.text) :
    Shows s' r (w.put d x) := by
  have hslot : (s'.slot i).source? = some x := (Slot.source?_of_bare hg.slot).trans ha
  have hrest : ∀ j ∈ (s'.record r).held, j ≠ i → (s'.slot j).source? = (s.slot j).source? :=
    fun j hj hji => Slot.source?_of_bare ((hg.rest j hj hji).bare (Or.inr id))
  have hattributes : ∀ k, (s'.record r).attributes k = if d.category = k then
      ((s.record r).attributes d.category).insert d.name i else (s.record r).attributes k := by
    intro k
    rw [hg.record, Record.attributes_place, Record.attributes_identify, Record.attributes_identify]
  -- the new slot stands in the new place only
  have hother : ∀ k n j, ((s'.record r).attributes k).get? n = some j →
      ((s.record r).attributes k).get? n = some j → (s'.slot j).source? = (s.slot j).source? := by
    intro k n j hj hj'
    refine hrest j (Record.mem_held.2 ⟨k, n, hj⟩) fun hji => hg.fresh ?_
    exact hji ▸ Multiset.mem_add.2 (Or.inl (mem_holdings.2 ⟨r, k, n, hj'⟩))
  refine ⟨hg.sole hb h.sole, fun k => ?_, ?_, ?_, ?_⟩
  · rw [hattributes, Written.put]
    dsimp only
    split_ifs with hk
    · subst hk
      rw [Keyed.map_insert (g := fun i => (s.slot i).source?), hslot, h.attributes]
      · exact (Keyed.map_insert fun _ _ _ _ => rfl).symm
      · intro n j hj hn
        refine hother d.category n j ?_ hj
        rw [hattributes, if_pos rfl, Keyed.get?_insert, if_neg (Ne.symm hn)]
        exact hj
    · rw [← h.attributes k]
      refine Keyed.map_congr fun j hj => ?_
      obtain ⟨n, hn⟩ := Keyed.mem_values_iff.1 hj
      refine hother k n j ?_ hn
      rw [hattributes, if_neg hk]
      exact hn
  · rw [hg.record, Record.traceId_placed, htext, h.traceId]
    rfl
  · rw [hg.record, Record.spanId_placed, htext, h.spanId]
    rfl
  · rw [hg.record, Record.priority_placed, h.priority]
    rfl

/-- **What is taken out is written no more.** -/
theorem loses (h : Shows s r w) {out : List SlotId} (hl : Loses r out s s')
    {keys : List (Category × String)}
    (hkeys : ∀ k n i, ((s.record r).attributes k).get? n = some i → (i ∈ out ↔ (k, n) ∈ keys)) :
    Shows s' r (w.remove keys) := by
  refine ⟨fun i hi => ((hl.kept i hi).references id).trans (h.sole i (hl.held hi)), fun k => ?_,
    hl.traceId.trans h.traceId, hl.spanId.trans h.spanId, hl.priority.trans h.priority⟩
  have hkeep : (s'.record r).attributes k =
      ((s.record r).attributes k).keep fun n => (k, n) ∉ keys := by
    refine Keyed.ext_entries ((hl.entries k).trans (List.filter_congr fun e he => ?_))
    simp only [hkeys k e.1 e.2 (Keyed.get?_eq_some_iff.2 he)]
  calc ((s'.record r).attributes k).map (fun i => (s'.slot i).source?)
    _ = ((s'.record r).attributes k).map (fun i => (s.slot i).source?) := by
      refine Keyed.map_congr fun i hi => Slot.source?_of_bare ?_
      obtain ⟨n, hn⟩ := Keyed.mem_values_iff.1 hi
      exact (hl.kept i (Record.mem_held.2 ⟨k, n, hn⟩)).bare (Or.inr id)
    _ = (((s.record r).attributes k).map fun i => (s.slot i).source?).keep
        fun n => (k, n) ∉ keys := by rw [hkeep, Keyed.map_keep]
    _ = ((w.remove keys).attributes k).map some := by
      rw [h.attributes, ← Keyed.map_keep]
      rfl

/-- An attribute that was written once comes to what was written. -/
theorem value_settled {x : Source} (hx : (s.slot i).source? = some x) :
    (s.settled i).value = x.yield s := by
  rw [settled, Slot.freeze]
  unfold Slot.source? at hx
  split at hx
  · next him hv hd =>
    cases hx
    rw [him, hv]
    rfl
  · next him hv hd =>
    cases hx
    rw [him, hv, hd]
    rfl
  · cases hx

/-- **A record that is frozen has the JSON of what was written.** -/
theorem recordJson (h : Shows s r w) {K : Multiset SlotId} {T : SlotId → Prop}
    (hf : Freezes K T (s.listed r Category.all) s s') (hT : ∀ i ∈ (s.record r).held, ¬ T i) :
    s'.recordJson r = w.json s := by
  have hrecord := hf.only.record r
  have hvalue : ∀ k n i, ((s.record r).attributes k).get? n = some i →
      ∃ x, (s.slot i).source? = some x ∧ (s'.slot i).value = x.yield s := by
    intro k n i hi
    obtain ⟨x, -, hx⟩ := h.source hi
    have hheld := Record.mem_held.2 ⟨k, n, hi⟩
    refine ⟨x, hx, ?_⟩
    rw [Slot.value_of_bare (hf.settled i (mem_listed_all.2 hheld) (hT i hheld)), value_settled hx]
  have hmap : ∀ k, s'.attributesJson ((s'.record r).attributes k) = w.attributesJson s k := by
    intro k
    -- both are the same function of what the slots have
    set json : String × Option Source → Option (String × Json) := fun e =>
      (e.2.bind (Source.yield s)).map fun v => (e.1, Written.valueJson v)
    have hentries := congrArg Keyed.entries (h.attributes k)
    rw [hrecord]
    refine congrArg Json.object ?_
    calc ((s.record r).attributes k).entries.filterMap
          (fun e => (s'.slot e.2).value.map fun v => (e.1, v.toJson))
      _ = (((s.record r).attributes k).map fun i => (s.slot i).source?).entries.filterMap json := by
        rw [Keyed.map, List.filterMap_map]
        refine List.filterMap_congr fun e he => ?_
        obtain ⟨x, hx, hv⟩ := hvalue k e.1 e.2 (Keyed.get?_eq_some_iff.2 he)
        simp only [Function.comp_apply, json, hx, hv, Option.bind_some,
          Written.toJson_eq_valueJson]
      _ = ((w.attributes k).map some).entries.filterMap json := by rw [hentries]
      _ = (w.attributes k).entries.filterMap
          (fun e => (e.2.yield s).map fun v => (e.1, Written.valueJson v)) := by
        rw [Keyed.map, List.filterMap_map]
        rfl
  rw [recordJson_eq hmap, hrecord, h.traceId, h.spanId, h.priority]
  rfl

end Shows

end Store
end Telemetry
