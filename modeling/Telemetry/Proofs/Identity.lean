/-
# The identity of a span

Two names identify a span, whatever category they stand in.  A record takes an
identifier over when an attribute of that name is put in, with the text that the
attribute has at this moment, and it never looks at the attribute again.  So
each identifier is the text of the last attribute of its name that was put in
(`Written.identifier_ofWrites`), however often the attribute is written afterwards
and whatever its deferred value comes to.

For a collection that is only written this means: the identifier agrees with its
attribute where the last write of the name was a value, and is empty where it
was a deferred one (`Drafts.identifies`).  And an attribute that is put in where
it is already changes nothing but the identifier of its name
(`putAttribute_again`).
-/

import Telemetry.Proofs.Calls
import Telemetry.Proofs.Session
import Telemetry.Proofs.Sweep

namespace Telemetry

open Trace Store

/-- What identifies a span. -/
inductive Identifier where
  | trace
  | span

namespace Identifier

/-- The name of the attributes that give an identifier. -/
def name : Identifier → String
  | trace => Definition.traceIdName
  | span => Definition.guidName

/-- The identifier in a record. -/
def of (r : Record) : Identifier → String
  | trace => r.traceId
  | span => r.spanId

/-- The identifier in an account of what was written. -/
def ofWritten (w : Written) : Identifier → String
  | trace => w.traceId
  | span => w.spanId

variable (k : Identifier) (r : Record)

/-- **An attribute of the name of an identifier gives it**, with its text. -/
theorem of_identify (n : String) (v : Option Value) :
    k.of (r.identify n v) = if n = k.name then v.elim "" Value.display else k.of r := by
  unfold Record.identify
  cases k with
  | trace => split_ifs <;> first | rfl | contradiction
  | span =>
    split_ifs with htrace hguid
    · exact absurd (htrace.symm.trans hguid) (by decide)
    all_goals first | rfl | contradiction

end Identifier

/-! ### What was written last -/

section Writes

variable {ws : List (Definition × Source)} {w : Definition × Source} {n : String}

/-- The account of some writes. -/
def Written.ofWrites (ws : List (Definition × Source)) : Written :=
  ws.foldl (fun w e => w.put e.1 e.2) {}

/-- The last write of a name, in any category. -/
def Written.lastNamed (n : String) (ws : List (Definition × Source)) :
    Option (Definition × Source) :=
  Keyed.lastUnder n (ws.map fun e => (e.1.name, e))

namespace Written

/-- One write more is put into the account of the others. -/
theorem ofWrites_concat : ofWrites (ws ++ [w]) = (ofWrites ws).put w.1 w.2 := by
  simp [ofWrites]

/-- The last write decides if it has the name. -/
theorem lastNamed_concat :
    lastNamed n (ws ++ [w]) = if w.1.name = n then some w else lastNamed n ws := by
  rw [lastNamed, List.map_append, List.map_singleton, Keyed.lastUnder_concat]
  rfl

/-- What was written last of a name has this name. -/
theorem name_of_lastNamed (h : lastNamed n ws = some w) : w.1.name = n := by
  induction ws using List.reverseRecOn with
  | nil => cases h
  | append_singleton ws v ih =>
    rw [lastNamed_concat] at h
    split_ifs at h with hv
    · exact Option.some.inj h ▸ hv
    · exact ih h

/-- **An identifier is the text of the last write of its name.** -/
theorem identifier_ofWrites (k : Identifier) (ws : List (Definition × Source)) :
    k.ofWritten (ofWrites ws) = (lastNamed k.name ws).elim "" fun w => w.2.text := by
  have hput : ∀ (w : Written) (d : Definition) (x : Source),
      k.ofWritten (w.put d x) = if d.name = k.name then x.text else k.ofWritten w := by
    cases k <;> exact fun _ _ _ => rfl
  induction ws using List.reverseRecOn with
  | nil => cases k <;> rfl
  | append_singleton ws w ih =>
    rw [ofWrites_concat, hput, lastNamed_concat, ih]
    split_ifs <;> rfl

/-- The last write of a name stands in its place. -/
theorem get?_of_lastNamed (h : lastNamed n ws = some w) :
    ((ofWrites ws).attributes w.1.category).get? w.1.name = some w.2 := by
  induction ws using List.reverseRecOn with
  | nil => cases h
  | append_singleton ws v ih =>
    rw [ofWrites_concat, put]
    dsimp only
    rw [lastNamed_concat] at h
    split_ifs at h with hv
    · obtain rfl := Option.some.inj h
      rw [if_pos rfl, Keyed.get?_insert, if_pos rfl]
    · -- the later write has another name, so it is in another place
      have hne : v.1.name ≠ w.1.name := by rwa [name_of_lastNamed h]
      split_ifs with hk
      · rw [Keyed.get?_insert, if_neg hne, hk]
        exact ih h
      · exact ih h

end Written

end Writes

/-! ### Collections that are closed -/

namespace Store

open Telemetry.Action

/-- Computing deferred values writes no record. -/
theorem records_steady (R : Array Record) : Steady (·.records = R) :=
  ⟨fun h _ => h, fun h => h, fun i s h => (congrArg Prod.fst (releaseSlot_rest i s rfl)).trans h⟩

variable {s s' : Store} {r : RecordId} {w : Written} {K : Multiset SlotId} {T : SlotId → Prop}

/-- What was written under a name is found there when the record is frozen, with
the value that it comes to. -/
theorem Shows.resolved (h : Shows s r w) (hf : Freezes K T (s.listed r Category.all) s s')
    (hT : ∀ i ∈ (s.record r).held, ¬ T i) {k : Category} {n : String} {x : Source}
    (hx : (w.attributes k).get? n = some x) :
    ∃ i, ((s'.record r).attributes k).get? n = some i ∧ (s'.slot i).immutable = true ∧
      (s'.slot i).value = x.yield s := by
  have hcontains := h.contains k n
  rw [Keyed.contains, Keyed.contains, hx, Option.isSome_some, Option.isSome_iff_exists] at hcontains
  obtain ⟨i, hi⟩ := hcontains
  obtain ⟨y, hy, hsource⟩ := h.source hi
  obtain rfl := Option.some.inj (hy.symm.trans hx)
  have hheld := Record.mem_held.2 ⟨k, n, hi⟩
  have hlisted := mem_listed_all.2 hheld
  refine ⟨i, by rw [hf.only.record, hi], hf.frozen i hlisted, ?_⟩
  rw [Slot.value_of_bare (hf.settled i hlisted (hT i hheld)), value_settled hsource]

end Store

namespace Tracer

variable {t t' : Tracer} {L L' : Ledger} {co : Collection} {cn n name : String}
  {w : Written} {ws : List (Definition × Source)}

/-- Turning a collection into a record takes its name away and answers with the name of the
span. -/
theorem answer_intoRecord (hco : t.collections.get? cn = some co) (n : String) :
    t.answer (.intoRecord cn n) = { t with collections := t.collections.erase cn }.after
      co.intoRecord fun r t =>
        (.text (t.store.record r).displayName, { t with records := t.records.insert n r }) :=
  answer_record rfl (performs hco rfl)

/-- **A record that is had is that of the collection**, with the identity and
the attributes that it had there. -/
theorem intoRecord_record (hco : t.collections.get? cn = some co)
    (hc : t.answer (.intoRecord cn n) = (.text name, t')) :
    t'.records.get? n = some co.record ∧ t'.store.record co.record = t.store.record co.record ∧
      name = (t.store.record co.record).displayName := by
  rw [answer_intoRecord hco] at hc
  set t₁ : Tracer := { t with collections := t.collections.erase cn }
  cases hrun : Category.all.forM (freezeCategory co.record) t₁.store with
  | error e s₁ =>
    rw [after_error (t := t₁) (intoRecord_error hrun)] at hc
    cases hc
  | ok u s₁ =>
    have hrecords : s₁.records = t.store.records :=
      (freeze_steady (records_steady _) co).of_ok (s := t₁.store) rfl hrun
    rw [after_ok (t := t₁) (intoRecord_ok hrun)] at hc
    cases hc
    have hrecord : (s₁.letGo co.pools).record co.record = t.store.record co.record := by
      show s₁.record co.record = _
      rw [record, hrecords]
      rfl
    exact ⟨(Keyed.get?_insert ..).trans (if_pos rfl), hrecord, by rw [← hrecord]⟩

/-- **What comes of closing a collection**, where computing its deferred values
writes attributes in `T` only. -/
theorem intoRecord_freezes {T : SlotId → Prop} (h : Books t.store L t.inHand)
    (hco : t.collections.get? cn = some co) (hL : t.entry L (.intoRecord cn n) = some L')
    (hT : Named T t.store) (hc : t.answer (.intoRecord cn n) = (.text name, t')) :
    ∃ s', Freezes t.store.holdings T (t.store.listed co.record Category.all) t.store s' ∧
      t'.store = s'.letGo co.pools := by
  simp only [entry, hco, Option.elim_some] at hL
  rw [inHand_eraseCollection hco] at h
  rw [answer_intoRecord hco] at hc
  set t₁ : Tracer := { t with collections := t.collections.erase cn }
  rcases h.intoRecord_moves (P := fun _ => True) hL hT with
    ⟨s', -, hrun, hfreezes, -⟩ | ⟨s', hrun, -⟩
  · rw [after_ok (t := t₁) hrun] at hc
    cases hc
    exact ⟨s', hfreezes, rfl⟩
  · rw [after_error (t := t₁) hrun] at hc
    cases hc

/-- The writes into a collection that is only written, opened in any state that
can be reached, with anything that does not work on it done in between. -/
inductive Drafts (cn : String) : Tracer → Ledger → List (Definition × Source) → Prop
  | start {t t' : Tracer} {L : Ledger} {n name : String} {b : Bool} : Reachable t L →
    t.step (.openCollection n cn) = (.opened name b, t') → Drafts cn t' L []
  | put {t : Tracer} {L : Ledger} {ws : List (Definition × Source)} {d : Definition} {v : Value} :
    Drafts cn t L ws → Drafts cn (t.step (.put cn d v)).2 L (ws ++ [(d, .value v)])
  | putDeferred {t : Tracer} {L : Ledger} {ws : List (Definition × Source)} {d : Definition}
    {n : String} {cell : CellId} : Drafts cn t L ws → t.cells.get? n = some cell →
    Drafts cn (t.step (.putDeferred cn d n)).2 L (ws ++ [(d, .deferred cell)])
  | other {t : Tracer} {L L' : Ledger} {ws : List (Definition × Source)} {c : Command} :
    Drafts cn t L ws → t.ledgerAfter L c = some L' → ¬ t.Disturbs cn c → t.ThunksApart cn →
    Drafts cn (t.step c).2 L' ws

namespace Drafts

/-- Drafts are sessions in which nothing is taken out and nothing is put in again. -/
theorem session (h : Drafts cn t L ws) : Session cn t L (Written.ofWrites ws) := by
  induction h with
  | start ht hc => exact .start ht hc
  | put _ ih =>
    rw [Written.ofWrites_concat]
    exact ih.put
  | putDeferred _ hcell ih =>
    rw [Written.ofWrites_concat]
    exact ih.putDeferred hcell
  | other _ hL hc hthunks ih => exact ih.other hL hc hthunks

/-- **An identifier is the text that was written last under its name**, in any
category: that of a value, and none for a deferred value.  This is so whatever
computing the deferred values does when the collection is closed.

Where computing them leaves the attributes of the collection alone, the
collection is closed unless a value needs itself, and then the attribute that was
written last has what was written, or what its deferred value yields.  So the
identifier agrees with its attribute where a value was written, and else only
where the deferred value has no text. -/
theorem identifies (h : Drafts cn t L ws) (n : String) :
    (∀ name t', t.step (.intoRecord cn n) = (.text name, t') →
      ∃ r, t'.records.get? n = some r ∧
        (∀ k : Identifier, k.of (t'.store.record r) =
          (Written.lastNamed k.name ws).elim "" fun w => w.2.text) ∧
        name = Identifier.trace.of (t'.store.record r) ++ "." ++
          Identifier.span.of (t'.store.record r) ∧
        ∃ rest, t'.store.recordJson r = .object
          (("traceId", .text (Identifier.trace.of (t'.store.record r))) ::
            ("spanId", .text (Identifier.span.of (t'.store.record r))) :: rest)) ∧
    ∀ L', t.ledgerAfter L (.intoRecord cn n) = some L' → t.ThunksApart cn →
      ((∀ k x c, ((Written.ofWrites ws).attributes k).get? x = some (.deferred c) →
          t.store.Grounded c) →
        ∃ name t', t.step (.intoRecord cn n) = (.text name, t')) ∧
      ∀ name t' r, t.step (.intoRecord cn n) = (.text name, t') → t'.records.get? n = some r →
        ∀ (k : Identifier) d x, Written.lastNamed k.name ws = some (d, x) →
          ∃ i, ((t'.store.record r).attributes d.category).get? d.name = some i ∧
            (t'.store.slot i).immutable = true ∧ (t'.store.slot i).value = x.yield t.store ∧
            ∀ v, (t'.store.slot i).value = some v →
              (k.of (t'.store.record r) = v.display ↔ x = .value v ∨ v.display = "") := by
  obtain ⟨co, hco, hw⟩ := h.session.shows
  have hbooks := h.session.reachable.books_cleared
  have hcleared : Shows t.cleared.store co.record (Written.ofWrites ws) :=
    ⟨hw.sole, hw.attributes, hw.traceId, hw.spanId, hw.priority⟩
  -- the record that comes of the collection is identified by the last writes, however they
  -- were made
  have hrecord : ∀ name t', t.step (.intoRecord cn n) = (.text name, t') →
      t'.records.get? n = some co.record ∧
        (∀ k : Identifier, k.of (t'.store.record co.record) =
          (Written.lastNamed k.name ws).elim "" fun w => w.2.text) ∧
        name = (t'.store.record co.record).displayName := by
    intro name t' hc
    obtain ⟨hget, hrecord, hname⟩ := intoRecord_record (t := t.cleared) hco hc
    refine ⟨hget, fun k => ?_, hname.trans (by rw [hrecord])⟩
    rw [hrecord, ← Written.identifier_ofWrites]
    cases k
    · exact hw.traceId
    · exact hw.spanId
  refine ⟨fun name t' hc => ?_, fun L' hL hthunks => ⟨fun hgrounded => ?_, ?_⟩⟩
  · obtain ⟨hget, hof, hname⟩ := hrecord name t' hc
    exact ⟨co.record, hget, hof, hname, _, rfl⟩
  · exact (intoRecord_shows (t := t.cleared) hbooks hco hcleared hL hthunks).1 hgrounded
  · intro name t' r hc hr k d x hx
    obtain ⟨hget, hof, -⟩ := hrecord name t' hc
    obtain rfl := Option.some.inj (hget.symm.trans hr)
    -- its attributes are frozen as they have to be, so each value is the one that was
    -- written or deferred
    obtain ⟨s', hfreezes, hstore⟩ :=
      intoRecord_freezes (t := t.cleared) hbooks hco hL (hthunks co hco) hc
    obtain ⟨i, hi, himmutable, hvalue⟩ :=
      hcleared.resolved hfreezes (fun i hi hn => hn hi) (Written.get?_of_lastNamed hx)
    rw [hstore] at hof ⊢
    refine ⟨i, hi, himmutable, hvalue, fun v hv => ?_⟩
    rw [hof, hx, Option.elim_some]
    -- an identifier that was deferred is no text when it is written, so it agrees with an
    -- empty one only
    cases x with
    | value u =>
      obtain rfl : u = v := Option.some.inj (hvalue.symm.trans hv)
      exact iff_of_true rfl (Or.inl rfl)
    | deferred c =>
      have htext : Source.text (.deferred c) = "" := rfl
      simp only [htext, reduceCtorEq, false_or, eq_comm]

end Drafts

/-- A set of pools and a deferred value. -/
def deferringIdentity : List Command :=
  [.setUp "p" .small .small, .defer "l" (some (.text "s1")) []]

/-- The trace is written as a value and the span as a deferred one: the record
has the first identifier only. -/
theorem identifies_deferringIdentity : ∃ t ws, Drafts "c" t 0 ws ∧
    ∃ name t' r i, t.step (.intoRecord "c" "r") = (.text name, t') ∧
      t'.records.get? "r" = some r ∧
      Identifier.trace.of (t'.store.record r) = "t1" ∧
      Identifier.span.of (t'.store.record r) = "" ∧
      ((t'.store.record r).attributes .intrinsic).get? Definition.guidName = some i ∧
      (t'.store.slot i).value = some (.text "s1") := by
  have hopen := Drafts.start (Reachable.start.follow deferringIdentity rfl)
    (show step _ (.openCollection "p" "c") = _ from rfl)
  have hput := hopen.put (d := Definition.traceId) (v := .text "t1")
  have hdefer := hput.putDeferred (d := Definition.guid) (n := "l")
    (show _ = some (0 : CellId) from rfl)
  -- the deferred value does no deeds, so nothing can disturb the collection
  have heffects : ∀ {t ws}, Drafts "c" t 0 ws → t.store.cells.size = 1 →
      (t.store.cell 0).effects = [] → ∀ c, (t.store.cell c).effects = [] :=
    fun {t _} _ hsize hzero c => by
    cases c with
    | zero => exact hzero
    | succ c =>
      rw [cell_of_size_le (by omega)]
      rfl
  have heffects := heffects hdefer rfl rfl
  obtain ⟨hrecord, hclose⟩ := hdefer.identifies "r"
  obtain ⟨hends, hvalues⟩ := hclose 0 (by decide +kernel) fun co _ c e he => by
    rw [heffects] at he
    cases he
  -- it needs no other values, so its computation ends
  obtain ⟨name, t', hstep⟩ := hends fun _ _ c _ => Acc.intro c fun d hd => by
    obtain ⟨e, he, -⟩ := hd
    rw [heffects] at he
    cases he
  obtain ⟨r, hr, hof, -⟩ := hrecord name t' hstep
  obtain ⟨i, hi, -, hvalue, -⟩ :=
    hvalues name t' r hstep hr .span _ _ (Written.lastNamed_concat.trans (if_pos rfl))
  exact ⟨_, _, hdefer, name, t', r, i, hstep, hr, hof .trace, hof .span, hi, hvalue⟩

/-- **A span whose trace is written as a deferred value has none.**  The
attribute has a value when the record is frozen, and the identifier is empty. -/
theorem unidentified_deferred :
    let t := (({} : Tracer).run (deferringIdentity ++
      [.openCollection "p" "c", .putDeferred "c" Definition.traceId "l"])).2
    let t' := (t.step (.intoRecord "c" "r")).2
    t'.records.get? "r" = some 0 ∧ (t'.store.record 0).displayName = "." ∧
      (t'.store.record 0).intrinsics.get? Definition.traceIdName = some 0 ∧
      (t'.store.slot 0).value = some (.text "s1") := by
  refine ⟨?_, ?_, ?_, ?_⟩ <;> decide +kernel

end Tracer

/-! ### Attributes that are put in again -/

namespace Trace.Record

/-- The record with another identity. -/
def identified (r : Record) (f : Identifier → String) : Record :=
  { r with traceId := f .trace, spanId := f .span }

/-- Identifying a span changes nothing but the identity of the record. -/
theorem identify_eq (r : Record) (n : String) (v : Option Value) :
    r.identify n v = r.identified fun k => k.of (r.identify n v) := by
  unfold identify
  split_ifs <;> rfl

/-- An identity is no attribute. -/
theorem attributes_identified (r : Record) (f : Identifier → String) (k : Category) :
    (r.identified f).attributes k = r.attributes k := by
  cases k <;> rfl

end Trace.Record

namespace Store

variable {s : Store} {c : Collection} {i : SlotId} {d : Definition}

/-- Only a record that is there has attributes. -/
theorem lt_size_of_attribute {r : RecordId} {k : Category} {n : String}
    (h : ((s.record r).attributes k).get? n = some i) : r < s.records.size := by
  by_contra hr
  rw [record_of_size_le (not_lt.1 hr)] at h
  cases k <;> cases h

/-- What counts is what becomes of the record as it is. -/
theorem modifyRecord_congr {r : RecordId} {f g : Record → Record}
    (h : f (s.record r) = g (s.record r)) : s.modifyRecord r f = s.modifyRecord r g := by
  rw [modifyRecord, modifyRecord, modify_congr h]

/-- Two changes of a record are one. -/
theorem modifyRecord_modifyRecord (s : Store) (r : RecordId) (f g : Record → Record) :
    (s.modifyRecord r f).modifyRecord r g = s.modifyRecord r (g ∘ f) := by
  have hrecords : (s.records.modify r f).modify r g = s.records.modify r (g ∘ f) := by
    refine Array.ext_getElem? fun q => ?_
    simp only [Array.getElem?_modify]
    split_ifs
    · exact Option.map_map ..
    · rfl
  simp only [modifyRecord, hrecords]

/-- **An attribute that is there already** is not put in; but the record takes
its identifier over. -/
theorem install_again (hd : (s.slot i).definition = some d)
    (hi : ((s.record c.record).attributes d.category).get? d.name = some i) :
    c.install i s = .ok false
      (s.modifyRecord c.record fun r => r.identify d.name (s.slot i).value) := by
  have hget : (((s.modifyRecord c.record fun r => r.identify d.name (s.slot i).value).record
      c.record).attributes d.category).get? d.name = some i := by
    rw [record_modifyRecord_self (lt_size_of_attribute hi), Record.attributes_identify, hi]
  simp only [Collection.install, Action.bind_apply, Action.get_apply, hd, Action.modify_apply,
    hget, if_true, Action.pure_apply]

end Store

namespace Tracer

variable {t : Tracer} {co : Collection} {cn h : String}

/-- The handle stands for an attribute that the collection has under the
category and the name of this attribute. -/
def Installed (t : Tracer) (co : Collection) (h : String) : Prop :=
  ∃ i d, t.slot? h = some i ∧ (t.store.slot i).definition = some d ∧
    ((t.store.record co.record).attributes d.category).get? d.name = some i

/-- The text that the attribute of a handle has for an identifier. -/
def gives (t : Tracer) (k : Identifier) (h : String) : Option String := do
  let a := t.store.slot (← t.slot? h)
  if (← a.definition).name = k.name then some (a.value.elim "" Value.display) else none

/-- The tracer with another identity of a record. -/
def reidentify (t : Tracer) (r : RecordId) (f : Identifier → String) : Tracer :=
  { t with store := t.store.modifyRecord r (·.identified f) }

/-- An identifier of a collection once the attributes of some handles were put
in again: that of the last one of its name. -/
def identifierAfter (t : Tracer) (co : Collection) (hs : List String) (k : Identifier) : String :=
  (hs.reverse.findSome? (t.gives k)).getD (k.of (t.store.record co.record))

/-- Putting in again what is there is answered with false, and only the identity of the
record is written. -/
theorem Installed.step (hh : t.Installed co h) (hco : t.collections.get? cn = some co) :
    t.step (.putAttribute cn h) =
      (.flag false, t.cleared.reidentify co.record (t.identifierAfter co [h])) := by
  obtain ⟨i, d, hslot, hd, hi⟩ := hh
  have hrun := install_again (s := t.cleared.store) (c := co) hd hi
  rw [step_eq_answer, answer_record rfl (performs hco (performs hslot (by rw [after_ok hrun])))]
  refine congrArg (fun s => (Reply.flag false, ({ t with store := s } : Tracer)))
    (modifyRecord_congr ?_)
  rw [Record.identify_eq]
  refine congrArg _ (funext fun k => ?_)
  rw [Identifier.of_identify]
  simp only [identifierAfter, gives, hslot, hd, List.reverse_singleton, List.findSome?_singleton,
    Option.bind_eq_bind, Option.bind_some]
  split_ifs <;> rfl

/-- Nothing that matters for putting in again has changed. -/
theorem Installed.reidentify (hh : t.Installed co h) (f : Identifier → String) :
    (t.cleared.reidentify co.record f).Installed co h := by
  obtain ⟨i, d, hslot, hd, hi⟩ := hh
  refine ⟨i, d, hslot, hd, ?_⟩
  show (((t.store.modifyRecord co.record (·.identified f)).record co.record).attributes
    d.category).get? d.name = some i
  rw [record_modifyRecord_self (lt_size_of_attribute hi), Record.attributes_identified, hi]

/-- The last identity stays. -/
theorem reidentify_reidentify (t : Tracer) (r : RecordId) (f g : Identifier → String) :
    (t.cleared.reidentify r f).cleared.reidentify r g = t.cleared.reidentify r g :=
  congrArg (fun s => ({ t with store := s } : Tracer))
    (modifyRecord_modifyRecord t.cleared.store r (·.identified f) (·.identified g))

/-- The identity that was written is read back. -/
theorem of_reidentify {r : RecordId} (hr : r < t.store.records.size) (f : Identifier → String)
    (k : Identifier) : k.of ((t.cleared.reidentify r f).store.record r) = f k := by
  have hself : (t.cleared.reidentify r f).store.record r = (t.store.record r).identified f :=
    record_modifyRecord_self hr _
  rw [hself]
  cases k <;> rfl

/-- A record that takes its own identity over stays as it is. -/
theorem reidentify_self (t : Tracer) (r : RecordId) :
    t.reidentify r (fun k => k.of (t.store.record r)) = t := by
  have hself : t.store.modifyRecord r (·.identified fun k => k.of (t.store.record r)) =
      t.store := by
    rw [modifyRecord, modify_self fun _ => rfl]
  rw [reidentify, hself]

/-- Of several attributes put in again the last one that identifies decides. -/
theorem identifierAfter_cons (t : Tracer) (co : Collection) (h : String) (hs : List String)
    (k : Identifier) : t.identifierAfter co (h :: hs) k =
      (hs.reverse.findSome? (t.gives k)).getD (t.identifierAfter co [h] k) := by
  rw [identifierAfter, identifierAfter, List.reverse_cons, List.findSome?_append,
    List.reverse_singleton]
  cases hs.reverse.findSome? (t.gives k) <;> rfl

/-- **The identifiers follow the attributes that are put in again**, in their
order.  The induction is on the handles; a step leaves a tracer that differs in
an identity only. -/
theorem run_installed (hs : List String) :
    ∀ t : Tracer, t.collections.get? cn = some co → (∀ h ∈ hs, t.Installed co h) →
      (t.run (hs.map (.putAttribute cn))).1 = hs.map (fun _ => .flag false) ∧
      (t.run (hs.map (.putAttribute cn))).2.cleared =
        t.cleared.reidentify co.record (t.identifierAfter co hs) := by
  induction hs with
  | nil => exact fun t _ _ => ⟨rfl, (reidentify_self t.cleared co.record).symm⟩
  | cons h hs ih =>
    intro t hco hall
    have hh := hall h List.mem_cons_self
    obtain ⟨hreplies, hrest⟩ := ih (t.cleared.reidentify co.record (t.identifierAfter co [h])) hco
      fun x hx => (hall x (List.mem_cons_of_mem h hx)).reidentify _
    simp only [List.map_cons, run, hh.step hco, hreplies, hrest, true_and]
    rw [reidentify_reidentify]
    obtain ⟨i, d, -, -, hi⟩ := hh
    refine congrArg _ (funext fun k => ?_)
    rw [identifierAfter_cons, identifierAfter, of_reidentify (lt_size_of_attribute hi)]
    rfl

/-- **An attribute that a collection has already stays where it is**, however
often and in whatever order such attributes are put in again: each time the
reply is that the place was taken, and of the whole tracer nothing changes but
the identity of the record.  Each identifier is then the present text of the
last one of its name, so that nothing changes at all exactly where these texts
are the identifiers already. -/
theorem putAttribute_again (hco : t.collections.get? cn = some co) (hs : List String)
    (hall : ∀ h ∈ hs, t.Installed co h) :
    (t.run (hs.map (.putAttribute cn))).1 = hs.map (fun _ => .flag false) ∧
      (t.run (hs.map (.putAttribute cn))).2.cleared =
        t.cleared.reidentify co.record (t.identifierAfter co hs) ∧
      ((t.run (hs.map (.putAttribute cn))).2.cleared = t.cleared ↔
        ∀ k, t.identifierAfter co hs k = k.of (t.store.record co.record)) := by
  obtain ⟨hreplies, hrun⟩ := run_installed hs t hco hall
  refine ⟨hreplies, hrun, ?_⟩
  rw [hrun]
  constructor
  · intro hsame k
    -- without handles nothing is written, and otherwise the identity is read back from the
    -- record
    cases hs with
    | nil => rfl
    | cons h hs =>
      obtain ⟨i, d, -, -, hi⟩ := hall h List.mem_cons_self
      have hof := of_reidentify (lt_size_of_attribute hi) (t.identifierAfter co (h :: hs)) k
      rw [hsame] at hof
      exact hof.symm
  · intro hsame
    rw [funext hsame]
    exact reidentify_self t.cleared co.record

/-- A collection with two attributes of the name of the trace; the first one goes
by a handle. -/
def twiceNamed : List Command :=
  [.setUp "p" .small .small, .openCollection "p" "c", .put "c" Definition.traceId (.text "a"),
    .get "c" .intrinsic Definition.traceIdName (some "h"),
    .put "c" { name := Definition.traceIdName, category := .agent } (.text "b")]

/-- The first one is put in again, twice. -/
theorem putAttribute_again_twiceNamed :
    let t := (({} : Tracer).run twiceNamed).2
    t.collections.get? "c" = some ⟨0, 0⟩ ∧ (∀ h ∈ ["h", "h"], t.Installed ⟨0, 0⟩ h) ∧
      (t.run (["h", "h"].map (.putAttribute "c"))).1 = ["h", "h"].map (fun _ => .flag false) ∧
      (t.run (["h", "h"].map (.putAttribute "c"))).2.cleared =
        t.cleared.reidentify 0 (t.identifierAfter ⟨0, 0⟩ ["h", "h"]) ∧
      ((t.run (["h", "h"].map (.putAttribute "c"))).2.cleared = t.cleared ↔
        ∀ k, t.identifierAfter ⟨0, 0⟩ ["h", "h"] k = k.of (t.store.record 0)) := by
  have hinstalled : (({} : Tracer).run twiceNamed).2.Installed ⟨0, 0⟩ "h" :=
    ⟨0, Definition.traceId, rfl, rfl, rfl⟩
  have hall : ∀ h ∈ ["h", "h"], (({} : Tracer).run twiceNamed).2.Installed ⟨0, 0⟩ h := by
    simp [hinstalled]
  exact ⟨rfl, hall, putAttribute_again rfl ["h", "h"] hall⟩

/-- **An attribute that is put in again can rename the span.**  The collection
has it already, and another attribute of its name was put in since. -/
theorem renamed_again :
    let t := (({} : Tracer).run twiceNamed).2
    t.collections.get? "c" = some ⟨0, 0⟩ ∧ t.Installed ⟨0, 0⟩ "h" ∧
      (t.store.record 0).displayName = "b." ∧
      ((t.step (.putAttribute "c" "h")).2.store.record 0).displayName = "a." :=
  ⟨rfl, ⟨0, Definition.traceId, rfl, rfl, rfl⟩, by decide +kernel, by decide +kernel⟩

end Tracer
end Telemetry
