/-
# From writes to JSON

One collection is followed from its opening to its record, while other
collections that share the pools are written, closed, dropped and sent, and
slots and records are used again and again (`Tracer.Session`).  Whatever
happens besides, a write answers whether its place was free, and the record
comes to what was written into this collection last and not taken out again
(`Session.exports`).
-/

import Telemetry.Proofs.Frozen
import Telemetry.Proofs.Grounded
import Telemetry.Proofs.Names

namespace Telemetry

open Trace Store Numeric

namespace Tracer

variable {t t' : Tracer} {L L' : Ledger} {w : Written} {c : Command} {co : Collection}
  {cn n : String} {r : RecordId} {i : SlotId}

/-- The handle stands for an attribute of the collection. -/
def HasAttribute (t : Tracer) (cn handle : String) : Prop :=
  ∃ co i, t.collections.get? cn = some co ∧ t.slot? handle = some i ∧
    i ∈ (t.store.record co.record).held

/-- The commands that work on a collection or on one of its attributes. -/
def Disturbs (t : Tracer) (cn : String) : Command → Prop
  | .openCollection _ n | .dropCollection n | .intoRecord n _ | .freeze n | .put n _ _
  | .putDeferred n _ _ | .removeMany n _ | .prioritize n _ => n = cn
  | .putAttribute n handle => n = cn ∨ t.HasAttribute cn handle
  | .setValue handle _ | .setDeferred handle _ | .freezeAttribute handle
  | .addReference handle => t.HasAttribute cn handle
  | _ => False

/-- Computing deferred values touches no attribute of the collection. -/
def ThunksApart (t : Tracer) (cn : String) : Prop :=
  ∀ co, t.collections.get? cn = some co →
    t.store.Named fun i => i ∉ (t.store.record co.record).held

/-- The handles stand for the attributes that the collection has under the
keys. -/
def Reads (t : Tracer) (cn : String) (handles : List String) (keys : List (Category × String)) :
    Prop :=
  ∃ co slots, t.collections.get? cn = some co ∧ handles.mapM t.slot? = some slots ∧
    (∀ i ∈ slots, ∃ key ∈ keys,
      ((t.store.record co.record).attributes key.1).get? key.2 = some i) ∧
    ∀ key ∈ keys, ∃ i ∈ slots, ((t.store.record co.record).attributes key.1).get? key.2 = some i

/-- The operations on one collection, from any state that can be reached, with
anything that does not work on it done in between; and what was written. -/
inductive Session (cn : String) : Tracer → Ledger → Written → Prop
  | start {t t' : Tracer} {L : Ledger} {n name : String} {b : Bool} : Reachable t L →
    t.step (.openCollection n cn) = (.opened name b, t') → Session cn t' L {}
  | put {t : Tracer} {L : Ledger} {w : Written} {d : Definition} {v : Value} :
    Session cn t L w → Session cn (t.step (.put cn d v)).2 L (w.put d (.value v))
  | putDeferred {t : Tracer} {L : Ledger} {w : Written} {d : Definition} {n : String}
    {cell : CellId} : Session cn t L w → t.cells.get? n = some cell →
    Session cn (t.step (.putDeferred cn d n)).2 L (w.put d (.deferred cell))
  | prioritize {t : Tracer} {L : Ledger} {w : Written} {x : Binary32} : Session cn t L w →
    Session cn (t.step (.prioritize cn x)).2 L { w with priority := x }
  | removeMany {t : Tracer} {L : Ledger} {w : Written} {handles : List String}
    {keys : List (Category × String)} : Session cn t L w → t.Reads cn handles keys →
    Session cn (t.step (.removeMany cn handles)).2 L (w.remove keys)
  | other {t : Tracer} {L L' : Ledger} {w : Written} {c : Command} : Session cn t L w →
    t.ledgerAfter L c = some L' → ¬ t.Disturbs cn c → t.ThunksApart cn →
    Session cn (t.step c).2 L' w

/-- A session is a run that keeps to the rules. -/
theorem Session.reachable (h : Session cn t L w) : Reachable t L := by
  induction h with
  | @start t t' L n name b ht hc =>
    have hstep := ht.step (c := .openCollection n cn) rfl
    rwa [hc] at hstep
  | put _ ih => exact ih.step rfl
  | putDeferred _ _ ih => exact ih.step rfl
  | prioritize _ ih => exact ih.step rfl
  | removeMany _ _ ih => exact ih.step rfl
  | other _ hL _ _ ih => exact ih.step hL

/-! ### Who has which record -/

/-- Two collections have two records. -/
theorem record_ne_of_name (h : t.inHand.Nodup) (hco : t.collections.get? cn = some co)
    {c : Collection} (hc : t.collections.get? n = some c) (hn : n ≠ cn) :
    c.record ≠ co.record := by
  rw [inHand_eraseCollection hco] at h
  have hc' : (t.collections.erase cn).get? n = some c :=
    (Keyed.get?_erase ..).trans ((if_neg (Ne.symm hn)).trans hc)
  intro heq
  exact (Multiset.nodup_cons.1 h).1 (heq ▸
    mem_inHand_of_collection (t := { t with collections := t.collections.erase cn }) hc')

/-- What does not work on the collection writes another record. -/
theorem target?_ne_of_apart (h : t.inHand.Nodup) (hco : t.collections.get? cn = some co)
    (hc : ¬ t.Disturbs cn c) : t.target? c ≠ some co.record := by
  have hcollection : ∀ n, n ≠ cn → (t.collections.get? n).map Collection.record ≠
      some co.record := by
    intro n hn heq
    obtain ⟨c, hget, heq⟩ := Option.map_eq_some_iff.1 heq
    exact record_ne_of_name h hco hget hn heq
  cases c
  case put n _ _ => exact hcollection n hc
  case putDeferred n _ _ => exact hcollection n hc
  case putAttribute n _ => exact hcollection n fun hn => hc (Or.inl hn)
  case removeMany n _ => exact hcollection n hc
  case prioritize n _ => exact hcollection n hc
  case prioritizeRecord n _ =>
    exact fun hr => record_ne_of_outstanding h (mem_outstanding_of_record hr) hco rfl
  all_goals exact (Option.some_ne_none _).symm

/-- What does not work on the collection does not open another one under its name. -/
theorem opens_of_apart (hc : ¬ t.Disturbs cn c) : ¬ c.Opens cn := by
  cases c <;> first | exact hc | exact id

/-- What does not work on the collection touches none of its attributes. -/
theorem touches_of_apart (h : Books t.store L t.inHand) (hco : t.collections.get? cn = some co)
    (hs : Sole t.store co.record) (hc : ¬ t.Disturbs cn c) (ht : t.Touches i c) :
    i ∉ (t.store.record co.record).held := by
  have hhandle : ∀ {handle}, ¬ t.HasAttribute cn handle → t.slot? handle = some i →
      i ∉ (t.store.record co.record).held := fun hc ht hi => hc ⟨co, i, hco, ht, hi⟩
  have hclosing : ∀ {n}, n ≠ cn → (∃ c, t.collections.get? n = some c ∧
      i ∈ (t.store.record c.record).held) → i ∉ (t.store.record co.record).held := by
    rintro n hn ⟨c, hget, hi⟩ hi'
    exact hs.apart h (record_ne_of_name h.housed.once hco hget hn) hi' hi
  cases c
  case setValue => exact hhandle hc ht
  case setDeferred => exact hhandle hc ht
  case freezeAttribute => exact hhandle hc ht
  case addReference => exact hhandle hc ht
  case putAttribute => exact hhandle (fun h => hc (Or.inr h)) ht
  case freeze => exact hclosing hc ht
  case intoRecord => exact hclosing hc ht
  all_goals exact ht.elim

/-! ### The operations -/

/-- A collection that is opened is blank. -/
theorem openCollection_blank (h : Books t.store L t.inHand) {name : String} {b : Bool}
    (hc : t.answer (.openCollection n cn) = (.opened name b, t')) :
    ∃ co, t'.collections.get? cn = some co ∧ (t'.store.record co.record).Blank := by
  cases hp : t.sets.get? n with
  | none =>
    rw [answer_unknown rfl (fails hp) rfl] at hc
    cases hc
  | some p =>
    obtain ⟨r, s', _, _, hanswer, hblank, -⟩ :=
      openCollection_answer (W := fun _ => True) cn h hp
    rw [hanswer] at hc
    cases hc
    exact ⟨⟨p, r⟩, (Keyed.get?_insert ..).trans (if_pos rfl), hblank⟩

/-- A value that is written into a collection. -/
theorem put_shows (h : Books t.store L t.inHand) (hco : t.collections.get? cn = some co)
    (hw : Shows t.store co.record w) (d : Definition) (v : Value) :
    ∃ s', t.answer (.put cn d v) =
        (.flag (!(w.attributes d.category).contains d.name), { t with store := s' }) ∧
      Shows s' co.record (w.put d (.value v)) := by
  obtain ⟨i, s', hrun, hm, hgains⟩ :=
    h.setValue_moves (W := fun _ => True) (mem_inHand_of_collection hco) d v
  refine ⟨s', ?_, hw.gains hgains hm.books rfl rfl⟩
  rw [hw.contains] at hrun
  exact answer_record rfl (performs hco (by rw [after_ok hrun]))

/-- A deferred value that is written into a collection. -/
theorem putDeferred_shows (h : Books t.store L t.inHand) (hco : t.collections.get? cn = some co)
    (hw : Shows t.store co.record w) (d : Definition) {cell : CellId}
    (hcell : t.cells.get? n = some cell) :
    ∃ s', t.answer (.putDeferred cn d n) =
        (.flag (!(w.attributes d.category).contains d.name), { t with store := s' }) ∧
      Shows s' co.record (w.put d (.deferred cell)) := by
  obtain ⟨i, s', hrun, hm, hgains⟩ :=
    h.setDeferred_moves (W := fun _ => True) (mem_inHand_of_collection hco) d cell
  refine ⟨s', ?_, hw.gains hgains hm.books rfl rfl⟩
  rw [hw.contains] at hrun
  exact answer_record rfl (performs hco (performs hcell (by rw [after_ok hrun])))

/-- A priority is no attribute. -/
theorem prioritize_shows (h : Books t.store L t.inHand) (hco : t.collections.get? cn = some co)
    (hw : Shows t.store co.record w) (x : Binary32) :
    ∃ s', t.answer (.prioritize cn x) = (.single x, { t with store := s' }) ∧
      Shows s' co.record { w with priority := x } := by
  refine ⟨_, answer_record rfl (performs hco rfl), ?_⟩
  have hself := record_modifyRecord_self
    (h.housed.there _ (mem_inHand_of_collection hco)) fun r => { r with priority := x }
  have hattributes : ∀ k, ((t.store.modifyRecord co.record fun r =>
      { r with priority := x }).record co.record).attributes k =
        (t.store.record co.record).attributes k := fun k => by
    rw [hself]
    cases k <;> rfl
  refine ⟨fun i hi => hw.sole i ?_, fun k => ?_, ?_, ?_, ?_⟩
  · rwa [Record.held_of_attributes hattributes] at hi
  · rw [hattributes]
    exact hw.attributes k
  · rw [hself]
    exact hw.traceId
  · rw [hself]
    exact hw.spanId
  · rw [hself]

/-- Attributes that are taken out of a collection, each under the key at which
it was read. -/
theorem removeMany_shows (h : Books t.store L t.inHand) (hco : t.collections.get? cn = some co)
    (hw : Shows t.store co.record w) {handles : List String} {keys : List (Category × String)}
    (hr : t.Reads cn handles keys) :
    ∃ m s', t.answer (.removeMany cn handles) = (.count m, { t with store := s' }) ∧
      Shows s' co.record (w.remove keys) := by
  obtain ⟨co', slots, hco', hslots, hread, hkeys⟩ := hr
  obtain rfl : co' = co := Option.some.inj (hco'.symm.trans hco)
  obtain ⟨m, s', hrun, -, hout⟩ :=
    h.removeMany_moves (W := fun _ => True) (mem_inHand_of_collection hco) slots
  refine ⟨m, s', answer_record rfl (performs hco (performs hslots (by rw [after_ok hrun]))),
    hw.loses hout.toLoses fun k n i hi => ?_⟩
  -- an attribute has one key only
  have hunique : ∀ key : Category × String,
      ((t.store.record co'.record).attributes key.1).get? key.2 = some i → key = (k, n) := by
    intro key hkey
    obtain ⟨d, hd, hname, hcategory⟩ := h.labelled _ _ _ _ hi
    obtain ⟨d', hd', hname', hcategory'⟩ := h.labelled _ _ _ _ hkey
    obtain rfl := Option.some.inj (hd'.symm.trans hd)
    exact Prod.ext (hcategory'.symm.trans hcategory) (hname'.symm.trans hname)
  constructor
  · intro hmem
    obtain ⟨key, hkey, hget⟩ := hread i hmem
    exact hunique key hget ▸ hkey
  · intro hmem
    obtain ⟨j, hj, hget⟩ := hkeys _ hmem
    exact Option.some.inj (hget.symm.trans hi) ▸ hj

/-- **The record of the collection shows what was written** after every
operation, and whatever is done besides. -/
theorem Session.shows (h : Session cn t L w) :
    ∃ co, t.collections.get? cn = some co ∧ Shows t.store co.record w := by
  -- emptying the log does not matter
  have hclear : ∀ {t : Tracer} {r w}, Shows t.store r w → Shows t.cleared.store r w := fun h =>
    ⟨h.sole, h.attributes, h.traceId, h.spanId, h.priority⟩
  induction h with
  | @start t t' L n name b ht hc =>
    obtain ⟨co, hco, hblank⟩ := openCollection_blank (t := t.cleared) ht.books_cleared hc
    exact ⟨co, hco, Shows.blank hblank⟩
  | @put t L w d v hrun ih =>
    obtain ⟨co, hco, hw⟩ := ih
    obtain ⟨s', hanswer, hw'⟩ :=
      put_shows (t := t.cleared) hrun.reachable.books_cleared hco (hclear hw) d v
    rw [step_eq_answer, hanswer]
    exact ⟨co, hco, hw'⟩
  | @putDeferred t L w d n cell hrun hcell ih =>
    obtain ⟨co, hco, hw⟩ := ih
    obtain ⟨s', hanswer, hw'⟩ :=
      putDeferred_shows (t := t.cleared) hrun.reachable.books_cleared hco (hclear hw) d hcell
    rw [step_eq_answer, hanswer]
    exact ⟨co, hco, hw'⟩
  | @prioritize t L w x hrun ih =>
    obtain ⟨co, hco, hw⟩ := ih
    obtain ⟨s', hanswer, hw'⟩ :=
      prioritize_shows (t := t.cleared) hrun.reachable.books_cleared hco (hclear hw) x
    rw [step_eq_answer, hanswer]
    exact ⟨co, hco, hw'⟩
  | @removeMany t L w handles keys hrun hr ih =>
    obtain ⟨co, hco, hw⟩ := ih
    obtain ⟨m, s', hanswer, hw'⟩ :=
      removeMany_shows (t := t.cleared) hrun.reachable.books_cleared hco (hclear hw) hr
    rw [step_eq_answer, hanswer]
    exact ⟨co, hco, hw'⟩
  | @other t L L' w c hrun hL hc hthunks ih =>
    obtain ⟨co, hco, hw⟩ := ih
    have hbooks := hrun.reachable.books
    have hco' : (t.step c).2.collections.get? cn = some co :=
      ((retains_step t c).collections cn (opens_of_apart hc)).trans hco
    have houtcome := step_outcome hbooks (hthunks co hco)
      (fun i hi => touches_of_apart hbooks hco hw.sole hc hi) hL
    refine ⟨co, hco', hw.spared houtcome.spares ⟨mem_inHand_of_collection hco,
      mem_inHand_of_collection hco', target?_ne_of_apart hbooks.housed.once hco hc⟩ ?_⟩
    exact fun i hi hn => hn hi

/-! ### The record -/

/-- A collection that is closed comes to what was written into it. -/
theorem intoRecord_shows (h : Books t.store L t.inHand) (hco : t.collections.get? cn = some co)
    (hw : Shows t.store co.record w) (hL : t.entry L (.intoRecord cn n) = some L')
    (hthunks : t.ThunksApart cn) :
    ((∀ k x c, (w.attributes k).get? x = some (.deferred c) → t.store.Grounded c) →
      ∃ name t', t.answer (.intoRecord cn n) = (.text name, t')) ∧
    ∀ name t', t.answer (.intoRecord cn n) = (.text name, t') →
      ∃ r, t'.records.get? n = some r ∧ t'.store.recordJson r = w.json t.store ∧
        (t'.store.record r).traceId = w.traceId ∧ (t'.store.record r).spanId = w.spanId ∧
        name = w.traceId ++ "." ++ w.spanId := by
  simp only [entry, hco, Option.elim_some] at hL
  set t₁ : Tracer := { t with collections := t.collections.erase cn }
  have hanswer : t.answer (.intoRecord cn n) = t₁.after co.intoRecord fun r t =>
      (.text (t.store.record r).displayName, { t with records := t.records.insert n r }) :=
    answer_record rfl (performs hco rfl)
  have hcounted := h.counted
  have hrest := h.rest
  rw [inHand_eraseCollection hco] at h
  rw [hanswer]
  constructor
  · intro hgrounded
    -- what an attribute carries was put in as a deferred value, which needs itself nowhere
    obtain ⟨s₁, hclosed⟩ := closed_ends hL hcounted hrest fun i hi c hc => by
      obtain ⟨k, x, hx⟩ := Record.mem_held.1 hi
      obtain ⟨y, hy, hsource⟩ := hw.source hx
      exact hgrounded k x c (Slot.eq_deferred_of_source? hsource hc ▸ hy)
    rw [after_ok (t := t₁) (intoRecord_ok hclosed)]
    exact ⟨_, _, rfl⟩
  · intro name t' hc
    -- a reply with a text means that no freeze was broken off
    rcases h.intoRecord_moves (P := fun _ => True) hL (hthunks co hco) with
      ⟨s₁, -, hrun, hfreezes, -⟩ | ⟨s', hrun, -⟩
    · rw [after_ok (t := t₁) hrun] at hc
      cases hc
      have hjson := hw.recordJson hfreezes fun i hi hn => hn hi
      have hrecord := hfreezes.only.record co.record
      refine ⟨co.record, (Keyed.get?_insert ..).trans (if_pos rfl), hjson, ?_, ?_, ?_⟩
      · exact (congrArg Record.traceId hrecord).trans hw.traceId
      · exact (congrArg Record.spanId hrecord).trans hw.spanId
      · rw [← hw.traceId, ← hw.spanId, ← hrecord]
        rfl
    · rw [after_error (t := t₁) hrun] at hc
      cases hc

/-- **From writes to JSON.**  A write to a collection answers whether its place
was free.  The record of the collection can be had if none of its deferred
values needs itself, and whenever it is had, its JSON is that of the last
writes to the collection without what was taken out again, each deferred value
replaced by what it yields; its identity is the text of the last writes to the
two names that identify a span. -/
theorem Session.exports (h : Session cn t L w) :
    (∀ d v, (t.step (.put cn d v)).1 = .flag (!(w.attributes d.category).contains d.name)) ∧
    (∀ d n cell, t.cells.get? n = some cell → (t.step (.putDeferred cn d n)).1 =
      .flag (!(w.attributes d.category).contains d.name)) ∧
    ∀ n L', t.ledgerAfter L (.intoRecord cn n) = some L' → t.ThunksApart cn →
      ((∀ k x c, (w.attributes k).get? x = some (.deferred c) → t.store.Grounded c) →
        ∃ name t', t.step (.intoRecord cn n) = (.text name, t')) ∧
      ∀ name t', t.step (.intoRecord cn n) = (.text name, t') →
        ∃ r, t'.records.get? n = some r ∧ t'.store.recordJson r = w.json t.store ∧
          (t'.store.record r).traceId = w.traceId ∧ (t'.store.record r).spanId = w.spanId ∧
          name = w.traceId ++ "." ++ w.spanId := by
  obtain ⟨co, hco, hw⟩ := h.shows
  have hcleared : Shows t.cleared.store co.record w :=
    ⟨hw.sole, hw.attributes, hw.traceId, hw.spanId, hw.priority⟩
  have hbooks := h.reachable.books_cleared
  refine ⟨fun d v => ?_, fun d n cell hcell => ?_, fun n L' hL hthunks => ?_⟩
  · obtain ⟨s', hanswer, -⟩ := put_shows (t := t.cleared) hbooks hco hcleared d v
    rw [step_eq_answer, hanswer]
  · obtain ⟨s', hanswer, -⟩ := putDeferred_shows (t := t.cleared) hbooks hco hcleared d hcell
    rw [step_eq_answer, hanswer]
  · exact intoRecord_shows (t := t.cleared) hbooks hco hcleared hL hthunks

/-- A set of pools and a deferred value. -/
def deferring : List Command := [.setUp "p" .small .small, .defer "c" (some (.bool true)) []]

/-- A collection with an identity, a number in place of a text, and a deferred
value: its record has the trace of the first, the last of the second, and what the
third yields. -/
theorem exports_deferring : ∃ t w, Session "a" t 0 w ∧
    ∃ name t' r, t.step (.intoRecord "a" "r") = (.text name, t') ∧ t'.records.get? "r" = some r ∧
      t'.store.recordJson r = w.json t.store ∧
      t'.store.recordJson r = .object [("traceId", .text "t1"), ("spanId", .text ""),
        ("priority", .single (.zero false)),
        ("intrinsics", .object [("traceId", .text "t1")]),
        ("agentAttributes", .object [("size", .int 3)]),
        ("userAttributes", .object [("late", .bool true)])] ∧
      (t'.store.record r).traceId = "t1" ∧ (t'.store.record r).spanId = "" ∧ name = "t1." := by
  have hopen := Session.start (Reachable.start.follow deferring rfl)
    (show step _ (.openCollection "p" "a") = _ from rfl)
  have htrace := hopen.put (d := Definition.traceId) (v := .text "t1")
  have htext := htrace.put (d := { name := "size", category := .agent }) (v := .text "big")
  have hnumber := htext.put (d := { name := "size", category := .agent }) (v := .int 3)
  have hdefer := hnumber.putDeferred (d := { name := "late", category := .user }) (n := "c") rfl
  -- the deferred value does no deeds, so nothing can disturb the collection
  have hcells : ∀ {t w}, Session "a" t 0 w → t.store.cells.size = 1 →
      (t.store.cell 0).effects = [] → ∀ c, (t.store.cell c).effects = [] :=
    fun {t _} _ hsize hzero c => by
    cases c with
    | zero => exact hzero
    | succ c =>
      rw [cell_of_size_le (by omega)]
      rfl
  have heffects := hcells hdefer rfl rfl
  obtain ⟨hends, hjson⟩ := hdefer.exports.2.2 "r" 0 (by decide +kernel) fun co _ c e he => by
    rw [heffects] at he
    cases he
  -- it needs no other values, so its computation ends
  obtain ⟨name, t', hstep⟩ := hends fun _ _ c _ => Acc.intro c fun d hd => by
    obtain ⟨e, he, -⟩ := hd
    rw [heffects] at he
    cases he
  obtain ⟨r, hr, hrecord, htraceId, hspanId, hname⟩ := hjson name t' hstep
  exact ⟨_, _, hdefer, name, t', r, hstep, hr, hrecord, hrecord.trans rfl, htraceId, hspanId,
    hname⟩

end Tracer
end Telemetry
