/-
# Pools of records

The pools of records are stocked with blank records only, those in hand are in no
pool, and no pool has turned a record away (`Store.Stocked`).  What is done to
attributes leaves all of this alone (`Store.Apart`); a record in hand may be
written; and one that is released is blank before it is offered to its pool,
whichever way it comes back and even where releasing it is broken off
(`releaseRecord_stocked`).

Nothing of this depends on the references on attributes.
-/

import Telemetry.Proofs.Sweep

namespace Telemetry

open Trace

namespace Store

open Telemetry.Action

variable {s s' s'' m : Store} {H : Multiset RecordId} {r : RecordId} {p : SetId} {i : SlotId}
  {rs : List RecordId}

/-! ### Apart from records -/

/-- On the side of the records nothing differs, and no refusal of a record was
reported. -/
structure Apart (s s' : Store) : Prop where
  records : s'.records = s.records
  stored : ∀ p, (s'.set p).records.stored.Sublist (s.set p).records.stored
  log : ∀ text, .recordRejected text ∈ s'.log → .recordRejected text ∈ s.log

namespace Apart

/-- Nothing differs on the side of the records. -/
theorem refl (s : Store) : Apart s s := ⟨rfl, fun _ => List.Sublist.refl _, fun _ h => h⟩

/-- What leaves records alone twice leaves them alone. -/
theorem trans (h : Apart s s') (h' : Apart s' s'') : Apart s s'' :=
  ⟨h'.records.trans h.records, fun p => (h'.stored p).trans (h.stored p),
    fun text ht => h.log text (h'.log text ht)⟩

/-- The records are the same. -/
theorem record (h : Apart s s') (r : RecordId) : s'.record r = s.record r := by
  simp only [Store.record, h.records]

/-- Events that are no refusals of records may be reported. -/
theorem report (s : Store) {es : List Event} (hes : ∀ text, .recordRejected text ∉ es) :
    Apart s (s.report es) := by
  refine ⟨rfl, fun _ => List.Sublist.refl _, fun text h => ?_⟩
  rw [Store.report, ← Array.mem_toList_iff, Array.toList_appendList, List.mem_append] at h
  exact Array.mem_toList_iff.1 (h.resolve_right (hes text))

/-- A pool may give up stored records. -/
theorem modifySet (s : Store) (p : SetId) {f : PoolSet → PoolSet}
    (hf : (f (s.set p)).records.stored.Sublist (s.set p).records.stored) :
    Apart s (s.modifySet p f) := by
  refine ⟨rfl, fun q => ?_, fun _ h => h⟩
  rw [set_modifySet]
  split_ifs with hq
  · exact hq.1 ▸ hf
  · exact List.Sublist.refl _

/-- Slots, deferred values, handles and the clock are no matter. -/
theorem of_same (hrecords : s'.records = s.records) (hsets : s'.sets = s.sets)
    (hlog : s'.log = s.log) : Apart s s' :=
  ⟨hrecords, fun p => by rw [set, hsets, ← set], fun _ h => hlog ▸ h⟩

/-- Time goes by. -/
theorem later (s : Store) (n : Nat) : Apart s { s with now := s.now + n } := of_same rfl rfl rfl

end Apart

/-- Putting a slot back leaves records alone. -/
theorem putSlot_apart (p : SetId) (i : SlotId) : Keeps (Apart m) (putSlot p i) := by
  refine keeps_modify fun s h => h.trans ?_
  rcases (s.set p).slots.put (s.slot i).marked i with ⟨refusal, pool⟩
  have hset : Apart s (s.modifySet p fun q => { q with slots := pool }) :=
    .modifySet s p (List.Sublist.refl _)
  match refusal with
  | none => exact hset.trans (.of_same rfl rfl rfl)
  | some .alreadyPooled => exact hset.trans (.report _ (by simp))
  | some (.overflow _) => exact hset.trans (.report _ (by simp))

/-- Releasing an attribute leaves records alone. -/
theorem releaseSlot_apart (i : SlotId) : Keeps (Apart m) (releaseSlot i) := by
  refine keeps_get fun s _ => ?_
  dsimp only
  cases (s.slot i).definition with
  | none => exact keeps_throw _
  | some d =>
    dsimp only
    split_ifs
    · exact keeps_pure ()
    · refine keeps_bind (keeps_modify fun s h => h.trans (.of_same rfl rfl rfl)) fun _ => ?_
      cases (s.slot i).home with
      | none => exact keeps_pure ()
      | some p =>
        refine keeps_get fun s' _ => ?_
        split_ifs
        · exact putSlot_apart p i
        · exact keeps_pure ()

/-- **Computing deferred values does nothing to records.** -/
theorem apart_steady (m : Store) : Steady (Apart m) where
  write h _ := h.trans (.of_same rfl rfl rfl)
  compute h := h.trans (.of_same rfl rfl rfl)
  release := releaseSlot_apart

/-- Taking a reference leaves records alone. -/
theorem addReference_apart (i : SlotId) : Keeps (Apart m) (addReference i) :=
  keeps_modify fun _ h => h.trans (.of_same rfl rfl rfl)

/-- Giving up a reference leaves records alone. -/
theorem removeReference_apart (i : SlotId) : Keeps (Apart m) (removeReference i) :=
  removeReference_steady (apart_steady m) i

/-- Taking a slot from its pool leaves records alone. -/
theorem takeSlot_apart (p : SetId) : Keeps (Apart m) (takeSlot p) := by
  refine keeps_get fun s _ => ?_
  rcases (s.set p).slots.take fun i => (s.slot i).marked with ⟨taken, pool⟩
  refine keeps_bind (keeps_modify fun s h => h.trans (.modifySet s p (List.Sublist.refl _)))
    fun _ => ?_
  cases taken with
  | reused i =>
    exact keeps_bind (keeps_modify fun _ h => h.trans (.of_same rfl rfl rfl)) fun _ => keeps_pure i
  | missed =>
    exact keeps_bind (keeps_modify fun _ h => h.trans (.of_same rfl rfl rfl)) fun _ => keeps_pure _
  | unmarked _ => exact keeps_throw _

/-- Making an attribute leaves records alone. -/
theorem createAttribute_apart (p : SetId) (d : Definition) :
    Keeps (Apart m) (createAttribute p d) :=
  keeps_bind (takeSlot_apart p) fun i =>
    keeps_bind (keeps_modify fun _ h => h.trans (.of_same rfl rfl rfl)) fun _ => keeps_pure i

/-- Copying an attribute leaves records alone. -/
theorem copyAttribute_apart (p : SetId) (i : SlotId) : Keeps (Apart m) (copyAttribute p i) := by
  refine keeps_get fun s _ => ?_
  dsimp only
  cases (s.slot i).definition with
  | none => exact keeps_pure none
  | some d =>
    exact keeps_bind (createAttribute_apart p d) fun j =>
      keeps_bind (keeps_modify fun _ h => h.trans (.of_same rfl rfl rfl)) fun _ => keeps_pure _

/-- The end of a window gives up stored records, and no others. -/
theorem tickSet_apart (p : SetId) : Keeps (Apart m) (tickSet p) := by
  intro s h
  have hset : Apart s (s.modifySet p fun q =>
      { q with slots := (s.set p).slots.tick.2.2, records := (s.set p).records.tick.2.2 }) :=
    .modifySet s p (s.set p).records.tick_stored
  exact h.trans (hset.trans (.report _ (by simp [Pool.Update.event])))

/-- Computing a deferred value leaves records alone. -/
theorem force_apart (c : CellId) : Keeps (Apart m) (Trace.force c) := fun _ h =>
  Follows.keeps (fun he ho h => (apart_steady m).occurs he ho h)
    (force_leads computing_computes none nofun trivial) h

/-- Freezing an attribute leaves records alone. -/
theorem freezeAttribute_apart (i : SlotId) : Keeps (Apart m) (freezeAttribute i) := fun s h =>
  Follows.keeps (fun he ho h => (apart_steady m).occurs he ho h)
    (freezeAttribute_leads computing_computes i s) h

/-- Letting go of a set of pools drops what it stores, and leaves all other records alone.
-/
theorem letGo_apart (s : Store) (p : SetId) : Apart s (s.letGo p) := by
  refine .modifySet s p ?_
  split_ifs
  · exact List.nil_sublist _
  · exact List.Sublist.refl _

/-! ### Stocks -/

/-- The records `H` are in hand, the pools store blank ones, and none was turned
away by a pool. -/
structure Stocked (s : Store) (H : Multiset RecordId) : Prop where
  housed : Housed s H
  welcome : ∀ text, .recordRejected text ∉ s.log

namespace Stocked

/-- The records stay in hand through whatever leaves them alone. -/
theorem of_apart (h : Stocked s H) (hs : Apart s s') : Stocked s' H :=
  ⟨h.housed.of_stock hs.records hs.stored, fun text ht => h.welcome text (hs.log text ht)⟩

/-- Fewer records are in hand, too. -/
theorem mono (h : Stocked s H) {H' : Multiset RecordId} (hH : H' ≤ H) : Stocked s H' :=
  ⟨h.housed.mono hH, h.welcome⟩

/-- An operation that leaves records alone keeps them in hand. -/
theorem keeps {α : Type} {a : Action α} (ha : ∀ m, Keeps (Apart m) a) :
    Keeps (Stocked · H) a := fun s h => h.of_apart (ha s s (Apart.refl s))

/-- A record in hand may be written. -/
theorem modifyRecord (h : Stocked s H) (hr : r ∈ H) {f : Record → Record}
    (hf : ∀ a : Record, (f a).marked = a.marked) : Stocked (s.modifyRecord r f) H :=
  ⟨h.housed.modifyRecord hr (hf _), h.welcome⟩

end Stocked

/-! ### Leases -/

/-- **A record can always be leased**: it is blank, and in hand from then on. -/
theorem leaseRecord_stocked (h : Stocked s H) (p : SetId) :
    ∃ r s', leaseRecord p s = .ok r s' ∧ Lends p r s s' ∧ Stocked s' (r ::ₘ H) := by
  obtain ⟨r, s', hrun, hlends, hhoused⟩ := h.housed.lease p
  exact ⟨r, s', hrun, hlends, hhoused, fun text => hlends.log ▸ h.welcome text⟩

/-- A collection can always be opened, on a blank record that is in hand from then on. -/
theorem openCollection_stocked (h : Stocked s H) (p : SetId) :
    ∃ r s', openCollection p s = .ok ⟨p, r⟩ (s'.hold p) ∧ Lends p r s s' ∧
      Stocked (s'.hold p) (r ::ₘ H) := by
  obtain ⟨r, s', hrun, hlends, hs⟩ := leaseRecord_stocked h p
  refine ⟨r, s', ?_, hlends, hs.of_apart (.modifySet s' p (List.Sublist.refl _))⟩
  simp only [openCollection, bind_apply, hrun, modify_apply, pure_apply]

/-! ### Releases -/

/-- The entries of a category go, and the rest of the record stays. -/
theorem clearCategory_apart (r : RecordId) (k : Category) (s : Store) :
    Apart (s.modifyRecord r fun record => record.setAttributes .empty k)
      ((clearCategory r k).leaves s) :=
  keeps_forM (fun i => keeps_discard (removeReference_apart i)) _ _ (Apart.refl _)

/-- Clearing a category keeps the records in hand. -/
theorem clearCategory_stocked (h : Stocked s H) (hr : r ∈ H) (k : Category) :
    Stocked ((clearCategory r k).leaves s) H :=
  (h.modifyRecord hr fun a => Record.marked_setAttributes a .empty k).of_apart
    (clearCategory_apart r k s)

/-- A category that was cleared is empty, and the other categories and records are as they
were. -/
theorem clearCategory_record {u : Unit} (hr : r < s.records.size) {k : Category}
    (h : clearCategory r k s = .ok u s') :
    r < s'.records.size ∧ s'.record r = (s.record r).setAttributes .empty k ∧
      ∀ q, q ≠ r → s'.record q = s.record q := by
  have hapart := clearCategory_apart r k s
  rw [leaves_ok h] at hapart
  refine ⟨?_, ?_, fun q hq => ?_⟩
  · rw [hapart.records, size_modifyRecord]
    exact hr
  · rw [hapart.record, record_modifyRecord_self hr]
  · rw [hapart.record, record_modifyRecord_ne hq.symm]

/-- Where all its entries are gone a record has no attributes. -/
theorem clearAll_record {u : Unit} (hr : r < s.records.size)
    (h : Category.all.forM (clearCategory r) s = .ok u s') :
    (∀ k, (s'.record r).attributes k = .empty) ∧ (s'.record r).home = (s.record r).home ∧
      ∀ q, q ≠ r → s'.record q = s.record q := by
  -- three categories, cleared in turn; none of them broke off
  simp only [Category.all, forM_cons, forM_nil] at h
  cases h₁ : clearCategory r .intrinsic s with
  | error e s₁ => simp [h₁] at h
  | ok u₁ s₁ =>
    cases h₂ : clearCategory r .agent s₁ with
    | error e s₂ => simp [h₁, h₂] at h
    | ok u₂ s₂ =>
      cases h₃ : clearCategory r .user s₂ with
      | error e s₃ => simp [h₁, h₂, h₃] at h
      | ok u₃ s₃ =>
        simp only [h₁, h₂, h₃, EStateM.Result.ok.injEq, true_and] at h
        subst h
        obtain ⟨hr₁, hself₁, hother₁⟩ := clearCategory_record hr h₁
        obtain ⟨hr₂, hself₂, hother₂⟩ := clearCategory_record hr₁ h₂
        obtain ⟨-, hself₃, hother₃⟩ := clearCategory_record hr₂ h₃
        refine ⟨fun k => ?_, ?_, fun q hq => ?_⟩
        · rw [hself₃, hself₂, hself₁]
          cases k <;> rfl
        · rw [hself₃, hself₂, hself₁]
          rfl
        · rw [hother₃ q hq, hother₂ q hq, hother₁ q hq]

/-- The pools may only lose records meanwhile. -/
theorem clearAll_stored (r : RecordId) (s : Store) (p : SetId) :
    (((Category.all.forM (clearCategory r)).leaves s).set p).records.stored.Sublist
      (s.set p).records.stored :=
  keeps_forM (Q := fun m => (m.set p).records.stored.Sublist (s.set p).records.stored)
    (fun k m h => ((clearCategory_apart r k m).stored p).trans h) _ s (List.Sublist.refl _)

/-- Clearing all categories keeps the records in hand, whether it ends or not. -/
theorem clearAll_stocked (h : Stocked s H) (hr : r ∈ H) :
    Stocked ((Category.all.forM (clearCategory r)).leaves s) H :=
  keeps_forM (Q := (Stocked · H)) (fun k _ h => clearCategory_stocked h hr k) _ s h

/-- What a pool reports when a record comes back. -/
theorem Stocked.of_returns (h : Stocked s (r ::ₘ H)) (hs : Returns r s s') (hhoused : Housed s' H) :
    Stocked s' H := by
  refine ⟨hhoused, fun text ht => ?_⟩
  rcases hs.log with hlog | ⟨n, hlog⟩
  · exact h.welcome text (hlog ▸ ht)
  · rw [hlog, Array.mem_append] at ht
    exact ht.elim (h.welcome text) (by simp)

/-- **A record in hand that is released is in the hands no more,** whether it comes
back or giving up a reference is broken off. -/
theorem releaseRecord_stocked (h : Stocked s (r ::ₘ H)) :
    Stocked ((releaseRecord r).leaves s) H := by
  have hmem : r ∈ r ::ₘ H := Multiset.mem_cons_self r H
  have hcleared := clearAll_stocked h hmem
  cases hclear : Category.all.forM (clearCategory r) s with
  | error e s₁ =>
    rw [leaves_error hclear] at hcleared
    have hrun : releaseRecord r s = .error e s₁ := by
      simp only [releaseRecord, bind_apply, hclear]
    rw [leaves_error hrun]
    exact hcleared.mono (Multiset.le_cons_self H r)
  | ok u s₁ =>
    rw [leaves_ok hclear] at hcleared
    obtain ⟨hempty, -, -⟩ := clearAll_record (h.housed.there r hmem) hclear
    obtain ⟨s₂, hrun, hreturns, hhoused⟩ := hcleared.housed.releaseRecord_returns hclear hempty
    rw [leaves_ok hrun]
    exact hcleared.of_returns hreturns hhoused

/-- Releasing records takes them out of hand, by induction on the list; one that is broken
off is given up. -/
theorem releaseRecords_stocked (rs : List RecordId) :
    ∀ s, Stocked s (↑rs + H) → Stocked ((releaseRecords rs).leaves s) H := by
  induction rs with
  | nil =>
    intro s h
    rwa [Multiset.coe_nil, zero_add] at h
  | cons r rs ih =>
    intro s h
    rw [← Multiset.cons_coe, Multiset.cons_add] at h
    have hfirst := releaseRecord_stocked h
    rw [leaves, releaseRecords, forM_cons]
    cases hrun : releaseRecord r s with
    | ok u s₁ => exact ih s₁ (leaves_ok hrun ▸ hfirst)
    | error e s₁ => exact (leaves_error hrun ▸ hfirst).mono (Multiset.le_add_left H ↑rs)

/-! ### Collections -/

section Collections

variable (c : Collection)

/-- Putting an attribute in keeps the records in hand. -/
theorem install_stocked (hc : c.record ∈ H) (i : SlotId) : Keeps (Stocked · H) (c.install i) := by
  refine keeps_get fun s _ => ?_
  dsimp only
  cases (s.slot i).definition with
  | none => exact keeps_pure false
  | some d =>
    -- what both cases end with: a reference is taken and the entry is written
    have hplaced : ∀ b : Bool, Keeps (Stocked · H) (do
        addReference i
        modify fun s => s.modifyRecord c.record fun r =>
          r.setAttributes ((r.attributes d.category).insert d.name i) d.category
        return b) := fun b =>
      keeps_bind (Stocked.keeps fun _ => addReference_apart i) fun _ =>
        keeps_bind
          (keeps_modify fun s h => h.modifyRecord hc fun _ => Record.marked_setAttributes ..)
          fun _ => keeps_pure b
    -- the record is identified first, and the attribute that had the place loses its
    -- reference
    refine keeps_bind (keeps_modify fun s h => h.modifyRecord hc fun _ => Record.marked_identify ..)
      fun _ => keeps_get fun s₁ _ => ?_
    cases ((s₁.record c.record).attributes d.category).get? d.name with
    | none => exact hplaced true
    | some j =>
      dsimp only
      split_ifs
      · exact keeps_pure false
      · exact keeps_bind (keeps_discard (Stocked.keeps fun _ => removeReference_apart j))
          fun _ => hplaced false

/-- Writing a value into a collection keeps the records in hand. -/
theorem setValue_stocked (hc : c.record ∈ H) (d : Definition) (v : Value) :
    Keeps (Stocked · H) (c.setValue d v) :=
  keeps_bind (Stocked.keeps fun _ => createAttribute_apart c.pools d) fun i =>
    keeps_bind (keeps_modify fun _ h => h.of_apart (.of_same rfl rfl rfl)) fun _ =>
      install_stocked c hc i

/-- Writing a deferred value into a collection keeps the records in hand. -/
theorem setDeferred_stocked (hc : c.record ∈ H) (d : Definition) (cell : CellId) :
    Keeps (Stocked · H) (c.setDeferred d cell) :=
  keeps_bind (Stocked.keeps fun _ => createAttribute_apart c.pools d) fun i =>
    keeps_bind (keeps_modify fun _ h => h.of_apart (.of_same rfl rfl rfl)) fun _ =>
      install_stocked c hc i

/-- Taking an attribute out keeps the records in hand. -/
theorem removeNamed_stocked (hc : c.record ∈ H) (k : Category) (name : String) (i : SlotId) :
    Keeps (Stocked · H) (c.removeNamed k name i) := by
  refine keeps_get fun s _ => ?_
  split_ifs
  · exact keeps_bind
      (keeps_modify fun _ h => h.modifyRecord hc fun _ => Record.marked_setAttributes ..)
      fun _ => keeps_bind (keeps_discard (Stocked.keeps fun _ => removeReference_apart i)) fun _ =>
        keeps_pure true
  · exact keeps_pure false

/-- Taking several attributes out keeps the records in hand. -/
theorem removeMany_stocked (hc : c.record ∈ H) (slots : List SlotId) :
    Keeps (Stocked · H) (c.removeMany slots) :=
  keeps_get fun _ _ => keeps_bind (keeps_mapM (fun _ => removeNamed_stocked c hc _ _ _) _) fun _ =>
    keeps_pure _

/-- Freezing a collection leaves records alone. -/
theorem freeze_apart : Keeps (Apart m) c.freeze := freeze_steady (apart_steady m) c

/-- Closing a collection takes its record out of hand. -/
theorem close_stocked (h : Stocked s (c.record ::ₘ H)) : Stocked (c.close.leaves s) H := by
  have hreleased := releaseRecord_stocked h
  rw [leaves, Collection.close, ensuring]
  cases hrun : releaseRecord c.record s with
  | ok u s₁ => exact (leaves_ok hrun ▸ hreleased).of_apart (letGo_apart s₁ c.pools)
  | error e s₁ => exact (leaves_error hrun ▸ hreleased).of_apart (letGo_apart s₁ c.pools)

end Collections

/-! ### Results -/

section Results

variable {α β : Type} {a : Action α} {f : α → Action β} {K : α → Multiset RecordId}
  {K' : β → Multiset RecordId} {E E' : Multiset RecordId}

/-- Where an operation ended, the records in hand go by its result; where it was
broken off they are `E`. -/
def Stocks (K : α → Multiset RecordId) (E : Multiset RecordId) :
    EStateM.Result Fault Store α → Prop
  | .ok x s => Stocked s (K x)
  | .error _ s => Stocked s E

/-- An operation whose result owns nothing. -/
theorem stocks_of_leaves (h : Stocked (a.leaves s) H) : Stocks (fun _ => H) H (a s) := by
  unfold leaves at h
  cases hrun : a s <;> rw [hrun] at h <;> exact h

/-- An operation that cannot break off. -/
theorem stocks_of_ok {x : α} (hrun : a s = .ok x s') (h : Stocked s' (K x)) :
    Stocks K E (a s) := by
  rw [hrun]
  exact h

/-- Where it broke off, fewer records may be in hand. -/
theorem Stocks.mono (h : Stocks K E (a s)) (hE : E' ≤ E) : Stocks K E' (a s) := by
  cases hrun : a s with
  | ok x s' =>
    rw [hrun] at h
    exact h
  | error e s' =>
    rw [hrun] at h
    exact Stocked.mono h hE

/-- Operations in sequence: the second one starts with what the result of the first one has
in hand. -/
theorem stocks_bind (ha : Stocks K E (a s)) (hf : ∀ x s', Stocked s' (K x) → Stocks K' E (f x s')) :
    Stocks K' E ((a >>= f) s) := by
  rw [bind_apply]
  cases hrun : a s with
  | ok x s' =>
    rw [hrun] at ha
    exact hf x s' ha
  | error e s' =>
    rw [hrun] at ha
    exact ha

end Results

/-- A collection is closed and its record kept, or the record is released. -/
theorem intoRecord_stocks (c : Collection) (h : Stocked s (c.record ::ₘ H)) :
    Stocks (· ::ₘ H) H (c.intoRecord s) := by
  have hfrozen := Stocked.keeps (fun _ => freeze_apart c) s h
  cases hrun : c.freeze s with
  | ok u s₁ =>
    exact stocks_of_ok (intoRecord_ok hrun)
      ((leaves_ok hrun ▸ hfrozen).of_apart (letGo_apart s₁ c.pools))
  | error e s₁ =>
    rw [intoRecord_error hrun]
    exact close_stocked c (leaves_error hrun ▸ hfrozen)

/-- Records that are made one after the other, until one is broken off. -/
theorem numberedRecords_stocks (h : Stocked s H) (p : SetId) (trace : String) (n : Nat) :
    Stocks (fun rs => ↑rs + H) H (Tracer.numberedRecords p trace n s) := by
  induction n with
  | zero => exact stocks_of_ok (a := pure []) rfl (by rwa [Multiset.coe_nil, zero_add])
  | succ n ih =>
    refine stocks_bind ih fun rs s₁ h₁ => ?_
    -- the record is in hand from its lease on, so it is among those in hand where anything
    -- breaks off
    obtain ⟨r, s₂, hopen, -, h₂⟩ := openCollection_stocked h₁ p
    have hle : H ≤ r ::ₘ (↑rs + H) :=
      (Multiset.le_add_left H ↑rs).trans (Multiset.le_cons_self _ r)
    have hput : ∀ d v s, Stocked s (r ::ₘ (↑rs + H)) →
        Stocks (fun _ => r ::ₘ (↑rs + H)) H
          ((discard ((Collection.mk p r).setValue d v) : Action PUnit) s) := fun d v s h =>
      (stocks_of_leaves (keeps_discard
        (setValue_stocked ⟨p, r⟩ (Multiset.mem_cons_self r _) d v) s h)).mono hle
    rw [bind_apply, hopen]
    refine stocks_bind (hput _ _ _ h₂) fun _ s₃ h₃ => stocks_bind (hput _ _ _ h₃) fun _ s₄ h₄ =>
      stocks_bind ((intoRecord_stocks ⟨p, r⟩ h₄).mono (Multiset.le_add_left H ↑rs))
        fun q s₅ h₅ => ?_
    have hlast : q ::ₘ (↑rs + H) = ↑(rs ++ [q]) + H := by
      rw [← Multiset.coe_add, Multiset.coe_singleton, ← Multiset.singleton_add]
      abel
    exact stocks_of_ok (a := pure (rs ++ [q])) rfl (hlast ▸ h₅)

/-! ### Batches -/

/-- Offering records leaves them alone, for a sink only looks at them. -/
theorem offer_apart (k : Sink) (rs : List RecordId) (s : Store) : Apart s (k.offer rs s).2.2 := by
  unfold Sink.offer
  split
  · exact .refl s
  · exact .report s (by simp)
  all_goals exact .refl s

/-- Waiting leaves records alone. -/
theorem await_apart (e : Exporter) (d : Duration) (s : Store) : Apart s (e.await d s).2 := by
  unfold Exporter.await
  split_ifs
  · exact .refl s
  · exact .later s _

/-- The attempts of a policy leave records alone, by induction on those that are left. -/
theorem attemptFrom_apart (p : Retry.Policy) (rs : List RecordId) (left : Nat) :
    ∀ attempt e s, Apart s (Exporter.attemptFrom p rs attempt left e s).2.2 := by
  induction left with
  | zero => exact fun _ _ s => .refl s
  | succ left ih =>
    intro attempt e s
    have hawait := await_apart e (p.delay attempt) s
    rcases hw : e.await (p.delay attempt) s with ⟨e₁, s₁⟩
    rw [hw] at hawait
    have hoffer := offer_apart e₁.sink rs s₁
    rcases hr : e₁.sink.offer rs s₁ with ⟨_ | f, sink, s₂⟩ <;> rw [hr] at hoffer <;>
      simp only [Exporter.attemptFrom, hw, hr]
    · exact hawait.trans hoffer
    · exact ((hawait.trans hoffer).trans (.report s₂ (by simp))).trans (ih _ _ _)

/-- Exporting a batch leaves records alone, however often it is tried. -/
theorem exportBatch_apart (e : Exporter) (rs : List RecordId) (s : Store) :
    Apart s (e.exportBatch rs s).2.2 := by
  unfold Exporter.exportBatch
  split
  · exact attemptFrom_apart ..
  · exact offer_apart ..

/-- The records of a batch that was refused stay in hand. -/
theorem send_stocked (h : Stocked s (↑rs + H)) (e : Exporter) :
    Stocked (e.send rs s).2.2 (match (e.send rs s).1 with
      | .refused _ => ↑rs + H
      | .accepted | .broken _ => H) := by
  have hexport := exportBatch_apart e rs s
  unfold Exporter.send
  rcases hx : e.exportBatch rs s with ⟨_ | f, e', s₁⟩ <;> rw [hx] at hexport <;>
    dsimp only at hexport ⊢
  · have hreleased := releaseRecords_stocked rs s₁ (h.of_apart hexport)
    cases hr : releaseRecords rs s₁ with
    | ok _ s₂ => exact leaves_ok hr ▸ hreleased
    | error _ s₂ => exact leaves_error hr ▸ hreleased
  · exact h.of_apart (hexport.trans (.report s₁ (by simp)))

/-- The records of the oldest batches are released as these are dropped. -/
theorem dropOldest_stocked (n : Nat) :
    ∀ (b : Batcher) (s : Store), Stocked s (↑b.queue.flatten + H) →
      Stocked (b.dropOldest s n).2.2 (↑(b.dropOldest s n).2.1.queue.flatten + H) ∧
        (b.dropOldest s n).2.1.pending = b.pending := by
  induction n with
  | zero => exact fun b s h => ⟨h, rfl⟩
  | succ n ih =>
    intro b s h
    unfold Batcher.dropOldest
    cases hq : b.queue with
    | nil => exact ⟨by simpa only [hq] using h, rfl⟩
    | cons oldest rest =>
      rw [hq, List.flatten_cons, ← Multiset.coe_add, add_assoc] at h
      set s₁ := s.report [.batchDropped oldest.length b.limits.retryBatches]
      have hreleased := releaseRecords_stocked oldest s₁ (h.of_apart (.report s (by simp)))
      dsimp only
      -- a release that breaks off takes its records out of hand all the same
      cases hr : releaseRecords oldest s₁ with
      | ok _ s₂ =>
        obtain ⟨hrest, hpending⟩ := ih
          { b with queue := rest, metrics := b.metrics.drop oldest.length } s₂
          (leaves_ok hr ▸ hreleased)
        exact ⟨hrest, hpending⟩
      | error _ s₂ => exact ⟨leaves_error hr ▸ hreleased, rfl⟩

/-- The records of the batches that are left stay in hand. -/
theorem sendAll_stocked (batches : List (List RecordId)) :
    ∀ (b : Batcher) (e : Exporter) (s : Store), Stocked s (↑batches.flatten + H) →
      Stocked (b.sendAll e s batches).2.2.2
          (↑(b.sendAll e s batches).2.1.queue.flatten + H) ∧
        (b.sendAll e s batches).2.1.pending = b.pending := by
  induction batches with
  | nil => exact fun b e s h => ⟨h, rfl⟩
  | cons batch rest ih =>
    intro b e s h
    have h' := h
    rw [List.flatten_cons, ← Multiset.coe_add, add_assoc] at h'
    have hsend := send_stocked h' e
    unfold Batcher.sendAll
    -- the batch was delivered, it goes back into the queue, or its release broke off
    rcases hx : e.send batch s with ⟨_ | reason | fault, e₁, s₁⟩ <;> rw [hx] at hsend <;>
      dsimp only at hsend ⊢
    · exact ih _ e₁ s₁ hsend
    · set b₁ : Batcher := { b with queue := batch :: rest, metrics := b.metrics.failure }
      have hqueue : Stocked s₁ (↑b₁.queue.flatten + H) := by
        rw [show b₁.queue = batch :: rest from rfl, List.flatten_cons, ← Multiset.coe_add,
          add_assoc]
        exact hsend
      have htrim : _ := dropOldest_stocked (b₁.queue.length - b₁.limits.retryBatches) b₁ s₁ hqueue
      rw [← Batcher.trim] at htrim
      rcases ht : b₁.trim s₁ with ⟨_ | f, b₂, s₂⟩ <;> rw [ht] at htrim <;> exact htrim
    · exact ⟨hsend, rfl⟩

/-- **A flush keeps the records in hand that it does not send.** -/
theorem flush_stocked {b : Batcher} (h : Stocked s (↑b.waiting + H)) (e : Exporter) :
    Stocked (b.flush e s).2.2.2 (↑(b.flush e s).2.1.waiting + H) := by
  rw [← Batcher.flatten_due] at h
  obtain ⟨b₁, hrun, -, -, hpending⟩ := b.flush_eq_sendAll e s
  obtain ⟨hsent, hpending'⟩ := sendAll_stocked b.due b₁ e s h
  rw [hrun, Batcher.waiting, hpending', hpending, List.append_nil]
  exact hsent

end Store
end Telemetry
