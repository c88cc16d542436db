/-
# What every command comes about by

Each operation that is put together of others comes about by the incidents that
these come about by (`Action.Leads`); there is one line for each, and one for each
command.  `Tracer.step_grants` is the sum of them: it says which incidents a
command grants.  Attributes are made from the pool set that the command takes
slots from alone, only freezing and asking compute deferred values, and no others
are written into attributes than the command's names stand for.

So a property of a store outlasts all that can be done to a tracer if every
incident keeps it.  Often a few changes are enough for that: that pools lose what
they store, that slots are written, that an attribute is made, and that one is
released (`Store.Upheld`).  Computing deferred values needs fewer (`Store.Steady`).
-/

import Telemetry.Proofs.Custody
import Telemetry.Proofs.Incidents

namespace Telemetry

open Trace

namespace Store

open Telemetry.Action

/-! ### What is permitted -/

/-- What computing a deferred value does to attributes is permitted. -/
structure Handling (A : Incident → Prop) : Prop where
  valued : ∀ i v, A (.valued i v)
  referred : ∀ i, A (.referred i)
  unreferred : ∀ i, A (.unreferred i)
  emptied : ∀ i, A (.emptied i)

/-- Freezing attributes is permitted. -/
structure Computing (A : Incident → Prop) : Prop extends Handling A where
  frozen : ∀ i c, A (.frozen i c)
  begun : ∀ c i, A (.begun c (some i))
  finished : ∀ c, A (.finished c)
  abandoned : ∀ c, A (.abandoned c)

/-- Working with records is permitted. -/
structure Working (A : Incident → Prop) : Prop extends Handling A where
  aside : A .aside

variable {A : Incident → Prop} {P : SetId → Prop} {Q : Store → Prop} {s s' : Store} {i : SlotId}

/-- What happens aside is permitted in any work on records. -/
theorem Working.of_aside (hA : Working A) (h : Aside s s') : Follows A s s' :=
  .of_occurs hA.aside (.aside h)

/-- Records, handles, the log and the holders of pools are no matter. -/
theorem Working.of_sets (hA : Working A) (hslots : s'.slots = s.slots) (hcells : s'.cells = s.cells)
    (hsets : s'.sets = s.sets) (hnow : s.now ≤ s'.now) : Follows A s s' :=
  hA.of_aside (.of_sets hslots hcells hsets hnow)

/-! ### References -/

/-- **On a cached attribute references are only counted.** -/
theorem removeReference_cached {d : Definition} (hd : (s.slot i).definition = some d)
    (hc : d.cached = true) : removeReference i s =
      .ok (decide ((s.slot i).references = 1)) (s.modifySlot i Slot.unreferred) := by
  rw [removeReference_apply]
  split_ifs with hone
  · have hthere := lt_size_of_references (hone ▸ Nat.one_ne_zero)
    rw [releaseSlot_cached (d := d) (by rw [slot_modifySlot_self hthere]; exact hd) hc,
      decide_eq_true hone]
  · rw [decide_eq_false hone]

/-- They are only counted as well on a slot that is not emptied for another
reason. -/
theorem leaves_removeReference (h : ¬ (s.slot i).Expiring) :
    (removeReference i).leaves s = s.modifySlot i Slot.unreferred := by
  cases hd : (s.slot i).definition with
  | none =>
    rw [leaves, removeReference_apply]
    split_ifs with hone
    · have hthere := lt_size_of_references (hone ▸ Nat.one_ne_zero)
      rw [releaseSlot_free (by rw [slot_modifySlot_self hthere]; exact hd)]
    · rfl
  | some d =>
    cases hc : d.cached with
    | true => exact leaves_ok (removeReference_cached hd hc)
    | false =>
      have hone : (s.slot i).references ≠ 1 := fun hone =>
        h ⟨hone, by simp [hd], by simp [Slot.isCached, hd, hc]⟩
      rw [leaves, removeReference_apply, if_neg hone]

/-- Taking a reference is one incident. -/
theorem addReference_leads (hA : Handling A) (i : SlotId) (s : Store) :
    (addReference i).Leads A s := .of_occurs (hA.referred i) (.referred i)

/-- Giving up a reference is one incident: the slot is emptied, or it has a reference less. -/
theorem removeReference_leads (hA : Handling A) (i : SlotId) (s : Store) :
    (removeReference i).Leads A s := by
  by_cases h : (s.slot i).Expiring
  · exact .of_occurs (hA.emptied i) (.emptied h)
  · rw [Leads, leaves_removeReference h]
    exact .of_occurs (hA.unreferred i) (.unreferred h)

/-! ### Deferred values -/

/-- A computation that is not over yet runs on through its deeds, and then comes to its
end or is broken off.  A value that is not there works on nothing. -/
theorem forceWithin_course {n : Nat} {c : CellId} (hp : (s.cell c).progress = .pending) :
    (forceWithin (n + 1) c).leaves s = s ∨
      ∃ s₂, s₂ = ((s.cell c).effects.forM (performWith (forceWithin n))).leaves
          (s.modifyCell c Cell.begin) ∧
        (s₂.Occurs (.finished c) ((forceWithin (n + 1) c).leaves s) ∨
          s₂.Occurs (.abandoned c) ((forceWithin (n + 1) c).leaves s)) := by
  have hrun := forceWithin_pending (n := n) hp
  -- a cell that was never made does no deeds, and is not changed
  by_cases hc : c < s.cells.size
  · set s₁ := s.modifyCell c Cell.begin with hs₁
    have hself : (s₁.cell c).progress = .running := by
      rw [hs₁, cell_modifyCell, if_pos ⟨rfl, hc⟩]
      rfl
    have hfares := forces_forM (performWith_forces (forceWithin_forces n)) (s.cell c).effects s₁
    -- no deed touches a cell that is being computed
    have hrunning : ∀ {ended s₂}, s₁.Fares ended s₂ → (s₂.cell c).progress = .running :=
      fun h => by rw [(h.cells c).eq_of_begun (by simp [hself]), hself]
    refine Or.inr ⟨_, rfl, ?_⟩
    cases hr : (s.cell c).effects.forM (performWith (forceWithin n)) s₁ with
    | ok u s₂ =>
      rw [hr] at hrun
      rw [leaves_ok hrun, leaves_ok hr]
      exact Or.inl (.finished (hrunning (hfares.ok u s₂ hr)))
    | error e s₂ =>
      rw [hr] at hrun
      rw [leaves_error hrun, leaves_error hr]
      exact Or.inr (.abandoned (hrunning (hfares.error e s₂ hr)))
  · have hsize := not_lt.1 hc
    have heffects : (s.cell c).effects = [] := by rw [cell_of_size_le hsize]; rfl
    rw [heffects, modifyCell_of_size_le hsize, forM_nil] at hrun
    rw [leaves_ok hrun, modifyCell_of_size_le hsize]
    exact Or.inl rfl

section Computing

variable {force : CellId → Action (Option Value)} (hA : Computing A)
include hA

/-- A freeze is an incident, after those of the value that it asks for. -/
theorem freezeWith_leads (hforce : ∀ c i s, (s.slot i).Wants c → (force c).Leads A s)
    (hresult : ∀ c s v s', force c s = .ok v s' →
      v = (s'.cell c).result? ∧ (c < s'.cells.size → (s'.cell c).isFinished = true))
    (i : SlotId) (s : Store) : (freezeWith force i).Leads A s := by
  -- an attribute that is frozen already needs no incident at all
  rcases frozen_plain_or_pending s i with him | ⟨him, hv | ⟨hv, c, hd⟩⟩
  · rw [Leads, leaves_ok (freezeWith_frozen him)]
    exact .refl s
  · rw [Leads, leaves_ok (freezeWith_plain him hv)]
    exact .of_occurs (hA.frozen i none) (.frozen fun x hx => absurd hx (Option.not_mem_none x))
  · -- a value that is asked for comes about first, if it ends
    have hleads := hforce c i s ⟨him, hv, hd⟩
    have hrun : freezeWith force i s = _ := freezeWith_pending him hv hd
    cases hr : force c s with
    | ok v s' =>
      rw [hr] at hrun
      obtain ⟨rfl, hfinished⟩ := hresult c s v s' hr
      have hfrozen := Occurs.frozen (s := s') (i := i) (c := some c) fun x hx hlt => by
        cases hx
        exact hfinished hlt
      rw [Leads, leaves_ok hrun]
      exact (hleads.of_ok hr).trans (.of_occurs (hA.frozen i (some c)) hfrozen)
    | error e s' =>
      rw [hr] at hrun
      rw [Leads, leaves_error hrun]
      exact hleads.of_error hr

/-- A deed is a freeze, a write or a change of references. -/
theorem performWith_leads (hforce : ∀ c i s, (s.slot i).Wants c → (force c).Leads A s)
    (hresult : ∀ c s v s', force c s = .ok v s' →
      v = (s'.cell c).result? ∧ (c < s'.cells.size → (s'.cell c).isFinished = true))
    (e : Effect) (s : Store) : (performWith force e).Leads A s := by
  refine leads_get ?_
  cases s.handles.get? e.handle with
  | none => exact leads_pure ()
  | some i =>
    cases e.deed with
    | setValue v => exact .of_occurs (hA.valued i v) (.valued i v)
    | freeze => exact freezeWith_leads hA hforce hresult i s
    | addReference => exact addReference_leads hA.toHandling i s
    | removeReference => exact leads_discard (removeReference_leads hA.toHandling i s)

/-- **Computing deferred values**, by the levels of deferred values below.  A value
is computed for a slot that wants it, or because somebody may ask for it. -/
theorem forceWithin_leads (n : Nat) : ∀ c why s, (∀ i ∈ why, (s.slot i).Wants c) →
    A (.begun c why) → (forceWithin n c).Leads A s := by
  induction n with
  | zero => exact fun _ _ _ _ _ => leads_throw _
  | succ n ih =>
    intro c why s hwhy hbegun
    -- a value that is not pending is not computed, and the store stays
    have hstays : (∀ p : Progress, (s.cell c).progress = p → p ≠ .pending →
        (forceWithin (n + 1) c).leaves s = s) := by
      intro p hp hne
      cases p with
      | pending => exact absurd rfl hne
      | running => simp [leaves, forceWithin, hp]
      | finished v => simp [leaves, forceWithin, hp]
    cases hp : (s.cell c).progress with
    | finished v =>
      rw [Leads, hstays _ hp (by simp)]
      exact .refl s
    | running =>
      rw [Leads, hstays _ hp (by simp)]
      exact .refl s
    | pending =>
      rcases forceWithin_course (n := n) hp with hsame | ⟨s₂, rfl, hend⟩
      · rw [Leads, hsame]
        exact .refl s
      · have hbegin : Follows A s (s.modifyCell c Cell.begin) :=
          .of_occurs hbegun (.begun hp hwhy)
        -- on the next level values are asked for by freezes only, so they may be begun
        have hdeeds := leads_forM (performWith_leads hA
          (fun c i s hi => ih c (some i) s (fun j hj => by cases hj; exact hi) (hA.begun c i))
          fun c s v s' h => forceWithin_result h) (s.cell c).effects (s.modifyCell c Cell.begin)
        exact (hbegin.trans hdeeds).trans
          (hend.elim (.of_occurs (hA.finished c)) (.of_occurs (hA.abandoned c)))

/-- Computing a value begins it, does its deeds and ends it; why it was asked for is told by
the first incident. -/
theorem force_leads {c : CellId} (why : Option SlotId) (hwhy : ∀ i ∈ why, (s.slot i).Wants c)
    (hbegun : A (.begun c why)) : (Trace.force c).Leads A s :=
  leads_get (forceWithin_leads hA _ c why s hwhy hbegun)

/-- Freezing an attribute comes about by the incidents of a freeze. -/
theorem freezeAttribute_leads (i : SlotId) (s : Store) : (freezeAttribute i).Leads A s :=
  freezeWith_leads hA
    (fun c i _ hi => force_leads hA (some i) (fun j hj => by cases hj; exact hi) (hA.begun c i))
    (fun _ _ _ _ h => forceWithin_result h) i s

/-- Freezing a collection freezes its attributes one by one. -/
theorem freeze_leads (c : Collection) (s : Store) : c.freeze.Leads A s :=
  leads_forM (fun _ _ => leads_get (leads_forM (freezeAttribute_leads hA) _ _)) _ s

end Computing

/-! ### Attributes -/

/-- Making an attribute is one incident. -/
theorem createAttribute_leads {p : SetId} {d : Definition} (h : A (.made p d)) (s : Store) :
    (createAttribute p d).Leads A s := .of_occurs h (.made p d)

/-- A new attribute has only its definition. -/
theorem createAttribute_fresh {p : SetId} {d : Definition} (h : createAttribute p d s = .ok i s') :
    (s'.slot i).value = none ∧ (s'.slot i).deferred = none ∧ (s'.slot i).immutable = false := by
  simp only [createAttribute, bind_apply, modify_apply, pure_apply] at h
  cases htake : takeSlot p s with
  | ok j s₁ =>
    rw [htake] at h
    cases h
    rw [slot_modifySlot]
    split_ifs with hi
    · exact ⟨rfl, rfl, rfl⟩
    · rw [slot_of_size_le (not_lt.1 fun hlt => hi ⟨rfl, hlt⟩)]
      exact ⟨rfl, rfl, rfl⟩
  | error e s₁ =>
    rw [htake] at h
    cases h

section Working

variable (hA : Working A)
include hA

/-- A copy is made, and the deferred value of the original is promised to it. -/
theorem copyAttribute_leads {p : SetId} (hp : ∀ d, A (.made p d)) {j : SlotId}
    (hpromised : ∀ i c, (s.slot j).deferred = some c → A (.promised i c)) :
    (copyAttribute p j).Leads A s := by
  refine leads_get ?_
  dsimp only
  cases (s.slot j).definition with
  | none => exact leads_pure none
  | some d =>
    refine leads_bind (createAttribute_leads (hp d) s) fun k s₁ hmade =>
      leads_bind (leads_modify ?_) fun _ _ _ => leads_pure _
    obtain ⟨-, hdeferred, him⟩ := createAttribute_fresh hmade
    -- the new attribute is not frozen, so this is a write like any other
    cases (s.slot j).value with
    | some v =>
      rw [modifySlot_congr (g := Slot.setValue v) (by simp [Slot.setValue, him])]
      exact .of_occurs (hA.valued k v) (.valued k v)
    | none =>
      cases hc : (s.slot j).deferred with
      | some c =>
        rw [modifySlot_congr (g := Slot.setDeferred c) (by simp [Slot.setDeferred, him])]
        exact .of_occurs (hpromised k c hc) (.promised k c)
      | none =>
        rw [modifySlot_self (by dsimp only; rw [← hdeferred])]
        exact .refl s₁

/-! ### Records and collections -/

/-- Letting go of pools happens aside. -/
theorem letGo_follows (s : Store) (p : SetId) : Follows A s (s.letGo p) := by
  refine hA.of_aside (.modifySet s p ?_)
  split_ifs
  · exact List.nil_sublist _
  · exact List.Sublist.refl _

/-- Holding on to pools happens aside. -/
theorem hold_follows (s : Store) (p : SetId) : Follows A s (s.hold p) :=
  hA.of_aside (.modifySet s p (List.Sublist.refl _))

/-- The end of a window happens aside. -/
theorem tickSet_leads (p : SetId) (s : Store) : (tickSet p).Leads A s := by
  have hset : Aside s (s.modifySet p fun q =>
      { q with slots := (s.set p).slots.tick.2.2, records := (s.set p).records.tick.2.2 }) :=
    .modifySet s p (s.set p).slots.tick_stored
  exact hA.of_aside (hset.trans (.report _ _))

/-- Leasing a record happens aside. -/
theorem leaseRecord_leads (p : SetId) (s : Store) : (leaseRecord p).Leads A s := by
  refine leads_get ?_
  rcases (s.set p).records.take fun r => (s.record r).marked with ⟨taken, pool⟩
  refine leads_bind (leads_modify (hA.of_aside (.modifySet s p (List.Sublist.refl _))))
    fun _ s' _ => ?_
  cases taken with
  | reused r =>
    exact leads_bind (leads_modify (hA.of_sets rfl rfl rfl le_rfl)) fun _ _ _ => leads_pure r
  | missed =>
    exact leads_bind (leads_modify (hA.of_sets rfl rfl rfl le_rfl)) fun _ _ _ => leads_pure _
  | unmarked r => exact leads_throw _

/-- Clearing a category gives up the references of its entries. -/
theorem clearCategory_leads (r : RecordId) (k : Category) (s : Store) :
    (clearCategory r k).Leads A s :=
  leads_get (leads_bind (leads_modify (hA.of_sets rfl rfl rfl le_rfl)) fun _ _ _ =>
    leads_forM (fun j s => leads_discard (removeReference_leads hA.toHandling j s)) _ _)

/-- Putting a record back happens aside. -/
theorem putRecord_leads (p : SetId) (r : RecordId) (s : Store) : (putRecord p r).Leads A s := by
  refine leads_modify ?_
  rcases (s.set p).records.put (s.record r).marked r with ⟨refusal, pool⟩
  have hset : Aside s (s.modifySet p fun q => { q with records := pool }) :=
    .modifySet s p (List.Sublist.refl _)
  match refusal with
  | none => exact hA.of_aside (hset.trans (.of_sets rfl rfl rfl le_rfl))
  | some .alreadyPooled => exact hA.of_aside (hset.trans (.report _ _))
  | some (.overflow _) => exact hA.of_aside (hset.trans (.report _ _))

/-- Releasing a record clears it and puts it back. -/
theorem releaseRecord_leads (r : RecordId) (s : Store) : (releaseRecord r).Leads A s := by
  refine leads_bind (leads_forM (clearCategory_leads hA r) _ s) fun _ s₁ _ =>
    leads_bind (leads_modify (hA.of_sets rfl rfl rfl le_rfl)) fun _ s₂ _ => leads_get ?_
  split
  · refine leads_get ?_
    split_ifs
    · exact putRecord_leads hA _ r _
    · exact leads_pure ()
  · exact leads_pure ()

/-- Releasing records releases them one by one. -/
theorem releaseRecords_leads (rs : List RecordId) (s : Store) : (releaseRecords rs).Leads A s :=
  leads_forM (releaseRecord_leads hA) rs s

/-- Opening a collection happens aside. -/
theorem openCollection_leads (p : SetId) (s : Store) : (openCollection p).Leads A s :=
  leads_bind (leaseRecord_leads hA p s) fun _ s' _ =>
    leads_bind (leads_modify (hold_follows hA s' p)) fun _ _ _ => leads_pure _

variable (c : Collection)

/-- Putting an attribute in gives up the reference of the one before and takes another one. -/
theorem install_leads (j : SlotId) (s : Store) : (c.install j).Leads A s := by
  refine leads_get ?_
  dsimp only
  cases (s.slot j).definition with
  | none => exact leads_pure false
  | some d =>
    -- what both cases end with: a reference is taken and the entry is written
    have hplaced : ∀ (b : Bool) (s : Store), Leads A (do
        addReference j
        modify fun s => s.modifyRecord c.record fun r =>
          r.setAttributes ((r.attributes d.category).insert d.name j) d.category
        return b) s := fun b s =>
      leads_bind (addReference_leads hA.toHandling j s) fun _ _ _ =>
        leads_bind (leads_modify (hA.of_sets rfl rfl rfl le_rfl)) fun _ _ _ => leads_pure b
    refine leads_bind (leads_modify (hA.of_sets rfl rfl rfl le_rfl)) fun _ s₁ _ => leads_get ?_
    cases ((s₁.record c.record).attributes d.category).get? d.name with
    | none => exact hplaced true s₁
    | some k =>
      dsimp only
      split_ifs
      · exact leads_pure false
      · exact leads_bind (leads_discard (removeReference_leads hA.toHandling k s₁))
          fun _ s₂ _ => hplaced false s₂

/-- Writing a value makes an attribute, writes it and puts it in. -/
theorem setValue_leads {d : Definition} (v : Value) (hp : A (.made c.pools d)) (s : Store) :
    (c.setValue d v).Leads A s :=
  leads_bind (createAttribute_leads hp s) fun j _ _ =>
    leads_bind (leads_modify (.of_occurs (hA.valued j v) (.valued j v)))
      fun _ s' _ => install_leads hA c j s'

/-- Writing a deferred value promises it to a new attribute. -/
theorem setDeferred_leads {d : Definition} {cell : CellId} (hp : A (.made c.pools d))
    (hcell : ∀ j, A (.promised j cell)) (s : Store) : (c.setDeferred d cell).Leads A s :=
  leads_bind (createAttribute_leads hp s) fun j _ _ =>
    leads_bind (leads_modify (.of_occurs (hcell j) (.promised j cell)))
      fun _ s' _ => install_leads hA c j s'

/-- Taking an attribute out gives up its reference. -/
theorem removeNamed_leads (k : Category) (name : String) (j : SlotId) (s : Store) :
    (c.removeNamed k name j).Leads A s := by
  refine leads_get ?_
  split_ifs
  · exact leads_bind (leads_modify (hA.of_sets rfl rfl rfl le_rfl)) fun _ s' _ =>
      leads_bind (leads_discard (removeReference_leads hA.toHandling j s')) fun _ _ _ =>
        leads_pure true
  · exact leads_pure false

/-- Taking several out gives up their references. -/
theorem removeMany_leads (slots : List SlotId) (s : Store) : (c.removeMany slots).Leads A s :=
  leads_get (leads_bind (leads_mapM (fun _ => removeNamed_leads hA c _ _ _) _ _) fun _ _ _ =>
    leads_pure _)

/-- Closing a collection releases its record. -/
theorem close_leads (s : Store) : c.close.Leads A s :=
  leads_ensuring (releaseRecord_leads hA c.record s) fun s' => letGo_follows hA s' c.pools

/-- Turning a collection into a record freezes it, or closes it if this is broken off. -/
theorem intoRecord_leads (hC : Computing A) (s : Store) : c.intoRecord.Leads A s := by
  refine leads_undoing (leads_bind (freeze_leads hC c s) fun _ s' _ =>
    leads_bind (leads_modify (letGo_follows hA s' c.pools)) fun _ _ _ => leads_pure _)
    fun _ s' _ => ?_
  cases hc : c.close s' with
  | ok x s'' => exact (close_leads hA c s').of_ok hc
  | error e s'' => exact (close_leads hA c s').of_error hc

omit hA c in
/-- A collection takes its attributes from the pools it was opened with. -/
theorem openCollection_pools {p : SetId} {c : Collection} (h : openCollection p s = .ok c s') :
    c.pools = p := by
  simp only [openCollection, bind_apply] at h
  cases hlease : leaseRecord p s with
  | ok r s₁ =>
    rw [hlease] at h
    cases h
    rfl
  | error e s₁ =>
    rw [hlease] at h
    cases h

omit c in
/-- Making records for a batch comes about by the same incidents, by induction on their
number. -/
theorem numberedRecords_leads (hC : Computing A) {p : SetId} (hp : ∀ d, A (.made p d))
    (trace : String) (n : Nat) (s : Store) : (Tracer.numberedRecords p trace n).Leads A s := by
  induction n with
  | zero => exact leads_pure []
  | succ n ih =>
    refine leads_bind ih fun rs s₁ _ =>
      leads_bind (openCollection_leads hA p s₁) fun c s₂ hopen => ?_
    have hpools : ∀ d, A (.made c.pools d) := openCollection_pools hopen ▸ hp
    exact leads_bind (leads_discard (setValue_leads hA c _ (hpools _) s₂)) fun _ s₃ _ =>
      leads_bind (leads_discard (setValue_leads hA c _ (hpools _) s₃)) fun _ s₄ _ =>
        leads_bind (intoRecord_leads hA c hC s₄) fun r _ _ => leads_pure _

/-! ### Batches -/

omit hA c

/-- Offering records happens aside. -/
theorem offer_aside (k : Sink) (rs : List RecordId) (s : Store) : Aside s (k.offer rs s).2.2 := by
  unfold Sink.offer
  split
  · exact .refl s
  · exact .report s _
  all_goals exact .refl s

/-- Waiting happens aside. -/
theorem await_aside (e : Exporter) (d : Duration) (s : Store) : Aside s (e.await d s).2 := by
  unfold Exporter.await
  split_ifs
  · exact .refl s
  · exact .later s _

/-- The attempts of a policy happen aside, by induction on those that are left. -/
theorem attemptFrom_aside (p : Retry.Policy) (rs : List RecordId) (left : Nat) :
    ∀ attempt e s, Aside s (Exporter.attemptFrom p rs attempt left e s).2.2 := by
  induction left with
  | zero => exact fun _ _ s => .refl s
  | succ left ih =>
    intro attempt e s
    have hawait := await_aside e (p.delay attempt) s
    rcases hw : e.await (p.delay attempt) s with ⟨e₁, s₁⟩
    rw [hw] at hawait
    have hoffer := offer_aside e₁.sink rs s₁
    rcases hr : e₁.sink.offer rs s₁ with ⟨_ | f, sink, s₂⟩ <;> rw [hr] at hoffer <;>
      simp only [Exporter.attemptFrom, hw, hr]
    · exact hawait.trans hoffer
    · exact ((hawait.trans hoffer).trans (.report s₂ _)).trans (ih _ _ _)

/-- Exporting a batch happens aside. -/
theorem exportBatch_aside (e : Exporter) (rs : List RecordId) (s : Store) :
    Aside s (e.exportBatch rs s).2.2 := by
  unfold Exporter.exportBatch
  split
  · exact attemptFrom_aside ..
  · exact offer_aside ..

include hA

/-- Sending a batch releases its records if it is accepted. -/
theorem send_follows (e : Exporter) (rs : List RecordId) (s : Store) :
    Follows A s (e.send rs s).2.2 := by
  have hexport := exportBatch_aside e rs s
  unfold Exporter.send
  rcases hx : e.exportBatch rs s with ⟨_ | failure, e', s₁⟩ <;> rw [hx] at hexport <;>
    dsimp only at hexport ⊢
  · cases hr : releaseRecords rs s₁ with
    | ok _ s₂ => exact (hA.of_aside hexport).trans ((releaseRecords_leads hA rs s₁).of_ok hr)
    | error _ s₂ => exact (hA.of_aside hexport).trans ((releaseRecords_leads hA rs s₁).of_error hr)
  · exact hA.of_aside (hexport.trans (.report s₁ _))

/-- Dropping batches releases their records, by induction on the number of batches. -/
theorem dropOldest_follows (n : Nat) :
    ∀ (b : Batcher) (s : Store), Follows A s (b.dropOldest s n).2.2 := by
  induction n with
  | zero => exact fun _ s => .refl s
  | succ n ih =>
    intro b s
    unfold Batcher.dropOldest
    cases b.queue with
    | nil => exact .refl s
    | cons oldest rest =>
      set s₁ := s.report [.batchDropped oldest.length b.limits.retryBatches]
      have hreport : Follows A s s₁ := hA.of_aside (.report s _)
      dsimp only
      cases hr : releaseRecords oldest s₁ with
      | ok _ s₂ =>
        exact (hreport.trans ((releaseRecords_leads hA oldest s₁).of_ok hr)).trans (ih _ s₂)
      | error _ s₂ => exact hreport.trans ((releaseRecords_leads hA oldest s₁).of_error hr)

/-- Sending batches in order sends them one by one, by induction on the list. -/
theorem sendAll_follows (batches : List (List RecordId)) :
    ∀ (b : Batcher) (e : Exporter) (s : Store), Follows A s (b.sendAll e s batches).2.2.2 := by
  induction batches with
  | nil => exact fun _ _ s => .refl s
  | cons batch rest ih =>
    intro b e s
    have hsend := send_follows hA e batch s
    unfold Batcher.sendAll
    rcases hx : e.send batch s with ⟨_ | reason | fault, e₁, s₁⟩ <;> rw [hx] at hsend <;>
      dsimp only at hsend ⊢
    · exact hsend.trans (ih _ e₁ s₁)
    · set b₁ : Batcher := { b with queue := batch :: rest, metrics := b.metrics.failure }
      have htrim : Follows A s₁ (b₁.trim s₁).2.2 := dropOldest_follows hA _ b₁ s₁
      rcases ht : b₁.trim s₁ with ⟨_ | f, b₂, s₂⟩ <;> rw [ht] at htrim <;> exact hsend.trans htrim
    · exact hsend

/-- A flush sends what is due and drops what is too much. -/
theorem flush_follows (b : Batcher) (e : Exporter) (s : Store) :
    Follows A s (b.flush e s).2.2.2 :=
  sendAll_follows hA _ _ e s

end Working

/-! ### What every incident keeps -/

/-- What is kept by the changes that all others are put together of, where
attributes are made from pools of the sets in `P`. -/
structure Upheld (P : SetId → Prop) (Q : Store → Prop) : Prop where
  /-- The pools may lose what they store. -/
  stock : ∀ {s s' : Store}, Q s → s'.slots = s.slots →
    (∀ p, (s'.set p).slots.stored.Sublist (s.set p).slots.stored) → Q s'
  /-- Slots may be written. -/
  write : ∀ {s : Store} {i : SlotId} {f : Slot → Slot}, Q s → (∀ a : Slot, a.Alike (f a)) →
    Q (s.modifySlot i f)
  create : ∀ {p : SetId} (d : Definition), P p → Keeps Q (createAttribute p d)
  release : ∀ i : SlotId, Keeps Q (releaseSlot i)

/-- What is kept by the changes that computing deferred values is put together
of. -/
structure Steady (Q : Store → Prop) : Prop where
  /-- Slots may be written. -/
  write : ∀ {s : Store} {i : SlotId} {f : Slot → Slot}, Q s → (∀ a : Slot, a.Alike (f a)) →
    Q (s.modifySlot i f)
  /-- Deferred values may get on. -/
  compute : ∀ {s : Store} {c : CellId} {f : Cell → Cell}, Q s → Q (s.modifyCell c f)
  release : ∀ i : SlotId, Keeps Q (releaseSlot i)

/-- The incidents that freezing attributes comes about by. -/
def Incident.Computes : Incident → Prop
  | .made .. | .promised .. | .deferred .. | .aside => False
  | _ => True

/-- Freezing may come about by the incidents that compute. -/
theorem computing_computes : Computing Incident.Computes :=
  ⟨⟨fun _ _ => trivial, fun _ => trivial, fun _ => trivial, fun _ => trivial⟩,
    fun _ _ => trivial, fun _ _ => trivial, fun _ => trivial, fun _ => trivial⟩

/-- Giving up a reference keeps what is steady. -/
theorem removeReference_steady (hQ : Steady Q) (i : SlotId) : Keeps Q (removeReference i) := by
  intro s h
  have hdrop : Q (s.modifySlot i Slot.unreferred) := hQ.write h fun _ => ⟨rfl, rfl, rfl⟩
  rw [leaves, removeReference_apply]
  split_ifs
  · cases hr : releaseSlot i (s.modifySlot i Slot.unreferred) with
    | ok u s' => exact (hQ.release i).of_ok hdrop hr
    | error e s' => exact (hQ.release i).of_error hdrop hr
  · exact hdrop

/-- The incidents that compute keep what is steady. -/
theorem Steady.occurs (hQ : Steady Q) {e : Incident} (he : e.Computes) (ho : s.Occurs e s')
    (h : Q s) : Q s' := by
  cases ho with
  | valued i v => exact hQ.write h fun a => (Slot.setValue_writes v a).alike
  | frozen => exact hQ.write h fun a => (Slot.freeze_writes _ a).alike
  | referred | unreferred => exact hQ.write h fun _ => ⟨rfl, rfl, rfl⟩
  | emptied => exact removeReference_steady hQ _ s h
  | begun | finished | abandoned => exact hQ.compute h
  | made | promised | deferred | aside => exact he.elim

/-- What all changes keep is steady. -/
theorem Upheld.steady (hQ : Upheld P Q) : Steady Q :=
  ⟨hQ.write, fun h => hQ.stock h rfl fun _ => List.Sublist.refl _, hQ.release⟩

/-- **What all changes keep is kept by every incident.** -/
theorem Upheld.occurs (hQ : Upheld P Q) {e : Incident} (he : ∀ p d, e = .made p d → P p)
    (ho : s.Occurs e s') (h : Q s) : Q s' := by
  by_cases hc : e.Computes
  · exact hQ.steady.occurs hc ho h
  · cases ho with
    | made p d => exact hQ.create d (he p d rfl) s h
    | promised i c => exact hQ.write h fun a => (Slot.setDeferred_writes c a).alike
    | deferred => exact hQ.stock h rfl fun _ => List.Sublist.refl _
    | aside ha => exact hQ.stock h ha.slots ha.stored
    | valued | frozen | referred | unreferred | emptied | begun | finished | abandoned =>
      exact absurd trivial hc

/-- Freezing a collection keeps what is steady. -/
theorem freeze_steady (hQ : Steady Q) (c : Collection) : Keeps Q c.freeze := fun s h =>
  Follows.keeps (fun he ho h => hQ.occurs he ho h) (freeze_leads computing_computes c s) h

end Store

namespace Tracer

open Store

variable {A : Incident → Prop} {P : SetId → Prop} {Q : Store → Prop} {t : Tracer} {c : Command}
  {α : Type}

/-! ### Commands -/

/-- The pool set that a command takes slots from. -/
def source? (t : Tracer) : Command → Option SetId
  | .create n .. | .copy n .. | .enqueueNumbered _ n .. => t.sets.get? n
  | .put cn .. | .putDeferred cn .. => (t.collections.get? cn).map Collection.pools
  | _ => none

/-- The commands that freeze attributes or ask for a deferred value. -/
def Command.Computes : Command → Prop
  | .force _ | .freezeAttribute _ | .freeze _ | .intoRecord .. | .enqueueNumbered .. => True
  | _ => False

/-- The incidents that a command may come about by. -/
def Permits (t : Tracer) (c : Command) : Incident → Prop
  | .made p _ => t.source? c = some p
  | .deferred v effects => ∃ n, c = .defer n v effects
  | .begun x none => ∃ n, c = .force n ∧ t.cells.get? n = some x
  | .begun _ (some _) | .frozen .. | .finished _ | .abandoned _ => c.Computes
  | _ => True

/-- The deferred values that a command may write into attributes. -/
def Pledges (t : Tracer) (x : CellId) : Command → Prop
  | .copy _ _ source => ∃ i, t.slot? source = some i ∧ (t.store.slot i).deferred = some x
  | .setDeferred _ n | .putDeferred _ _ n => t.cells.get? n = some x
  | _ => False

/-- Of the incidents that a command permits, those that it can come about by: no
other deferred values are written. -/
def Grants (t : Tracer) (c : Command) : Incident → Prop
  | .promised _ x => t.Pledges x c
  | e => t.Permits c e

/-- A command permits work on records. -/
theorem grants_working (t : Tracer) (c : Command) : Working (t.Grants c) :=
  ⟨⟨fun _ _ => trivial, fun _ => trivial, fun _ => trivial, fun _ => trivial⟩, trivial⟩

/-- A command that computes permits freezing. -/
theorem grants_computing (t : Tracer) (h : c.Computes) : Computing (t.Grants c) :=
  ⟨(grants_working t c).toHandling, fun _ _ => h, fun _ _ => h, fun _ => h, fun _ => h⟩

/-- What a command leaves if it is carried out at all. -/
def Ends (Q : Store → Prop) (x : Option (Reply × Tracer)) : Prop :=
  ∀ out, x = some out → Q out.2.store

/-- A command that is not carried out leaves nothing. -/
theorem ends_none : Ends Q none := fun _ h => absurd h.symm (Option.some_ne_none _)

/-- A command that is carried out leaves its outcome. -/
theorem ends_some {out : Reply × Tracer} (h : Q out.2.store) : Ends Q (some out) := by
  intro _ hout
  rw [← Option.some.inj hout]
  exact h

/-- A command that looks a name up first goes on with what it finds. -/
theorem ends_bind {x : Option α} {f : α → Option (Reply × Tracer)}
    (h : ∀ a, x = some a → Ends Q (f a)) : Ends Q (x >>= f) := by
  cases hx : x with
  | none => exact ends_none
  | some a => exact h a hx

/-- An action and what comes after it keep what both of them keep. -/
theorem after_keeps {a : Action α} {k : α → Tracer → Reply × Tracer} (h : Q t.store)
    (ha : a.Keeps Q) (hk : ∀ x s, Q s → Q (k x { t with store := s }).2.store) :
    Q (t.after a k).2.store := by
  cases hr : a t.store with
  | ok x s =>
    rw [after_ok hr]
    exact hk x s (ha.of_ok h hr)
  | error e s =>
    rw [after_error hr]
    exact ha.of_error h hr

/-- What comes after an action follows its incidents. -/
theorem after_follows {a : Action α} {k : α → Tracer → Reply × Tracer} (ha : a.Leads A t.store)
    (hk : ∀ x s, Follows A s (k x { t with store := s }).2.store) :
    Follows A t.store (t.after a k).2.store := by
  cases hr : a t.store with
  | ok x s =>
    rw [after_ok hr]
    exact (ha.of_ok hr).trans (hk x s)
  | error e s =>
    rw [after_error hr]
    exact ha.of_error hr

/-- Commands on attributes come about by what they are granted. -/
theorem performAttribute_follows (t : Tracer) (c : Command) :
    Ends (Follows (t.Grants c) t.store) (t.performAttribute? c) := by
  have hA := grants_working t c
  cases c
  case setUp n slots records =>
    refine ends_some ?_
    have hpush : Follows _ t.store { t.store with
        sets := t.store.sets.push { slots := .ofConfig slots, records := .ofConfig records } } :=
      -- a new set of pools is an incident aside
      hA.of_aside (.push_set t.store rfl)
    dsimp only
    cases t.sets.get? n with
    | none => exact hpush
    | some p => exact hpush.trans (letGo_follows hA _ p)
  case dropSet n => exact ends_bind fun p _ => ends_some (letGo_follows hA _ p)
  case tick n =>
    exact ends_bind fun p _ => ends_some (after_follows (tickSet_leads hA p _) fun _ _ => .refl _)
  case defer n v effects =>
    exact ends_some (after_follows
      (.of_occurs (e := .deferred v effects) ⟨n, rfl⟩ (.deferred v effects))
      fun _ _ => .refl _)
  case force n =>
    have hC := grants_computing t (c := .force n) trivial
    exact ends_bind fun x hx => ends_some (after_follows
      (force_leads hC (c := x) none nofun ⟨n, rfl, hx⟩) fun _ _ => .refl _)
  case create n handle d =>
    exact ends_bind fun p hp => ends_some (after_follows
      (createAttribute_leads hp _) fun _ _ => hA.of_sets rfl rfl rfl le_rfl)
  case copy n handle source =>
    refine ends_bind fun p hp => ends_bind fun j hj => ends_some (after_follows
      (copyAttribute_leads hA (fun _ => hp) fun _ _ hx => ⟨j, hj, hx⟩) fun k s => ?_)
    cases k with
    | none => exact .refl s
    | some k => exact hA.of_sets rfl rfl rfl le_rfl
  case setValue handle v =>
    refine ends_bind fun j _ => ends_some (after_follows ?_ fun _ _ => .refl _)
    cases v with
    | none => exact Action.leads_pure ()
    | some v => exact Action.leads_modify (.of_occurs (hA.valued j v) (.valued j v))
  case setDeferred handle n =>
    exact ends_bind fun j _ => ends_bind fun x hx => ends_some (after_follows
      (Action.leads_modify (.of_occurs (e := .promised j x) hx (.promised j x)))
      fun _ _ => .refl _)
  case freezeAttribute handle =>
    have hC := grants_computing t (c := .freezeAttribute handle) trivial
    exact ends_bind fun j _ =>
      ends_some (after_follows (freezeAttribute_leads hC j _) fun _ _ => .refl _)
  case addReference handle =>
    exact ends_bind fun j _ => ends_some (after_follows
      (addReference_leads hA.toHandling j _) fun _ _ => .refl _)
  case removeReference handle =>
    exact ends_bind fun j _ => ends_some (after_follows
      (removeReference_leads hA.toHandling j _) fun _ _ => .refl _)
  case forget handle => exact ends_some (hA.of_sets rfl rfl rfl le_rfl)
  case lookCell | look | inspect => exact ends_bind fun _ _ => ends_some (.refl _)
  case same => exact ends_bind fun _ _ => ends_bind fun _ _ => ends_some (.refl _)
  all_goals exact ends_none

/-- Commands on records come about by what they are granted. -/
theorem performRecord_follows (t : Tracer) (c : Command) :
    Ends (Follows (t.Grants c) t.store) (t.performRecord? c) := by
  have hA := grants_working t c
  cases c
  case openCollection n cn =>
    refine ends_bind fun p _ =>
      ends_some (after_follows (openCollection_leads hA p _) fun co s => ?_)
    refine after_follows (t := { t with store := s, collections := t.collections.insert cn co }) ?_
      fun _ _ => .refl _
    -- the collection that had the name before is closed
    cases t.collections.get? cn with
    | none => exact Action.leads_pure ()
    | some old => exact close_leads hA old s
  case put cn d v =>
    exact ends_bind fun co hco => ends_some (after_follows (setValue_leads hA co v
      (Option.map_eq_some_iff.2 ⟨co, hco, rfl⟩) _) fun _ _ => .refl _)
  case putDeferred cn d n =>
    exact ends_bind fun co hco => ends_bind fun x hx => ends_some (after_follows
      (setDeferred_leads hA co (Option.map_eq_some_iff.2 ⟨co, hco, rfl⟩) (fun _ => hx) _)
      fun _ _ => .refl _)
  case putAttribute cn handle =>
    exact ends_bind fun co _ => ends_bind fun j _ =>
      ends_some (after_follows (install_leads hA co j _) fun _ _ => .refl _)
  case removeMany cn handles =>
    exact ends_bind fun co _ => ends_bind fun slots _ =>
      ends_some (after_follows (removeMany_leads hA co slots _) fun _ _ => .refl _)
  case get cn k name handle =>
    refine ends_bind fun co _ => ?_
    cases ((t.store.record co.record).attributes k).get? name with
    | none => exact ends_some (.refl _)
    | some j =>
      cases handle with
      | none => exact ends_some (.refl _)
      | some handle => exact ends_some (hA.of_sets rfl rfl rfl le_rfl)
  case freeze cn =>
    have hC := grants_computing t (c := .freeze cn) trivial
    exact ends_bind fun co _ => ends_some (after_follows (freeze_leads hC co _) fun _ _ => .refl _)
  case dropCollection cn =>
    exact ends_bind fun co _ => ends_some (after_follows
      (t := { t with collections := t.collections.erase cn }) (close_leads hA co _)
      fun _ _ => .refl _)
  case intoRecord cn n =>
    have hC := grants_computing t (c := .intoRecord cn n) trivial
    exact ends_bind fun co _ => ends_some (after_follows
      (t := { t with collections := t.collections.erase cn }) (intoRecord_leads hA co hC _)
      fun _ _ => .refl _)
  case lease n rn =>
    exact ends_bind fun p _ =>
      ends_some (after_follows (leaseRecord_leads hA p _) fun _ _ => .refl _)
  case insert n k name handle counted =>
    refine ends_bind fun r _ => ends_bind fun j _ => ends_some (after_follows ?_ fun _ _ => .refl _)
    cases counted with
    | false => exact Action.leads_modify (hA.of_sets rfl rfl rfl le_rfl)
    | true =>
      exact Action.leads_bind (addReference_leads hA.toHandling j _) fun _ _ _ =>
        Action.leads_modify (hA.of_sets rfl rfl rfl le_rfl)
  case release n =>
    exact ends_bind fun r _ => ends_some (after_follows
      (t := { t with records := t.records.erase n }) (releaseRecord_leads hA r _)
      fun _ _ => .refl _)
  case prioritize | prioritizeRecord =>
    exact ends_bind fun _ _ => ends_some (hA.of_sets rfl rfl rfl le_rfl)
  case lookCollection | inspectCollection | lookRecord | inspectRecord | dropRecord =>
    exact ends_bind fun _ _ => ends_some (.refl _)
  all_goals exact ends_none

/-- Commands on exporters and batchers come about by what they are granted. -/
theorem performDelivery_follows (t : Tracer) (c : Command) :
    Ends (Follows (t.Grants c) t.store) (t.performDelivery? c) := by
  have hA := grants_working t c
  cases c
  case batch n names =>
    -- taking records out of hand does not touch the store
    refine ends_bind fun out hout => ends_some ?_
    show Follows _ t.store out.2.store
    rw [(takeRecords_spec names t out.1 out.2 hout).1]
    exact .refl _
  case batchAdd n name =>
    refine ends_bind fun rs _ => ends_bind fun out hout => ends_some ?_
    show Follows _ t.store out.2.store
    rw [(takeRecords_spec [name] t out.1 out.2 hout).1]
    exact .refl _
  case sent n =>
    exact ends_bind fun rs _ => ends_some (after_follows
      (t := { t with batches := t.batches.insert n [] }) (releaseRecords_leads hA rs _)
      fun _ _ => .refl _)
  case discard n release =>
    exact ends_bind fun rs _ => ends_some (after_follows
      (t := { t with batches := t.batches.erase n }) (releaseRecords_leads hA _ _)
      fun _ _ => .refl _)
  case send en n =>
    refine ends_bind fun e _ => ends_bind fun rs _ => ?_
    have hsend := send_follows hA e rs t.store
    rcases hx : e.send rs t.store with ⟨_ | _ | _, e', s'⟩ <;> rw [hx] at hsend <;>
      exact ends_some hsend
  case flush q en =>
    refine ends_bind fun b _ => ends_bind fun e _ => ?_
    have hflush := flush_follows hA b e t.store
    rcases hx : b.flush e t.store with ⟨_ | _ | _, b', e', s'⟩ <;> rw [hx] at hflush <;>
      exact ends_some hflush
  case enqueueNumbered q n trace count =>
    have hC := grants_computing t (c := .enqueueNumbered q n trace count) trivial
    exact ends_bind fun b _ => ends_bind fun p hp => ends_some (after_follows
      (numberedRecords_leads hA hC (fun _ => hp) trace count _) fun _ _ => .refl _)
  case takeBatch q n =>
    refine ends_bind fun b _ => ?_
    rcases b.takeBatch t.store.now with ⟨_ | rs, b'⟩ <;> exact ends_some (.refl _)
  case exporter | batcher => exact ends_some (.refl _)
  case advance ms => exact ends_some (hA.of_aside (.later t.store ms))
  case lookBatch | lookExporter | lookBatcher | count =>
    exact ends_bind fun _ _ => ends_some (.refl _)
  case enqueue => exact ends_bind fun _ _ => ends_bind fun _ _ => ends_some (.refl _)
  all_goals exact ends_none

/-- **A command comes about by the incidents that it grants.** -/
theorem step_grants (t : Tracer) (c : Command) :
    Follows (t.Grants c) t.store (t.step c).2.store := by
  have hcleared : Follows (t.Grants c) t.store t.cleared.store :=
    (grants_working t c).of_sets rfl rfl rfl le_rfl
  have hanswer : Follows (t.cleared.Grants c) t.cleared.store (t.cleared.answer c).2.store := by
    unfold answer
    cases ha : t.cleared.performAttribute? c with
    | some out => exact performAttribute_follows t.cleared c out ha
    | none =>
      cases hr : t.cleared.performRecord? c with
      | some out => exact performRecord_follows t.cleared c out hr
      | none =>
        cases hd : t.cleared.performDelivery? c with
        | some out => exact performDelivery_follows t.cleared c out hd
        | none => exact .refl _
  refine hcleared.trans (hanswer.mono fun e he => ?_)
  -- the log is nothing that a command goes by
  cases e <;> cases c <;> exact he

/-- **Every command comes about by the incidents that it permits.** -/
theorem step_follows (t : Tracer) (c : Command) :
    Follows (t.Permits c) t.store (t.step c).2.store := by
  refine (step_grants t c).mono fun e he => ?_
  cases e with
  | promised => trivial
  | _ => exact he

/-- **What is upheld outlasts every command** that takes slots from pools of the
sets in `P` alone. -/
theorem step_upheld (hQ : Upheld P Q) (h : Q t.store) (hc : ∀ p, t.source? c = some p → P p) :
    Q (t.step c).2.store :=
  Follows.keeps (fun he ho h => hQ.occurs (fun p d hmade => hc p (by subst hmade; exact he)) ho h)
    (step_follows t c) h

end Tracer
end Telemetry
