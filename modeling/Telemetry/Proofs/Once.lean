/-
# Deferred values are computed once

A deferred value that was computed is never computed again, and everyone who
carries it gets its one result (`Occurs.finished_stays`).  A computation that is
begun comes to its end, or is broken off together with the command that began it
(`Tracer.step_goes`); so every call of a deferred value but one is the doing of a
command that ended in a fault (`Tracer.run_computes_once`).

A computation is begun because the value was asked for directly, or for a slot
that is frozen at that moment, is not frozen yet, carries the value, and has no
value of its own (`Tracer.Sparing`).  An assigned value always wins, no matter
when the deferred one was written (`Follows.assigned`).
-/

import Telemetry.Proofs.Lasting

namespace Telemetry

open Trace

namespace Action

variable {α : Type} {s : Store}

/-- What is undone on failure must not touch deferred values. -/
theorem forces_undoing {a : Action α} {change : Store → Store} (ha : Forces a s)
    (hc : ∀ s, (change s).cells = s.cells) : Forces (a.undoing change) s := by
  cases hs : a s with
  | ok x s' => exact forces_ok (by rw [undoing, hs]) (ha.ok x s' hs)
  | error e s' =>
    have h := ha.error e s' hs
    refine forces_error (by rw [undoing, hs]) ⟨by rw [hc]; exact h.size, fun c => ?_⟩
    rw [Store.cell, Store.cell, hc]
    exact h.cells c

end Action

namespace Store

open Telemetry.Action

variable {A : Incident → Prop} {s s' : Store} {e : Incident} {i : SlotId} {x : CellId}
  {co : Collection}

/-! ### Incidents that leave deferred values alone -/

/-- The incidents that are not about deferred values. -/
def Incident.Still : Incident → Prop
  | .deferred .. | .begun .. | .finished _ | .abandoned _ => False
  | _ => True

/-- Incidents that compute nothing may come about in any work on records. -/
theorem working_still : Working Incident.Still :=
  ⟨⟨fun _ _ => trivial, fun _ => trivial, fun _ => trivial, fun _ => trivial⟩, trivial⟩

/-- Such an incident leaves all deferred values. -/
theorem Occurs.cells_of_still (ho : s.Occurs e s') (he : e.Still) : s'.cells = s.cells := by
  cases ho with
  | made p d => exact cells_of_rest (createAttribute_rest p d s rfl)
  | emptied => exact cells_of_rest (removeReference_rest _ s rfl)
  | valued | promised | frozen | referred | unreferred => rfl
  | aside h => exact h.cells
  | deferred | begun | finished | abandoned => exact he.elim

/-- Incidents that compute nothing leave all deferred values in any run of them. -/
theorem Follows.cells_of_still (h : Follows Incident.Still s s') : s'.cells = s.cells :=
  Follows.keeps (Q := fun m => m.cells = s.cells)
    (fun he ho hm => (ho.cells_of_still he).trans hm) h rfl

/-- What leaves deferred values alone. -/
theorem forces_of_still {α : Type} {a : Action α} (h : a.Leads Incident.Still s) : a.Forces s :=
  forces_of_cells h.cells_of_still

/-! ### Operations that compute -/

/-- A freeze computes at most what the attribute carries. -/
theorem freezeAttribute_forces (i : SlotId) (s : Store) : (freezeAttribute i).Forces s :=
  freezeWith_forces force_forces i s

/-- Freezing a collection computes at most what its attributes carry. -/
theorem freeze_forces (co : Collection) (s : Store) : co.freeze.Forces s :=
  forces_forM (fun _ _ => forces_bind (forces_of_cells rfl) fun _ _ _ =>
    forces_forM freezeAttribute_forces _ _) _ s

/-- Turning a collection into a record computes at most what its attributes carry. -/
theorem intoRecord_forces (co : Collection) (s : Store) : co.intoRecord.Forces s := by
  refine forces_undoing (forces_bind (freeze_forces co s) fun _ _ _ =>
    forces_bind (forces_of_cells rfl) fun _ _ _ => forces_of_cells rfl) fun s' => ?_
  have hclose := close_leads working_still co s'
  cases hc : co.close s' with
  | ok u s'' => exact (hclose.of_ok hc).cells_of_still
  | error e s'' => exact (hclose.of_error hc).cells_of_still

/-- Making records for a batch computes at most what their attributes carry, by induction on
their number. -/
theorem numberedRecords_forces (p : SetId) (trace : String) (n : Nat) (s : Store) :
    (Tracer.numberedRecords p trace n).Forces s := by
  induction n with
  | zero => exact forces_of_cells rfl
  | succ n ih =>
    exact forces_bind ih fun rs s₁ _ =>
      forces_bind (forces_of_still (openCollection_leads working_still p s₁)) fun co s₂ _ =>
        forces_bind (forces_of_still (leads_discard (setValue_leads working_still co _ trivial s₂)))
          fun _ s₃ _ => forces_bind
            (forces_of_still (leads_discard (setValue_leads working_still co _ trivial s₃)))
            fun _ s₄ _ => forces_bind (intoRecord_forces co s₄) fun _ _ _ => forces_of_cells rfl

/-! ### What is finished -/

/-- A value that was computed is there. -/
theorem lt_size_of_isFinished (h : (s.cell x).isFinished = true) : x < s.cells.size := by
  by_contra hx
  rw [cell_of_size_le (not_lt.1 hx)] at h
  exact Bool.false_ne_true h

/-- **A deferred value that was computed stays as it is.** -/
theorem Occurs.finished_stays (ho : s.Occurs e s') (h : (s.cell x).isFinished = true) :
    s'.cell x = s.cell x := by
  have hother : ∀ {c : CellId} {f : Cell → Cell}, (s.cell c).isFinished = false →
      (s.modifyCell c f).cell x = s.cell x := by
    intro c f hc
    rw [cell_modifyCell, if_neg]
    rintro ⟨rfl, -⟩
    exact Bool.false_ne_true (hc.symm.trans h)
  by_cases he : e.Still
  · rw [cell, cell, ho.cells_of_still he]
  · cases ho with
    | deferred v effects => rw [cell_push, if_neg (lt_size_of_isFinished h).ne]
    | begun hc => exact hother (by rw [Cell.isFinished, hc])
    | finished hc => exact hother (by rw [Cell.isFinished, hc])
    | abandoned hc => exact hother (by rw [Cell.isFinished, hc])
    | made | valued | promised | frozen | referred | unreferred | emptied | aside =>
      exact absurd trivial he

/-- A value that was computed is never computed again, through any run of incidents. -/
theorem Follows.finished_stays (h : Follows A s s') (hx : (s.cell x).isFinished = true) :
    s'.cell x = s.cell x :=
  Follows.keeps (Q := fun m => m.cell x = s.cell x)
    (fun _ ho hm => (ho.finished_stays (by rw [hm]; exact hx)).trans hm) h rfl

/-! ### What is begun -/

/-- A deferred value is called only when its computation is begun. -/
theorem Occurs.calls (ho : s.Occurs e s') (hx : x < s.cells.size) (he : ∀ why, e ≠ .begun x why) :
    (s'.cell x).calls = (s.cell x).calls ∧ x < s'.cells.size := by
  by_cases hstill : e.Still
  · rw [cell, cell, ho.cells_of_still hstill]
    exact ⟨rfl, hx⟩
  · cases ho with
    | deferred v effects =>
      refine ⟨by rw [cell_push, if_neg hx.ne], ?_⟩
      rw [Array.size_push]
      exact hx.trans (Nat.lt_succ_self _)
    | @begun c why =>
      rw [cell_modifyCell, if_neg fun h => he why (by rw [h.1]), size_modifyCell]
      exact ⟨rfl, hx⟩
    | finished | abandoned =>
      rw [cell_modifyCell, size_modifyCell]
      split_ifs <;> exact ⟨rfl, hx⟩
    | made | valued | promised | frozen | referred | unreferred | emptied | aside =>
      exact absurd trivial hstill

/-- **Whatever was called more often was begun on the way.** -/
theorem Follows.begun (h : Follows A s s') (hx : x < s.cells.size)
    (hcalls : (s.cell x).calls < (s'.cell x).calls) :
    ∃ why m m', Follows A s m ∧ A (.begun x why) ∧ m.Occurs (.begun x why) m' ∧
      Follows A m' s' := by
  rcases h.first (fun e => ∃ why, e = .begun x why) with
    hnone | ⟨e, m, m', hbefore, hA, ⟨why, rfl⟩, ho, hafter⟩
  · have hsame := Follows.keeps
      (Q := fun m => (m.cell x).calls = (s.cell x).calls ∧ x < m.cells.size)
      (fun he ho hm => by
        obtain ⟨hcalls, hlt⟩ := ho.calls hm.2 fun why h => he.2 ⟨why, h⟩
        exact ⟨hcalls.trans hm.1, hlt⟩) hnone ⟨rfl, hx⟩
    exact absurd hsame.1 hcalls.ne'
  · exact ⟨why, m, m', hbefore.mono fun _ he => he.1, hA, ho, hafter⟩

/-! ### Assigned values -/

/-- No value is assigned to the slot any more, and it is not emptied. -/
def Incident.Spares (i : SlotId) (e : Incident) : Prop :=
  e ≠ .emptied i ∧ ∀ v, e ≠ .valued i v

/-- A value that was assigned to an attribute stays, as long as nothing writes the
attribute. -/
theorem Occurs.assigned {v : Value} (ho : s.Occurs e s') (ht : Tidy s)
    (hi : (s.slot i).definition ≠ none) (he : e.Spares i) (hv : (s.slot i).value = some v) :
    (s'.slot i).value = some v := by
  -- a write to any slot may as well be judged at this one
  have hwrite : ∀ (j : SlotId) {f : Slot → Slot}, (f (s.slot i)).value = some v →
      ((s.modifySlot j f).slot i).value = some v := by
    intro j f hf
    rw [slot_modifySlot]
    split_ifs
    · exact hf
    · exact hv
  cases ho with
  | made p d =>
    obtain ⟨j, s₁, hrun, -, -, -, hfree, hothers⟩ := createAttribute_tidy ht p d
    rwa [leaves_ok hrun, hothers i fun hij => hi (hij ▸ hfree)]
  | valued j w => rwa [slot_modifySlot_ne fun hji => he.2 w (by rw [hji])]
  | promised j c =>
    refine hwrite j ?_
    unfold Slot.setDeferred
    split_ifs <;> exact hv
  | frozen =>
    -- a freeze keeps the value that is there
    refine hwrite _ ?_
    unfold Slot.freeze
    split_ifs
    · exact hv
    · rw [hv]
      rfl
  | referred j => exact hwrite j hv
  | unreferred => exact hwrite _ hv
  | emptied h => rwa [(empties_of_expiring ht h).others i fun hij => he.1 (hij ▸ rfl)]
  | deferred | begun | finished | abandoned => exact hv
  | aside h => rwa [slot, h.slots]

/-- **An assigned value always wins:** it stays, whatever deferred value is written
before or after it and whenever the slot is frozen. -/
theorem Follows.assigned {v : Value} (h : Follows (Incident.Spares i) s s') (ht : Tidy s)
    (hi : (s.slot i).definition ≠ none) (hv : (s.slot i).value = some v) :
    (s'.slot i).value = some v := by
  induction h with
  | refl => exact hv
  | @tail m m' hbefore hstep ih =>
    obtain ⟨e, he, ho⟩ := hstep
    have hm : Follows (· ≠ .emptied i) s m := Follows.mono (fun e he => he.1) hbefore
    exact ho.assigned (hm.tidy ht) (by rw [(hm.lasts ht hi).definition]; exact hi) he ih

/-! ### Asking -/

/-- Everyone who asks for a deferred value gets its one result, and nobody asks in
vain. -/
structure Shared (s : Store) : Prop where
  asked : ∀ x v s', force x s = .ok v s' →
    v = (s'.cell x).result? ∧ (x < s'.cells.size → (s'.cell x).isFinished = true)
  /-- Freezing a slot that wants a deferred value asks for that one. -/
  frozen : ∀ i x s', (s.slot i).Wants x → freezeAttribute i s = .ok () s' →
    ∃ m, force x s = .ok (m.cell x).result? m ∧
      s' = m.modifySlot i (Slot.freeze (m.cell x).result?)
  /-- Freezing any other slot asks for none. -/
  plain : ∀ i, (∀ x, ¬ (s.slot i).Wants x) →
    freezeAttribute i s = .ok () (s.modifySlot i (Slot.freeze none))
  /-- What was computed stays, and is there for whoever asks later. -/
  settled : ∀ x, (s.cell x).isFinished = true → ∀ m, Follows (fun _ => True) s m →
    m.cell x = s.cell x ∧ force x m = .ok (s.cell x).result? m

/-- Whoever asks for a value gets the one that is there afterwards. -/
theorem force_result {v : Option Value} (h : force x s = .ok v s') :
    v = (s'.cell x).result? ∧ (x < s'.cells.size → (s'.cell x).isFinished = true) :=
  forceWithin_result (n := s.cells.size + 1) h

/-- A value that is there is returned without computation. -/
theorem force_finished (h : (s.cell x).isFinished = true) :
    force x s = .ok (s.cell x).result? s := by
  cases hp : (s.cell x).progress with
  | finished v =>
    have hrun : forceWithin (s.cells.size + 1) x s = .ok v s := by simp [forceWithin, hp]
    have hresult : (s.cell x).result? = v := by simp [Cell.result?, hp]
    rw [hresult]
    exact hrun
  | pending | running => simp [Cell.isFinished, hp] at h

/-- What was computed is shared by all who ask for it, in any store. -/
theorem shared (s : Store) : Shared s where
  asked _ _ _ h := force_result h
  -- a freeze that ends had its value computed, and the cell has it now
  frozen i x s' hi h := by
    have hrun : freezeWith force i s = _ :=
      freezeWith_pending hi.mutable hi.unvalued hi.deferred
    rw [freezeAttribute, hrun] at h
    cases hf : force x s with
    | ok v m =>
      rw [hf] at h
      obtain ⟨rfl, -⟩ := force_result hf
      cases h
      exact ⟨m, rfl, rfl⟩
    | error e m =>
      rw [hf] at h
      cases h
  plain i hi := by
    -- nothing is wanted of a frozen attribute, nor of one with a value or without a
    -- deferred one
    rcases frozen_plain_or_pending s i with him | ⟨him, hv | ⟨hv, x, hd⟩⟩
    · rw [modifySlot_self (by rw [Slot.freeze, if_pos him])]
      exact freezeWith_frozen him
    · exact freezeWith_plain him hv
    · exact absurd ⟨him, hv, hd⟩ (hi x)
  settled x hx m hm := by
    have hcell := hm.finished_stays hx
    refine ⟨hcell, ?_⟩
    rw [← hcell]
    exact force_finished (by rw [hcell]; exact hx)

/-! ### Commands -/

/-- How deferred values fare in a command: new ones are pending. -/
structure Goes (ended : Prop) (s s' : Store) : Prop where
  size : s.cells.size ≤ s'.cells.size
  old : ∀ x, x < s.cells.size → (s.cell x).Fares ended (s'.cell x)
  fresh : ∀ x, s.cells.size ≤ x → (s'.cell x).progress = .pending ∧ (s'.cell x).calls = 0

/-- To fare well is to go on. -/
theorem Fares.goes {ended : Prop} (h : s.Fares ended s') : s.Goes ended s' := by
  refine ⟨h.size.ge, fun x _ => h.cells x, fun x hx => ?_⟩
  rw [cell_of_size_le (by rw [h.size]; exact hx)]
  exact ⟨rfl, rfl⟩

/-- Where no cell changes, deferred values go on. -/
theorem Goes.of_cells {ended : Prop} (h : s'.cells = s.cells) : s.Goes ended s' :=
  (Fares.of_cells h).goes

/-- Only the deferred values count of the store before. -/
theorem Goes.left {ended : Prop} {r : Store} (h : r.Goes ended s') (hc : s.cells = r.cells) :
    s.Goes ended s' := by
  have hcell : ∀ x, s.cell x = r.cell x := fun x => by rw [cell, cell, hc]
  refine ⟨by rw [hc]; exact h.size, fun x hx => ?_, fun x hx => h.fresh x (by rwa [← hc])⟩
  rw [hcell]
  exact h.old x (by rwa [← hc])

/-- Deferring a value adds one, which was not begun. -/
theorem goes_push {ended : Prop} (v : Option Value) (effects : List Effect) :
    s.Goes ended { s with cells := s.cells.push { yields := v, effects := effects } } := by
  refine ⟨by simp, fun x hx => ?_, fun x hx => ?_⟩ <;> rw [cell_push]
  · rw [if_neg hx.ne]
    exact .rests
  · split_ifs
    · exact ⟨rfl, rfl⟩
    · rw [cell_of_size_le hx]
      exact ⟨rfl, rfl⟩

end Store

namespace Tracer

open Store

variable {t : Tracer} {c : Command} {α : Type}

/-- Whether a command was broken off. -/
def Reply.isFault : Reply → Bool
  | .fault _ => true
  | _ => false

/-- A command that computes and then only answers. -/
theorem after_goes {a : Action α} {k : α → Tracer → Reply × Tracer} (ha : a.Forces t.store)
    (hk : ∀ x t, (k x t).2.store.cells = t.store.cells) :
    t.store.Goes ((t.after a k).1.isFault = false) (t.after a k).2.store := by
  cases hr : a t.store with
  | ok x s =>
    rw [after_ok hr]
    exact ((ha.ok x s hr).trans (.of_cells (hk x _))).goes
  | error e s =>
    rw [after_error hr]
    exact ((ha.error e s hr).mono nofun).goes

/-- The operations by which commands freeze attributes or ask for deferred values. -/
inductive Computation : {α : Type} → Action α → Prop
  | force (x : CellId) : Computation (Trace.force x)
  | freezeAttribute (i : SlotId) : Computation (Trace.freezeAttribute i)
  | freeze (co : Collection) : Computation co.freeze
  | intoRecord (co : Collection) : Computation co.intoRecord
  | numberedRecords (p : SetId) (trace : String) (n : Nat) :
    Computation (numberedRecords p trace n)

/-- A command that computes deferred values is one such operation, if its names stand for
anything. -/
theorem answer_computes {Q : Reply × Tracer → Prop} (hc : c.Computes) (hunknown : Q (.unknown, t))
    (hafter : ∀ {α : Type} {a : Action α} {k : α → Tracer → Reply × Tracer} {u : Tracer},
      u.store = t.store → Computation a → (∀ x t, (k x t).2.store = t.store) →
        Q (u.after a k)) : Q (t.answer c) := by
  -- names are looked up in the order in which the command reads them
  have hnone : t.answer c = (.unknown, t) → Q (t.answer c) := fun h => by rwa [h]
  cases c
  case force n =>
    cases hx : t.cells.get? n with
    | none => exact hnone (answer_unknown (fails hx) rfl rfl)
    | some x =>
      rw [answer_attribute (performs hx rfl)]
      exact hafter rfl (.force x) fun _ _ => rfl
  case freezeAttribute handle =>
    cases hi : t.slot? handle with
    | none => exact hnone (answer_unknown (fails hi) rfl rfl)
    | some i =>
      rw [answer_attribute (performs hi rfl)]
      exact hafter rfl (.freezeAttribute i) fun _ _ => rfl
  case freeze cn =>
    cases hco : t.collections.get? cn with
    | none => exact hnone (answer_unknown rfl (fails hco) rfl)
    | some co =>
      rw [answer_record rfl (performs hco rfl)]
      exact hafter rfl (.freeze co) fun _ _ => rfl
  case intoRecord cn n =>
    cases hco : t.collections.get? cn with
    | none => exact hnone (answer_unknown rfl (fails hco) rfl)
    | some co =>
      rw [answer_record rfl (performs hco rfl)]
      exact hafter (u := { t with collections := t.collections.erase cn }) rfl (.intoRecord co)
        fun _ _ => rfl
  case enqueueNumbered q n trace count =>
    cases hb : t.batchers.get? q with
    | none => exact hnone (answer_unknown rfl rfl (fails hb))
    | some b =>
      cases hp : t.sets.get? n with
      | none => exact hnone (answer_unknown rfl rfl (performs hb (fails hp)))
      | some p =>
        rw [answer_delivery rfl rfl (performs hb (performs hp rfl))]
        exact hafter rfl (.numberedRecords p trace count) fun _ _ => rfl
  -- no other command computes
  all_goals exact hc.elim

/-- What commands compute is an action that forces values. -/
theorem Computation.forces {a : Action α} (ha : Computation a) (s : Store) : a.Forces s := by
  cases ha with
  | force x => exact force_forces x s
  | freezeAttribute i => exact freezeAttribute_forces i s
  | freeze co => exact freeze_forces co s
  | intoRecord co => exact intoRecord_forces co s
  | numberedRecords p trace n => exact numberedRecords_forces p trace n s

/-- Commands that compute begin no value twice, unless they are broken off. -/
theorem answer_goes (t : Tracer) (hc : c.Computes) :
    t.store.Goes ((t.answer c).1.isFault = false) (t.answer c).2.store :=
  answer_computes (Q := fun out => t.store.Goes (out.1.isFault = false) out.2.store) hc
    (.of_cells rfl) fun ht ha hk =>
      ht ▸ after_goes (ha.forces _) fun x t => congrArg Store.cells (hk x t)

/-- What a command permits that neither makes deferred values nor computes any. -/
theorem permits_still (hc : ¬ c.Computes) (hdefer : ∀ n v es, c ≠ .defer n v es)
    (e : Incident) (he : t.Permits c e) : e.Still := by
  cases e with
  | deferred v es =>
    obtain ⟨n, rfl⟩ := he
    exact absurd rfl (hdefer n v es)
  | begun x why =>
    cases why with
    | none =>
      obtain ⟨n, rfl, -⟩ := he
      exact hc trivial
    | some i => exact hc he
  | finished x | abandoned x => exact hc he
  | made | valued | promised | frozen | referred | unreferred | emptied | aside => trivial

/-- **How deferred values fare in a command.** -/
theorem step_goes (t : Tracer) (c : Command) :
    t.store.Goes ((t.step c).1.isFault = false) (t.step c).2.store := by
  by_cases hc : c.Computes
  · exact (answer_goes t.cleared hc).left rfl
  · by_cases hdefer : ∃ n v es, c = .defer n v es
    · obtain ⟨n, v, es, rfl⟩ := hdefer
      exact (goes_push (s := t.cleared.store) v es).left rfl
    · have hstill := (step_follows t c).mono
        (permits_still hc fun n v es h => hdefer ⟨n, v, es, h⟩)
      exact .of_cells hstill.cells_of_still

/-- Why a deferred value is computed in a command: because it was asked for, or for
a slot that has to be frozen. -/
def Cause (t : Tracer) (c : Command) (x : CellId) (m : Store) : Option SlotId → Prop
  | none => ∃ n, c = .force n ∧ t.cells.get? n = some x
  | some i => c.Computes ∧ (m.slot i).Wants x

/-- A command computes deferred values only when they are needed. -/
structure Sparing (t : Tracer) (c : Command) : Prop where
  goes : t.store.Goes ((t.step c).1.isFault = false) (t.step c).2.store
  idle : ¬ c.Computes → ∀ x, ((t.step c).2.store.cell x).calls = (t.store.cell x).calls
  cause : ∀ x, (t.store.cell x).calls < ((t.step c).2.store.cell x).calls →
    ∃ why m m', Follows (t.Permits c) t.store m ∧ t.Cause c x m why ∧
      m.Occurs (.begun x why) m' ∧ Follows (t.Permits c) m' (t.step c).2.store

/-- Every command computes only what is asked for or frozen. -/
theorem step_sparing (t : Tracer) (c : Command) : t.Sparing c := by
  have hgoes := step_goes t c
  have hcause : ∀ x, (t.store.cell x).calls < ((t.step c).2.store.cell x).calls →
      ∃ why m m', Follows (t.Permits c) t.store m ∧ t.Cause c x m why ∧
        m.Occurs (.begun x why) m' ∧ Follows (t.Permits c) m' (t.step c).2.store := by
    -- what was called was there before; the first call tells what asked for it
    intro x hcalls
    have hx : x < t.store.cells.size := by
      by_contra hx
      rw [(hgoes.fresh x (not_lt.1 hx)).2] at hcalls
      exact absurd hcalls (Nat.not_lt_zero _)
    obtain ⟨why, m, m', hbefore, hpermits, ho, hafter⟩ := (step_follows t c).begun hx hcalls
    refine ⟨why, m, m', hbefore, ?_, ho, hafter⟩
    cases why with
    | none => exact hpermits
    | some i =>
      cases ho with
      | begun _ hwhy => exact ⟨hpermits, hwhy i rfl⟩
  refine ⟨hgoes, fun hc x => ?_, hcause⟩
  -- a command that does not compute asks for nothing
  by_contra hne
  have hcalls : (t.store.cell x).calls ≤ ((t.step c).2.store.cell x).calls := by
    by_cases hx : x < t.store.cells.size
    · exact (hgoes.old x hx).calls_le
    · rw [cell_of_size_le (not_lt.1 hx)]
      exact Nat.zero_le _
  obtain ⟨why, m, m', -, hwhy, -⟩ := hcause x (lt_of_le_of_ne hcalls (Ne.symm hne))
  cases why with
  | none =>
    obtain ⟨n, rfl, -⟩ := hwhy
    exact hc trivial
  | some i => exact hc hwhy.1

/-! ### Runs -/

/-- Every call of a deferred value but `n` of them came to its end. -/
def Answered (n : Nat) (s : Store) : Prop :=
  ∀ x, (s.cell x).calls ≤ n + (s.cell x).isFinished.toNat

/-- Each step is answered as its values go on, and counts as a fault if it breaks off. -/
theorem Answered.step {n : Nat} (h : Answered n t.store) (c : Command) :
    Answered (n + (t.step c).1.isFault.toNat) (t.step c).2.store := by
  intro x
  have hgoes := step_goes t c
  by_cases hx : x < t.store.cells.size
  · have hcalls := h x
    have hfares := hgoes.old x hx
    -- it is enough to look at the one cell, by how it fared
    revert hcalls hfares
    generalize (t.step c).2.store.cell x = after
    intro hcalls hfares
    cases hfares with
    | rests => omega
    | computed hp =>
      rw [Cell.isFinished, hp, Bool.toNat_false] at hcalls
      simp only [Cell.isFinished, Bool.toNat_true]
      omega
    | brokenOff hended hp =>
      rw [Bool.not_eq_false] at hended
      rw [Cell.isFinished, hp, Bool.toNat_false] at hcalls
      simp only [hended, Bool.toNat_true]
      omega
  · rw [(hgoes.fresh x (not_lt.1 hx)).2]
    exact Nat.zero_le _

/-- After a run, a value was called at most once more often than steps broke off, by
induction on the run. -/
theorem Answered.run (cs : List Command) : ∀ {t : Tracer} {n : Nat}, Answered n t.store →
    Answered (n + (t.run cs).1.countP Reply.isFault) (t.run cs).2.store := by
  induction cs with
  | nil => exact fun h => h
  | cons c cs ih =>
    intro t n h
    have hrun := ih (h.step c)
    have hcount : (t.run (c :: cs)).1.countP Reply.isFault =
        (t.step c).1.isFault.toNat + ((t.step c).2.run cs).1.countP Reply.isFault := by
      show (((t.step c).1) :: ((t.step c).2.run cs).1).countP Reply.isFault = _
      rw [List.countP_cons, Nat.add_comm]
      cases (t.step c).1.isFault <;> rfl
    rw [hcount, ← Nat.add_assoc]
    exact hrun

/-- **A deferred value is computed once, and only when it is needed.**  After any
commands, it was called no more often than commands were broken off, and once more
if it is computed.  From the moment at which it is computed it stays, and whoever
asks for it gets its one result.  A command computes it only for a slot that is
neither frozen nor has a value, or because it was asked for it.  And from any moment
on, in the midst of commands as well, an assigned value wins over every deferred
one. -/
theorem run_computes_once (cs : List Command) :
    let out := ({} : Tracer).run cs
    let t := out.2
    (∀ x, (t.store.cell x).calls ≤
        out.1.countP Reply.isFault + (t.store.cell x).isFinished.toNat) ∧
      (∀ m, Follows (fun _ => True) t.store m → Shared m) ∧
      (∀ c, t.Sparing c) ∧
      ∀ s, Follows (fun _ => True) t.store s → ∀ i v,
        (s.slot i).definition ≠ none → (s.slot i).value = some v →
          ∀ m, Follows (Incident.Spares i) s m →
            (m.slot i).value = some v ∧ ∀ x, ¬ (m.slot i).Wants x := by
  intro out t
  -- no cell is there at the beginning
  have hblank : Answered 0 ({} : Tracer).store := fun x => by
    rw [cell_of_size_le (Nat.zero_le x)]
    exact Nat.zero_le _
  refine ⟨fun x => ?once, fun m _ => shared m, step_sparing t,
    fun s hs i v hi hv m hm => ?assigned⟩
  case once =>
    have hcalls := hblank.run cs x
    rwa [Nat.zero_add] at hcalls
  case assigned =>
    have hvm := hm.assigned (hs.tidy (run_tidy cs {} tidy_empty)) hi hv
    exact ⟨hvm, fun x hx => by rw [hx.unvalued] at hvm; cases hvm⟩

/-- A deferred value whose computation gives up a reference that nobody holds, and
that is asked for twice. -/
def brokenOffOnce : List Command :=
  [.setUp "p" .small .small, .create "p" "h" { name := "a", category := .user },
    .addReference "h", .removeReference "h", .addReference "h",
    .defer "l" (some (.text "v")) [⟨"h", .removeReference⟩], .force "l", .force "l"]

/-- It is computed twice, since what is broken off is begun again. -/
theorem calls_brokenOffOnce :
    ((({} : Tracer).run brokenOffOnce).2.store.cell 0).calls = 2 := by decide +kernel

end Tracer
end Telemetry
