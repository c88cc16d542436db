/-
# What each command keeps

One lemma for each command that does something: its answer keeps the books of
the tracer, leaves alone the records that are in hand before and after and are
not written, and is broken off only by a value that needs itself.
`answer_outcome` puts them together.
-/

import Telemetry.Proofs.Custody

namespace Telemetry

open Trace Store

namespace Tracer

variable {t : Tracer} {L L' : Ledger} {H : Multiset RecordId} {P : RecordId → Prop}
  {W : SlotId → Prop} {written : Option RecordId} {out : Reply × Tracer} {s s' : Store}
  {n cn q : String}

/-- A command with an unknown name. -/
theorem unknown_outcome (h : Books t.store L t.inHand) (hout : out = (.unknown, t)) :
    Outcome W t written L out := by
  subst hout
  exact Outcome.of_store h rfl rfl rfl

/-! ### Handles and deferred values -/

/-- The books do not know names. -/
theorem books_handles (h : Books s L H) (m : Keyed SlotId) :
    Books { s with handles := m } L H :=
  ⟨h.counted.of_stock rfl fun _ => List.Sublist.refl _, h.labelled,
    h.housed.of_stock rfl fun _ => List.Sublist.refl _, h.rest⟩

/-- Naming a slot spares all records. -/
theorem spares_handles (s : Store) (m : Keyed SlotId) : Spares P W s { s with handles := m } :=
  ⟨fun _ _ => rfl, fun _ _ => Kept.refl _ _ _, le_rfl, fun _ _ => Cell.Advances.refl _⟩

/-- Handles do not count. -/
theorem Outcome.handles {t' : Tracer} {r r' : Reply} (h : Outcome W t written L (r, t'))
    (m : Keyed SlotId) (hr : r'.sound) :
    Outcome W t written L (r', { t' with store := { t'.store with handles := m } }) :=
  ⟨books_handles h.books m, h.spares.trans (spares_handles _ m), hr⟩

/-- A deferred value that comes new was not computed yet. -/
theorem books_push_cell (h : Books s L H) (cell : Cell) (hc : cell.progress = .pending) :
    Books { s with cells := s.cells.push cell } L H ∧
      Spares P W s { s with cells := s.cells.push cell } := by
  refine ⟨⟨h.counted.of_stock rfl fun _ => List.Sublist.refl _, h.labelled,
    h.housed.of_stock rfl fun _ => List.Sublist.refl _, fun c => ?_⟩,
    fun _ _ => rfl, fun _ _ => Kept.refl _ _ _, ?_, fun c hc' => ?_⟩
  · rw [cell_push]
    split_ifs
    · exact Or.inl hc
    · exact h.rest c
  · rw [Array.size_push]
    exact Nat.le_succ _
  · rw [cell_push, if_neg hc'.ne]
    exact Cell.Advances.refl _

/-- A value is deferred. -/
theorem defer_outcome (h : Books t.store L t.inHand) (v : Option Value) (effects : List Effect) :
    Outcome W t written L (t.answer (.defer n v effects)) := by
  obtain ⟨hb, hs⟩ := books_push_cell (P := fun _ => True) (W := W) h
    { yields := v, effects := effects } rfl
  exact ⟨hb, hs.mono (fun _ _ => trivial) fun _ _ _ _ hi => hi, rfl⟩

/-- A deferred value is asked for. -/
theorem force_outcome (h : Books t.store L t.inHand) (hN : Named W t.store)
    (hL : t.entry L (.force n) = some L') : Outcome W t written L' (t.answer (.force n)) := by
  cases hc : t.cells.get? n with
  | none =>
    simp only [entry, hc, Option.elim_none, Option.some.injEq] at hL
    exact unknown_outcome (hL ▸ h) (answer_unknown (fails hc) rfl rfl)
  | some c =>
    simp only [entry, hc, Option.elim_some] at hL
    have hanswer : t.answer (.force n) = t.after (Trace.force c) fun v t =>
        (.forced v (t.store.cell c).calls, t) :=
      answer_attribute (performs hc rfl)
    rw [hanswer]
    exact Outcome.of_runs h (force_runs c L L' t.store hL h.counted hN) (fun _ _ => rfl)
      fun _ _ => rfl

/-! ### Pool sets -/

/-- The pools of a set that comes new store nothing. -/
theorem push_set_moves (h : Books s L H) {set : PoolSet} (hs : set.slots.stored = [])
    (hr : set.records.stored = []) : Moves P W s L H { s with sets := s.sets.push set } := by
  refine h.moves_of_stock rfl rfl rfl rfl (fun p => ?_) fun p => ?_ <;> rw [set_push] <;> split_ifs
  · exact hs ▸ List.nil_sublist _
  · exact List.Sublist.refl _
  · exact hr ▸ List.nil_sublist _
  · exact List.Sublist.refl _

/-- A set of pools is made. -/
theorem setUp_outcome (h : Books t.store L t.inHand) (slots records : Pool.Config) :
    Outcome W t written L (t.answer (.setUp n slots records)) := by
  set set : PoolSet := { slots := .ofConfig slots, records := .ofConfig records } with hset
  have hm : Moves (fun _ => True) W t.store L t.inHand
      { t.store with sets := t.store.sets.push set } := push_set_moves h rfl rfl
  have hanswer : t.answer (.setUp n slots records) = (.done, { t with
      store := (t.sets.get? n).elim { t.store with sets := t.store.sets.push set }
        (Store.letGo { t.store with sets := t.store.sets.push set })
      sets := t.sets.insert n t.store.sets.size }) := rfl
  rw [hanswer]
  cases t.sets.get? n with
  | none => exact Outcome.of_all hm rfl rfl
  | some p => exact Outcome.of_all (hm.trans (hm.books.letGo_moves p)) rfl rfl

/-- A set of pools is let go of. -/
theorem dropSet_outcome (h : Books t.store L t.inHand) :
    Outcome W t written L (t.answer (.dropSet n)) := by
  cases hp : t.sets.get? n with
  | none =>
    exact unknown_outcome h (answer_unknown (fails hp) rfl rfl)
  | some p =>
    have hanswer : t.answer (.dropSet n) = (.flag true,
        { t with store := t.store.letGo p, sets := t.sets.erase n }) :=
      answer_attribute (performs hp rfl)
    rw [hanswer]
    exact Outcome.of_all (h.letGo_moves p) rfl rfl

/-- The windows of a set of pools end, and no slot or record moves but out of its pool. -/
theorem tickSet_moves (h : Books s L H) (p : SetId) :
    ∃ us s', tickSet p s = .ok us s' ∧ Moves P W s L H s' := by
  have hm := h.moves_of_modifySet (P := P) (W := W) p
    (f := fun q => { q with
      slots := (s.set p).slots.tick.2.2
      records := (s.set p).records.tick.2.2 })
    (Pool.tick_stored _) (Pool.tick_stored _)
  exact ⟨_, _, rfl, hm.trans (hm.books.moves_of_quiet (Quiet.report _ _))⟩

/-- The windows of a set of pools end by command. -/
theorem tick_outcome (h : Books t.store L t.inHand) :
    Outcome W t written L (t.answer (.tick n)) := by
  cases hp : t.sets.get? n with
  | none =>
    exact unknown_outcome h (answer_unknown (fails hp) rfl rfl)
  | some p =>
    obtain ⟨us, s', hrun, hm⟩ := tickSet_moves (P := fun _ => True) (W := W) h p
    have hanswer : t.answer (.tick n) = (.updates us, { t with store := s' }) :=
      answer_attribute (performs hp (by rw [after_ok hrun]))
    rw [hanswer]
    exact Outcome.of_all hm rfl rfl

/-! ### Attributes -/

/-- An attribute is made. -/
theorem create_outcome (h : Books t.store L t.inHand) (handle : String) (d : Definition) :
    Outcome W t written L (t.answer (.create n handle d)) := by
  cases hp : t.sets.get? n with
  | none =>
    exact unknown_outcome h (answer_unknown (fails hp) rfl rfl)
  | some p =>
    obtain ⟨i, s', hrun, hm, -⟩ := h.createAttribute_moves (P := fun _ => True) (W := W) p d
    have hanswer : t.answer (.create n handle d) = nameNew handle i { t with store := s' } :=
      answer_attribute (performs hp (by rw [after_ok hrun]))
    rw [hanswer]
    have hdone : Outcome W t written L (.done, { t with store := s' }) :=
      Outcome.of_all hm rfl rfl
    exact hdone.handles _ rfl

/-- A copy is made in a slot that nobody holds on to. -/
theorem copyAttribute_moves (h : Books s L H) (p : SetId) (i : SlotId) :
    ∃ j s', copyAttribute p i s = .ok j s' ∧ Moves P W s L H s' := by
  cases hd : (s.slot i).definition with
  | none =>
    exact ⟨none, s, by simp [copyAttribute, hd], Moves.refl h⟩
  | some d =>
    obtain ⟨j, s₁, hrun, hm, honly, hslot, hfresh⟩ :=
      h.createAttribute_moves (P := P) (W := W) p d
    refine ⟨some j, ?_, ?hrun, ?hmoves⟩
    case hrun =>
      simp only [copyAttribute, Action.bind_apply, Action.get_apply, hd, hrun]
      rfl
    case hmoves =>
      -- the new slot is nobody's yet, so writing it is nobody's matter
      refine hm.trans ((hm.books.modifySlot_moves (W := (· = j)) (i := j) ?hwrites rfl).mono
        (fun _ hr => hr) fun r _ k hk hkj => ?hapart)
      case hwrites =>
        rw [hslot]
        cases (s.slot i).value <;>
          exact ⟨rfl, rfl, rfl, rfl, fun hi => absurd hi Bool.false_ne_true⟩
      case hapart =>
        rw [honly.record] at hk
        exact absurd (Multiset.mem_add.2 (Or.inl (Multiset.mem_of_le (held_le_holdings s r) hk)))
          (hkj ▸ hfresh)

/-- An attribute is copied. -/
theorem copy_outcome (h : Books t.store L t.inHand) (handle source : String) :
    Outcome W t written L (t.answer (.copy n handle source)) := by
  cases hp : t.sets.get? n with
  | none =>
    exact unknown_outcome h (answer_unknown (fails hp) rfl rfl)
  | some p =>
    cases hi : t.slot? source with
    | none =>
        exact unknown_outcome h (answer_unknown (performs hp (fails hi)) rfl rfl)
    | some i =>
      obtain ⟨j, s', hrun, hm⟩ := copyAttribute_moves (P := fun _ => True) (W := W) h p i
      cases j with
      | none =>
        have hanswer : t.answer (.copy n handle source) = (.free, { t with store := s' }) :=
          answer_attribute (performs hp (performs hi (by rw [after_ok hrun])))
        rw [hanswer]
        exact Outcome.of_all hm rfl rfl
      | some j =>
        have hanswer : t.answer (.copy n handle source) =
            nameNew handle j { t with store := s' } :=
          answer_attribute (performs hp (performs hi (by rw [after_ok hrun])))
        -- the copy goes by the handle from now on
        rw [hanswer]
        have hdone : Outcome W t written L (.done, { t with store := s' }) :=
          Outcome.of_all hm rfl rfl
        exact hdone.handles _ rfl

/-- A value is written through a handle. -/
theorem setValue_outcome (h : Books t.store L t.inHand) (handle : String) (v : Option Value)
    (hW : ∀ i, t.Touches i (.setValue handle v) → W i) :
    Outcome W t written L (t.answer (.setValue handle v)) := by
  cases hi : t.slot? handle with
  | none =>
    exact unknown_outcome h (answer_unknown (fails hi) rfl rfl)
  | some i =>
    cases v with
    | none =>
      have hanswer : t.answer (.setValue handle none) = showSlot i t :=
        answer_attribute (performs hi rfl)
      rw [hanswer]
      exact Outcome.of_store h rfl rfl rfl
    | some v =>
      have hanswer : t.answer (.setValue handle (some v)) =
          showSlot i { t with store := t.store.modifySlot i (Slot.setValue v) } :=
        answer_attribute (performs hi rfl)
      rw [hanswer]
      exact Outcome.of_all (h.modifySlot_moves (Slot.setValue_writes v _) (hW i hi)) rfl rfl

/-- A deferred value is written through a handle. -/
theorem setDeferred_outcome (h : Books t.store L t.inHand) (handle : String)
    (hW : ∀ i, t.Touches i (.setDeferred handle n) → W i) :
    Outcome W t written L (t.answer (.setDeferred handle n)) := by
  cases hi : t.slot? handle with
  | none =>
    exact unknown_outcome h (answer_unknown (fails hi) rfl rfl)
  | some i =>
    cases hc : t.cells.get? n with
    | none =>
      exact unknown_outcome h (answer_unknown (performs hi (fails hc)) rfl rfl)
    | some c =>
      have hanswer : t.answer (.setDeferred handle n) =
          showSlot i { t with store := t.store.modifySlot i (Slot.setDeferred c) } :=
        answer_attribute (performs hi (performs hc rfl))
      rw [hanswer]
      exact Outcome.of_all (h.modifySlot_moves (Slot.setDeferred_writes c _) (hW i hi)) rfl rfl

/-- An attribute is frozen through a handle. -/
theorem freezeAttribute_outcome (h : Books t.store L t.inHand) (hN : Named W t.store)
    (handle : String) (hW : ∀ i, t.Touches i (.freezeAttribute handle) → W i)
    (hL : t.entry L (.freezeAttribute handle) = some L') :
    Outcome W t written L' (t.answer (.freezeAttribute handle)) := by
  cases hi : t.slot? handle with
  | none =>
    simp only [entry, hi, Option.elim_none, Option.some.injEq] at hL
    exact unknown_outcome (hL ▸ h) (answer_unknown (fails hi) rfl rfl)
  | some i =>
    simp only [entry, hi, Option.elim_some] at hL
    have hanswer : t.answer (.freezeAttribute handle) =
        t.after (Trace.freezeAttribute i) fun _ => showSlot i :=
      answer_attribute (performs hi rfl)
    rw [hanswer]
    exact Outcome.of_runs h (freezeAttribute_runs hL h.counted hN (hW i hi)) (fun _ _ => rfl)
      fun _ _ => rfl

/-- A reference is taken by hand. -/
theorem addReference_outcome (h : Books t.store L t.inHand) (handle : String)
    (hW : ∀ i, t.Touches i (.addReference handle) → W i)
    (hL : t.entry L (.addReference handle) = some L') :
    Outcome W t written L' (t.answer (.addReference handle)) := by
  cases hi : t.slot? handle with
  | none =>
    simp only [entry, hi, Option.elim_none, Option.some.injEq] at hL
    exact unknown_outcome (hL ▸ h) (answer_unknown (fails hi) rfl rfl)
  | some i =>
    simp only [entry, hi, Option.elim_some, Ledger.added] at hL
    split_ifs at hL with hb
    rw [Option.some.injEq] at hL
    obtain ⟨s', hrun, hm⟩ := h.addReference_moves (P := fun _ => True) (W := W)
      (Option.isSome_iff_ne_none.1 hb) (hW i hi)
    have hanswer : t.answer (.addReference handle) =
        (.count (s'.slot i).references, { t with store := s' }) :=
      answer_attribute (performs hi (by rw [after_ok hrun]))
    rw [hanswer]
    exact Outcome.of_all (hL ▸ hm) rfl rfl

/-- A reference is given up by hand. -/
theorem removeReference_outcome (h : Books t.store L t.inHand) (handle : String)
    (hL : t.entry L (.removeReference handle) = some L') :
    Outcome W t written L' (t.answer (.removeReference handle)) := by
  cases hi : t.slot? handle with
  | none =>
    simp only [entry, hi, Option.elim_none, Option.some.injEq] at hL
    exact unknown_outcome (hL ▸ h) (answer_unknown (fails hi) rfl rfl)
  | some i =>
    simp only [entry, hi, Option.elim_some, Ledger.removed] at hL
    split_ifs at hL with hmem
    rw [Option.some.injEq] at hL
    rw [← Multiset.cons_erase hmem, hL] at h
    obtain ⟨last, s', hrun, hm⟩ := h.removeReference_moves (P := fun _ => True) (W := W)
    have hanswer : t.answer (.removeReference handle) =
        (.unreferenced last (s'.viewSlot i), { t with store := s' }) :=
      answer_attribute (performs hi (by rw [after_ok hrun]))
    rw [hanswer]
    exact Outcome.of_all hm rfl rfl

/-- A handle is forgotten. -/
theorem forget_outcome (h : Books t.store L t.inHand) (handle : String) :
    Outcome W t written L (t.answer (.forget handle)) := by
  have hdone : Outcome W t written L (.done, t) := Outcome.of_store h rfl rfl rfl
  exact hdone.handles _ rfl

/-! ### Collections -/

/-- A collection is opened with a blank record; the collection that had the name
is closed. -/
theorem openCollection_answer {p : SetId} (cn : String) (h : Books t.store L t.inHand)
    (hp : t.sets.get? n = some p) :
    ∃ r s' name b, t.answer (.openCollection n cn) = (.opened name b,
        { t with store := s', collections := t.collections.insert cn ⟨p, r⟩ }) ∧
      (s'.record r).Blank ∧ ∀ written, Outcome W t written L (t.answer (.openCollection n cn)) := by
  obtain ⟨r, s₁, hopen, hm₁, hblank⟩ := h.openCollection_moves (W := W) p
  -- the new record was in no hand before
  have hr : r ∉ t.inHand := (Multiset.nodup_cons.1 hm₁.books.housed.once).1
  have hin : ({ t with collections := t.collections.insert cn ⟨p, r⟩ } : Tracer).inHand +
      (t.collections.get? cn).elim 0 (fun c => {c.record}) = t.inHand + {r} :=
    inHand_insertCollection t cn ⟨p, r⟩
  cases hold : t.collections.get? cn with
  | none =>
    have hanswer : t.answer (.openCollection n cn) =
        (.opened (s₁.record r).displayName ((s₁.record r).attributeCount == 0),
          { t with store := s₁, collections := t.collections.insert cn ⟨p, r⟩ }) :=
      answer_record rfl (performs hp (by simp only [after, act, hopen, hold]; rfl))
    rw [hold, Option.elim_none, add_zero, add_comm, Multiset.singleton_add] at hin
    refine ⟨r, s₁, _, _, hanswer, hblank, fun written => ?_⟩
    rw [hanswer]
    exact Outcome.of_moves hm₁ hin.le (fun q hq _ _ hqr => hr (hqr ▸ hq)) rfl
  | some o =>
    -- the collection that had the name before is closed, and its record leaves the hand
    have hrest := inHand_eraseCollection hold
    set X := ({ t with collections := t.collections.erase cn } : Tracer).inHand
    have hb₁ := hm₁.books
    rw [hrest, Multiset.cons_swap] at hb₁
    obtain ⟨s₂, hclose, hm₂⟩ := hb₁.close_moves (W := W)
    have hanswer : t.answer (.openCollection n cn) =
        (.opened (s₁.record r).displayName ((s₁.record r).attributeCount == 0),
          { t with store := s₂, collections := t.collections.insert cn ⟨p, r⟩ }) :=
      answer_record rfl (performs hp (by
        simp only [after, act, hopen, hold, Option.elim_some, hclose]))
    -- which is another one than the new record
    have hro : r ≠ o.record := fun hro => hr (hro ▸ mem_inHand_of_collection hold)
    refine ⟨r, s₂, _, _, hanswer, hm₂.spares.record r hro ▸ hblank, fun written => ?_⟩
    rw [hanswer]
    have hin' : ({ t with collections := t.collections.insert cn ⟨p, r⟩ } : Tracer).inHand =
        r ::ₘ X := by
      rw [hold, Option.elim_some] at hin
      refine add_right_cancel (b := ({o.record} : Multiset RecordId)) (hin.trans ?_)
      rw [hrest, ← Multiset.singleton_add, ← Multiset.singleton_add]
      abel
    refine Outcome.of_moves (P := fun q => q ≠ r ∧ q ≠ o.record)
      ((hm₁.only fun q hq => hq.1).trans (hm₂.only fun q hq => hq.2)) hin'.le
      (fun q hq hq' _ => ⟨fun hqr => hr (hqr ▸ hq), fun hqo => ?_⟩) rfl
    rw [show ({ t with store := s₂, collections := t.collections.insert cn ⟨p, r⟩ } :
        Tracer).inHand = r ::ₘ X from hin', hqo] at hq'
    exact (Multiset.nodup_cons.1 hb₁.housed.once).1 hq'

/-- A collection is opened. -/
theorem openCollection_outcome (h : Books t.store L t.inHand) :
    Outcome W t written L (t.answer (.openCollection n cn)) := by
  cases hp : t.sets.get? n with
  | none => exact unknown_outcome h (answer_unknown rfl (fails hp) rfl)
  | some p =>
    obtain ⟨-, -, -, -, -, -, houtcome⟩ := openCollection_answer cn h hp
    exact houtcome written

/-- A value is put into a collection. -/
theorem put_outcome (h : Books t.store L t.inHand) (d : Definition) (v : Value) :
    Outcome W t (t.target? (.put cn d v)) L (t.answer (.put cn d v)) := by
  cases hc : t.collections.get? cn with
  | none =>
    exact unknown_outcome h (answer_unknown rfl (fails hc) rfl)
  | some c =>
    obtain ⟨i, s', hrun, hm, -⟩ := h.setValue_moves (W := W) (mem_inHand_of_collection hc) d v
    have hanswer : t.answer (.put cn d v) =
        (.flag (!((t.store.record c.record).attributes d.category).contains d.name),
          { t with store := s' }) :=
      answer_record rfl (performs hc (by rw [after_ok hrun]))
    rw [hanswer]
    refine Outcome.of_moves hm le_rfl (fun r _ _ hw hr => ?_) rfl
    exact hw (by simp [target?, hc, hr])

/-- A deferred value is put into a collection. -/
theorem putDeferred_outcome (h : Books t.store L t.inHand) (d : Definition) :
    Outcome W t (t.target? (.putDeferred cn d n)) L (t.answer (.putDeferred cn d n)) := by
  cases hc : t.collections.get? cn with
  | none =>
    exact unknown_outcome h (answer_unknown rfl (fails hc) rfl)
  | some c =>
    cases hcell : t.cells.get? n with
    | none =>
      exact unknown_outcome h (answer_unknown rfl (performs hc (fails hcell)) rfl)
    | some cell =>
      obtain ⟨i, s', hrun, hm, -⟩ :=
        h.setDeferred_moves (W := W) (mem_inHand_of_collection hc) d cell
      have hanswer : t.answer (.putDeferred cn d n) =
          (.flag (!((t.store.record c.record).attributes d.category).contains d.name),
            { t with store := s' }) :=
        answer_record rfl (performs hc (performs hcell (by rw [after_ok hrun])))
      rw [hanswer]
      refine Outcome.of_moves hm le_rfl (fun r _ _ hw hr => ?_) rfl
      exact hw (by simp [target?, hc, hr])

/-- An attribute is put into a collection. -/
theorem putAttribute_outcome (h : Books t.store L t.inHand) (handle : String)
    (hW : ∀ i, t.Touches i (.putAttribute cn handle) → W i) :
    Outcome W t (t.target? (.putAttribute cn handle)) L (t.answer (.putAttribute cn handle)) := by
  cases hc : t.collections.get? cn with
  | none =>
    exact unknown_outcome h (answer_unknown rfl (fails hc) rfl)
  | some c =>
    cases hi : t.slot? handle with
    | none =>
      exact unknown_outcome h (answer_unknown rfl (performs hc (fails hi)) rfl)
    | some i =>
      cases hd : (t.store.slot i).definition with
      | none =>
        -- a handle of an empty slot puts nothing in
        have hrun : c.install i t.store = .ok false t.store := by
          simp [Collection.install, hd]
        have hanswer : t.answer (.putAttribute cn handle) = (.flag false, t) :=
          answer_record rfl (performs hc (performs hi (by rw [after_ok hrun])))
        rw [hanswer]
        exact Outcome.of_store h rfl rfl rfl
      | some d =>
        obtain ⟨s', hrun, hm, -⟩ :=
          h.install_moves (W := W) (mem_inHand_of_collection hc) hd (hW i hi)
        have hanswer : t.answer (.putAttribute cn handle) =
            (.flag (!((t.store.record c.record).attributes d.category).contains d.name),
              { t with store := s' }) :=
          answer_record rfl (performs hc (performs hi (by rw [after_ok hrun])))
        rw [hanswer]
        refine Outcome.of_moves hm le_rfl (fun r _ _ hw hr => ?_) rfl
        exact hw (by simp [target?, hc, hr])

/-- Attributes are taken out of a collection. -/
theorem removeMany_outcome (h : Books t.store L t.inHand) (handles : List String) :
    Outcome W t (t.target? (.removeMany cn handles)) L (t.answer (.removeMany cn handles)) := by
  cases hc : t.collections.get? cn with
  | none =>
    exact unknown_outcome h (answer_unknown rfl (fails hc) rfl)
  | some c =>
    cases hs : handles.mapM t.slot? with
    | none =>
      exact unknown_outcome h (answer_unknown rfl (performs hc (fails hs)) rfl)
    | some slots =>
      obtain ⟨m, s', hrun, hm, -⟩ :=
        h.removeMany_moves (W := W) (mem_inHand_of_collection hc) slots
      have hanswer : t.answer (.removeMany cn handles) = (.count m, { t with store := s' }) :=
        answer_record rfl (performs hc (performs hs (by rw [after_ok hrun])))
      rw [hanswer]
      refine Outcome.of_moves hm le_rfl (fun r _ _ hw hr => ?_) rfl
      exact hw (by simp [target?, hc, hr])

/-- An attribute of a collection is looked up. -/
theorem get_outcome (h : Books t.store L t.inHand) (k : Category) (name : String)
    (handle : Option String) : Outcome W t written L (t.answer (.get cn k name handle)) := by
  cases hc : t.collections.get? cn with
  | none =>
    exact unknown_outcome h (answer_unknown rfl (fails hc) rfl)
  | some c =>
    cases hi : ((t.store.record c.record).attributes k).get? name with
    | none =>
      have hanswer : t.answer (.get cn k name handle) = (.attribute none, t) :=
        answer_record rfl (performs hc (by rw [hi]))
      rw [hanswer]
      exact Outcome.of_store h rfl rfl rfl
    | some i =>
      have hanswer : t.answer (.get cn k name handle) =
          showSlot i (handle.elim t fun handle => t.name handle i) :=
        answer_record rfl (performs hc (by rw [hi]))
      rw [hanswer]
      cases handle with
      | none => exact Outcome.of_store h rfl rfl rfl
      | some handle =>
        have hdone : Outcome W t written L (.done, t) := Outcome.of_store h rfl rfl rfl
        exact hdone.handles _ rfl

/-- The priority of a collection is written. -/
theorem prioritize_outcome (h : Books t.store L t.inHand) (x : Numeric.Binary32) :
    Outcome W t (t.target? (.prioritize cn x)) L (t.answer (.prioritize cn x)) := by
  cases hc : t.collections.get? cn with
  | none =>
    exact unknown_outcome h (answer_unknown rfl (fails hc) rfl)
  | some c =>
    have hanswer : t.answer (.prioritize cn x) = (.single x, { t with
        store := t.store.modifyRecord c.record fun r => { r with priority := x } }) :=
      answer_record rfl (performs hc rfl)
    rw [hanswer]
    refine Outcome.of_moves (h.touchRecord_moves (mem_inHand_of_collection hc) rfl fun k => ?_)
      le_rfl (fun r _ _ hw hr => ?_) rfl
    · cases k <;> rfl
    · exact hw (by simp [target?, hc, hr])

/-- A collection is frozen. -/
theorem freeze_outcome (h : Books t.store L t.inHand) (hN : Named W t.store)
    (hW : ∀ i, t.Touches i (.freeze cn) → W i) (hL : t.entry L (.freeze cn) = some L') :
    Outcome W t written L' (t.answer (.freeze cn)) := by
  cases hc : t.collections.get? cn with
  | none =>
    simp only [entry, hc, Option.elim_none, Option.some.injEq] at hL
    exact unknown_outcome (hL ▸ h) (answer_unknown rfl (fails hc) rfl)
  | some c =>
    simp only [entry, hc, Option.elim_some] at hL
    have hruns : Runs t.store.holdings W t.store L' c.freeze :=
      closed_runs hL h.counted hN fun i hi => hW i ⟨c, hc, hi⟩
    have hanswer : t.answer (.freeze cn) = t.after c.freeze fun _ t => (.done, t) :=
      answer_record rfl (performs hc rfl)
    rw [hanswer]
    exact Outcome.of_runs h hruns (fun _ _ => rfl) fun _ _ => rfl

/-- A collection is given up. -/
theorem dropCollection_outcome (h : Books t.store L t.inHand) :
    Outcome W t written L (t.answer (.dropCollection cn)) := by
  cases hc : t.collections.get? cn with
  | none =>
    exact unknown_outcome h (answer_unknown rfl (fails hc) rfl)
  | some c =>
    rw [inHand_eraseCollection hc] at h
    obtain ⟨s', hrun, hm⟩ := h.close_moves (W := W)
    have hanswer : t.answer (.dropCollection cn) =
        (.done, { t with store := s', collections := t.collections.erase cn }) :=
      answer_record rfl (performs hc (by simp only [after, act, hrun]))
    rw [hanswer]
    exact Outcome.of_moves hm le_rfl
      (fun r _ hr' _ hrc => (Multiset.nodup_cons.1 h.housed.once).1 (hrc ▸ hr')) rfl

/-- A name that is given a record lets go of what it stood for. -/
theorem inHand_insertRecord_le (t : Tracer) (n : String) (r : RecordId) :
    ({ t with records := t.records.insert n r } : Tracer).inHand ≤ r ::ₘ t.inHand := by
  rw [← Multiset.singleton_add, add_comm, ← inHand_insertRecord]
  exact Multiset.le_add_right _ _

/-- A collection is turned into a record. -/
theorem intoRecord_outcome (h : Books t.store L t.inHand) (hN : Named W t.store)
    (hW : ∀ i, t.Touches i (.intoRecord cn n) → W i)
    (hL : t.entry L (.intoRecord cn n) = some L') :
    Outcome W t written L' (t.answer (.intoRecord cn n)) := by
  cases hc : t.collections.get? cn with
  | none =>
    simp only [entry, hc, Option.elim_none, Option.some.injEq] at hL
    exact unknown_outcome (hL ▸ h) (answer_unknown rfl (fails hc) rfl)
  | some c =>
    simp only [entry, hc, Option.elim_some] at hL
    rw [inHand_eraseCollection hc] at h
    -- the freeze writes what the record holds, and those are attributes that the command
    -- touches
    have hwritten : ∀ i, W i ∨ i ∈ (t.store.record c.record).held → W i :=
      fun i hi => hi.elim id fun hi => hW i ⟨c, hc, hi⟩
    set t₁ : Tracer := { t with collections := t.collections.erase cn } with ht₁
    have hanswer : t.answer (.intoRecord cn n) = t₁.after c.intoRecord fun r t =>
        (.text (t.store.record r).displayName, { t with records := t.records.insert n r }) :=
      answer_record rfl (performs hc rfl)
    rw [hanswer]
    -- it ends with a record in hand, or is broken off with the record released
    rcases h.intoRecord_moves (P := fun _ => True) hL hN with
      ⟨s₁, -, hrun, -, hm⟩ | ⟨s', hrun, hm⟩
    · rw [after_ok (t := t₁) hrun]
      refine Outcome.of_moves (hm.mono (fun _ hr => hr) fun _ _ i _ hi => hwritten i hi) ?_
        (fun _ _ _ _ => trivial) rfl
      exact inHand_insertRecord_le { t₁ with store := s₁.letGo c.pools } n c.record
    · rw [after_error (t := t₁) hrun]
      exact Outcome.of_moves (hm.mono (fun _ hr => hr) fun _ _ i _ hi => hwritten i hi) le_rfl
        (fun r _ hr' _ hrc => (Multiset.nodup_cons.1 h.housed.once).1 (hrc ▸ hr')) rfl

/-! ### Records -/

/-- A record is leased. -/
theorem lease_outcome (h : Books t.store L t.inHand) (rn : String) :
    Outcome W t written L (t.answer (.lease n rn)) := by
  cases hp : t.sets.get? n with
  | none =>
    exact unknown_outcome h (answer_unknown rfl (fails hp) rfl)
  | some p =>
    obtain ⟨r, s', hrun, hm, -⟩ := leaseRecord_moves (W := W) h p
    have hanswer : t.answer (.lease n rn) = (.record (s'.viewRecord r),
        { t with store := s', records := t.records.insert rn r }) :=
      answer_record rfl (performs hp (by rw [after_ok hrun]))
    rw [hanswer]
    exact Outcome.of_moves hm (inHand_insertRecord_le t rn r)
      (fun q hq _ _ hqr => (Multiset.nodup_cons.1 hm.books.housed.once).1 (hqr ▸ hq)) rfl

/-- The priority of a record is written. -/
theorem prioritizeRecord_outcome (h : Books t.store L t.inHand) (x : Numeric.Binary32) :
    Outcome W t (t.target? (.prioritizeRecord n x)) L (t.answer (.prioritizeRecord n x)) := by
  cases hr : t.records.get? n with
  | none =>
    exact unknown_outcome h (answer_unknown rfl (fails hr) rfl)
  | some r =>
    have hanswer : t.answer (.prioritizeRecord n x) = (.single x, { t with
        store := t.store.modifyRecord r fun record => { record with priority := x } }) :=
      answer_record rfl (performs hr rfl)
    rw [hanswer]
    refine Outcome.of_moves (h.touchRecord_moves (mem_inHand_of_record hr) rfl fun k => ?_)
      le_rfl (fun q _ _ hw hq => ?_) rfl
    · cases k <;> rfl
    · exact hw (by simp [target?, hr, hq])

/-- A record is released. -/
theorem release_outcome (h : Books t.store L t.inHand) :
    Outcome W t written L (t.answer (.release n)) := by
  cases hr : t.records.get? n with
  | none =>
    exact unknown_outcome h (answer_unknown rfl (fails hr) rfl)
  | some r =>
    rw [inHand_eraseRecord hr] at h
    obtain ⟨s', hrun, hm, -⟩ := releaseRecord_moves (W := W) h
    have hanswer : t.answer (.release n) =
        (.done, { t with store := s', records := t.records.erase n }) :=
      answer_record rfl (performs hr (by simp only [after, act, hrun]))
    rw [hanswer]
    exact Outcome.of_moves hm le_rfl
      (fun q _ hq' _ hqr => (Multiset.nodup_cons.1 h.housed.once).1 (hqr ▸ hq')) rfl

/-- A record is given up without release. -/
theorem dropRecord_outcome (h : Books t.store L t.inHand) :
    Outcome W t written L (t.answer (.dropRecord n)) := by
  cases hr : t.records.get? n with
  | none =>
    exact unknown_outcome h (answer_unknown rfl (fails (by rw [hr]; rfl)) rfl)
  | some r =>
    have hanswer : t.answer (.dropRecord n) = (.done, { t with records := t.records.erase n }) :=
      answer_record rfl (performs (a := ()) (by rw [hr]; rfl) rfl)
    rw [hanswer]
    refine Outcome.of_moves (P := fun _ => True) (Moves.refl h) ?_ (fun _ _ _ _ => trivial) rfl
    rw [inHand_eraseRecord hr]
    exact Multiset.le_cons_self _ _

end Tracer
end Telemetry
