/-
# Handles of released attributes

A handle goes on to name a slot after its attribute was released.  As long as
the slot is free nothing can be done to any attribute through the handle, and
the slot is free until a command makes an attribute from a pool that stores it
(`Reachable.stale`).  From then on the handle is one of the new attribute
(`alias_of_replaced`).
-/

import Telemetry.Proofs.Reachable
import Telemetry.Proofs.Spent

namespace Telemetry

open Trace Store

namespace Tracer

variable {P : SetId → Prop} {Q : Store → Prop} {i : SlotId} {t t' : Tracer} {c : Command} {α : Type}

/-- Runs that keep to the rules, in which no command takes slots from a pool that
stores the slot. -/
inductive Unlent (i : SlotId) (t : Tracer) (L : Ledger) : Tracer → Ledger → Prop
  | refl : Unlent i t L t L
  | step {t' : Tracer} {L' L'' : Ledger} {c : Command} : Unlent i t L t' L' →
    t'.ledgerAfter L' c = some L'' →
    (∀ p, t'.source? c = some p → i ∉ (t'.store.set p).slots.stored) →
    Unlent i t L (t'.step c).2 L''

namespace Unlent

variable {L L' : Ledger}

/-- The end of such a run is reached by the rules. -/
theorem reachable (h : Unlent i t L t' L') (ht : Reachable t L) : Reachable t' L' := by
  induction h with
  | refl => exact ht
  | step _ hL _ ih => exact ih.step hL

/-- A slot that is not lent stays free. -/
theorem free (h : Unlent i t L t' L') (hi : i < t.store.slots.size)
    (hfree : (t.store.slot i).definition = none) :
    i < t'.store.slots.size ∧ (t'.store.slot i).definition = none := by
  induction h with
  | refl => exact ⟨hi, hfree⟩
  | @step t' L' L'' c _ _ hp ih =>
    have hspent : Spent (fun p => t'.source? c = some p) i t'.store := ⟨ih.1, ih.2, hp⟩
    have hafter := spent_step hspent fun _ h => h
    exact ⟨hafter.there, hafter.free⟩

end Unlent

/-! ### Inert handles -/

/-- The commands that write an attribute through a handle. -/
def Command.Writes (n : String) : Command → Prop
  | .setValue h _ | .setDeferred h _ | .freezeAttribute h => h = n
  | _ => False

/-- What is done through the handle comes to nothing: it shows no definition, it
takes nothing out of a collection and puts nothing in, and a write through it
changes no record and no attribute that one holds. -/
structure Inert (t : Tracer) (n : String) : Prop where
  look : ∃ v, (t.step (.look n)).1 = .attribute (some v) ∧ v.definition = none
  removeMany : ∀ cn ns, t.step (.removeMany cn ns) =
    t.step (.removeMany cn (ns.filter fun m => t.slot? m ≠ t.slot? n))
  install : ∀ cn c, t.collections.get? cn = some c →
    t.step (.putAttribute cn n) = (.flag false, t.cleared)
  /-- A deferred value that is computed then must not work on attributes itself. -/
  writes : ∀ c, c.Writes n →
    (∀ i cell, t.slot? n = some i → (t.store.slot i).deferred = some cell →
      (t.store.cell cell).effects = []) →
    ∀ r, (t.step c).2.store.record r = t.store.record r ∧
      ∀ j ∈ (t.store.record r).held, (t.step c).2.store.slot j = t.store.slot j

/-- Items with an unwanted result may be filtered out before or after. -/
theorem mapM_filter {β : Type} [DecidableEq β] (f : α → Option β) (b : β) (xs : List α) :
    (xs.filter fun x => f x ≠ some b).mapM f = (xs.mapM f).map (·.filter (· ≠ b)) := by
  induction xs with
  | nil => rfl
  | cons x xs ih =>
    rw [List.filter_cons, List.mapM_cons]
    cases hx : f x with
    | none => simp [hx]
    | some y =>
      by_cases hy : y = b
      · subst hy
        rw [if_neg (by simp), ih]
        cases xs.mapM f <;> simp
      · rw [if_pos (by simpa using hy), List.mapM_cons, hx, ih]
        cases xs.mapM f <;> simp [hy]

/-- Taking out a slot without attribute takes nothing out. -/
theorem removeMany_filter {s : Store} (h : (s.slot i).definition = none) (c : Collection)
    (slots : List SlotId) : c.removeMany (slots.filter (· ≠ i)) s = c.removeMany slots s := by
  have hbound : (slots.filter (· ≠ i)).filterMap
      (fun j => (s.slot j).definition.map fun d => (j, d)) =
      slots.filterMap fun j => (s.slot j).definition.map fun d => (j, d) := by
    rw [List.filterMap_filter]
    refine congrArg (List.filterMap · slots) (funext fun j => ?_)
    by_cases hj : j = i
    · subst hj
      simp [h]
    · simp [hj]
  simp only [Collection.removeMany, Action.bind_apply, Action.get_apply, hbound]

/-- Putting in a slot without attribute puts nothing in. -/
theorem install_free {s : Store} (h : (s.slot i).definition = none) (c : Collection) :
    c.install i s = .ok false s := by
  simp only [Collection.install, Action.bind_apply, Action.get_apply, h, Action.pure_apply]

/-- Nothing but this slot and deferred values differs, and the deferred value
that the slot has works on no attributes. -/
structure Beside (i : SlotId) (s s' : Store) : Prop where
  records : s'.records = s.records
  slots : ∀ j, j ≠ i → s'.slot j = s.slot j
  deferred : (s'.slot i).deferred = (s.slot i).deferred
  effects : ∀ cell, (s.slot i).deferred = some cell → (s'.cell cell).effects = []

namespace Beside

variable {s s₀ s' : Store}

/-- Writing the slot itself writes beside all others. -/
theorem modifySlot (h : Beside i s₀ s) {f : Slot → Slot} (hf : ∀ a, (f a).deferred = a.deferred) :
    Beside i s₀ (s.modifySlot i f) := by
  refine ⟨h.records, fun j hj => (slot_modifySlot_ne hj.symm f).trans (h.slots j hj), ?_, h.effects⟩
  rw [slot_modifySlot]
  split_ifs
  · exact (hf _).trans h.deferred
  · exact h.deferred

/-- Computing a value writes beside all slots. -/
theorem modifyCell (h : Beside i s₀ s) (c : CellId) {f : Cell → Cell}
    (hf : ∀ a, (f a).effects = a.effects) : Beside i s₀ (s.modifyCell c f) := by
  refine ⟨h.records, h.slots, h.deferred, fun cell hcell => ?_⟩
  rw [cell_modifyCell]
  split_ifs
  · exact (hf _).trans (h.effects cell hcell)
  · exact h.effects cell hcell

/-- The deferred value of the slot is computed. -/
theorem force_keeps {c : CellId} (hc : (s₀.slot i).deferred = some c) :
    (force c).Keeps (Beside i s₀) := by
  have heffects : ∀ s, Beside i s₀ s → (s.cell c).effects = [] := fun s h => h.effects c hc
  refine Action.keeps_get fun s _ => Action.keeps_get fun s _ => ?_
  cases (s.cell c).progress with
  | finished v => exact Action.keeps_pure v
  | running => exact Action.keeps_throw _
  | pending =>
    refine Action.keeps_bind (Action.keeps_modify fun _ h => h.modifyCell c fun _ => rfl) fun _ =>
      Action.keeps_get fun s h => ?_
    rw [heffects s h]
    exact Action.keeps_bind (Action.keeps_undoing (Action.keeps_pure ()) fun _ h =>
      h.modifyCell c fun _ => rfl) fun _ => Action.keeps_get fun _ _ =>
        Action.keeps_bind (Action.keeps_modify fun _ h => h.modifyCell c fun _ => rfl) fun _ =>
          Action.keeps_pure _

/-- Freezing the attribute in the slot touches no other slot. -/
theorem freeze_keeps : (freezeAttribute i).Keeps (Beside i s₀) := by
  have hwrite : ∀ v : Option Value, (modify fun s => s.modifySlot i fun slot =>
      if slot.immutable then slot
      else { slot with value := slot.value.or v, immutable := true } : Action Unit).Keeps
        (Beside i s₀) := fun v =>
    Action.keeps_modify fun _ h => h.modifySlot fun a => Slot.deferred_freeze v a
  refine Action.keeps_get fun s h => ?_
  dsimp only
  split_ifs
  · exact Action.keeps_pure ()
  · split
    · rename_i c _ hc
      exact Action.keeps_bind (force_keeps (h.deferred ▸ hc)) hwrite
    · exact Action.keeps_bind (Action.keeps_pure none) hwrite

end Beside

/-- No record holds a free slot. -/
theorem ne_of_mem_held {L : Ledger} {H : Multiset RecordId} {s : Store} (h : Books s L H)
    (hfree : (s.slot i).definition = none) {r : RecordId} {j : SlotId}
    (hj : j ∈ (s.record r).held) : j ≠ i := by
  rintro rfl
  obtain ⟨k, name, hget⟩ := Record.mem_held.1 hj
  obtain ⟨d, hd, -⟩ := h.labelled r k name j hget
  rw [hfree] at hd
  cases hd

variable {n : String}

/-- A handle of a slot without attribute may be left out of those that are to be taken out. -/
theorem answer_removeMany_filter (hfree : (t.store.slot i).definition = none) (cn : String)
    (ns : List String) : t.answer (.removeMany cn ns) =
      t.answer (.removeMany cn (ns.filter fun m => t.slot? m ≠ some i)) := by
  have hfilter := mapM_filter t.slot? i ns
  cases hc : t.collections.get? cn with
  | none => rw [answer_unknown rfl (fails hc) rfl, answer_unknown rfl (fails hc) rfl]
  | some c =>
    cases hs : ns.mapM t.slot? with
    | none =>
      rw [hs] at hfilter
      rw [answer_unknown rfl (performs hc (fails hs)) rfl,
        answer_unknown rfl (performs hc (fails hfilter)) rfl]
    | some slots =>
      rw [hs] at hfilter
      rw [answer_record rfl (performs hc (performs hs rfl)),
        answer_record rfl (performs hc (performs hfilter rfl))]
      simp only [after, act, removeMany_filter hfree]

/-- A write through the handle changes the slot at most. -/
theorem writes_beside (hn : t.slot? n = some i) (hc : c.Writes n)
    (heffects : ∀ cell, (t.store.slot i).deferred = some cell → (t.store.cell cell).effects = []) :
    (t.answer c).2.store.records = t.store.records ∧
      ∀ j, j ≠ i → (t.answer c).2.store.slot j = t.store.slot j := by
  cases c
  case setValue m v =>
    obtain rfl : m = n := hc
    rw [answer_attribute (performs hn rfl)]
    cases v with
    | none => exact ⟨rfl, fun _ _ => rfl⟩
    | some v => exact ⟨rfl, fun j hj => slot_modifySlot_ne hj.symm _⟩
  case setDeferred m cell =>
    obtain rfl : m = n := hc
    cases hcell : t.cells.get? cell with
    | none =>
      rw [answer_unknown (performs hn (fails hcell)) rfl rfl]
      exact ⟨rfl, fun _ _ => rfl⟩
    | some c =>
      rw [answer_attribute (performs hn (performs hcell rfl))]
      exact ⟨rfl, fun j hj => slot_modifySlot_ne hj.symm _⟩
  case freezeAttribute m =>
    obtain rfl : m = n := hc
    rw [answer_attribute (performs hn rfl)]
    -- the value that the freeze may compute does no deeds, so only cells change besides
    have hstart : Beside i t.store t.store := ⟨rfl, fun _ _ => rfl, rfl, heffects⟩
    have hend := after_keeps (k := fun _ => showSlot i) hstart Beside.freeze_keeps fun _ _ h => h
    exact ⟨hend.records, hend.slots⟩
  all_goals exact hc.elim

/-- **A handle of a free slot is inert.** -/
theorem inert_of_free {L : Ledger} (h : Reachable t L) (hn : t.slot? n = some i)
    (hfree : (t.store.slot i).definition = none) : t.Inert n := by
  constructor
  case look =>
    refine ⟨t.cleared.store.viewSlot i, ?_, hfree⟩
    rw [step_eq_answer, answer_attribute (performs hn rfl)]
    rfl
  case removeMany =>
    intro cn ns
    -- the handle is left out on both sides
    rw [step_eq_answer, step_eq_answer, answer_removeMany_filter (t := t.cleared) hfree, hn]
    rfl
  case install =>
    intro cn c hc
    have hanswer : t.cleared.answer (.putAttribute cn n) = (.flag false, t.cleared) :=
      answer_record rfl (performs hc (performs hn (by
        rw [after_ok (install_free (s := t.cleared.store) hfree c)])))
    rw [step_eq_answer, hanswer]
  case writes =>
    intro c hc heffects r
    -- a record in hand does not hold the slot, for what it holds has an attribute
    obtain ⟨hrecords, hslots⟩ := writes_beside (t := t.cleared) hn hc (heffects i · hn)
    rw [step_eq_answer]
    refine ⟨by rw [record, hrecords]; rfl, fun j hj => hslots j (ne_of_mem_held h.books hfree hj)⟩

/-- **A handle of a released attribute is inert until its slot is lent.**  Once
the slot is free, it is so after every run in which no command makes an
attribute from a pool that stores it, and then whatever is done through the
handle comes to nothing. -/
theorem Reachable.stale {L L' : Ledger} (h : Reachable t L) (hi : i < t.store.slots.size)
    (hfree : (t.store.slot i).definition = none) (hrun : Unlent i t L t' L')
    (hn : t'.slot? n = some i) : t'.Inert n :=
  inert_of_free (hrun.reachable h) hn (hrun.free hi hfree).2

/-- An attribute that goes by a handle and gives its place to another one. -/
def replaced : List Command :=
  [.setUp "p" .small .small, .openCollection "p" "c",
    .put "c" { name := "a", category := .user } (.text "x"), .get "c" .user "a" (some "h"),
    .put "c" { name := "a", category := .user } (.text "y")]

/-- The handle is inert, also after a write through it. -/
theorem stale_replaced : ∃ t L, ({} : Tracer).follow 0 replaced = some (t, L) ∧
    0 < t.store.slots.size ∧ (t.store.slot 0).definition = none ∧
    Unlent 0 t L (t.step (.setValue "h" (some (.text "z")))).2 L ∧
    (t.step (.setValue "h" (some (.text "z")))).2.slot? "h" = some 0 ∧
    (t.step (.setValue "h" (some (.text "z")))).2.Inert "h" := by
  refine ⟨_, _, rfl, by decide, rfl, Unlent.refl.step rfl nofun, rfl, ?_⟩
  exact (Reachable.start.follow replaced rfl).stale (by decide) rfl (Unlent.refl.step rfl nofun) rfl

/-- **A handle of a released attribute is one of the next attribute in its
slot.**  Another attribute of the collection is made in the slot that the
replaced one left; the handle shows it, writes it, and takes it out of the
collection. -/
theorem alias_of_replaced :
    let t := (({} : Tracer).run replaced).2
    let t' := (t.step (.put "c" { name := "b", category := .user } (.text "z"))).2
    t.slot? "h" = some 0 ∧ (t.store.slot 0).definition = none ∧ t'.slot? "h" = some 0 ∧
      (t'.store.slot 0).definition = some { name := "b", category := .user } ∧
      ((t'.store.record 0).attributes .user).get? "b" = some 0 ∧
      ((t'.step (.setValue "h" (some (.text "w")))).2.store.slot 0).value = some (.text "w") ∧
      (((t'.step (.removeMany "c" ["h"])).2.store.record 0).attributes .user).get? "b" = none :=
  ⟨rfl, rfl, rfl, rfl, rfl, rfl, by decide +kernel⟩

end Tracer
end Telemetry
