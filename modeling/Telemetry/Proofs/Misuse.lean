/-
# Misuse of handles

References may be taken and given up as one likes, attributes may be written and
frozen through handles that outlived them, and handles of free slots may be put
into collections.  None of this gets at what the pools store: `Store.Tidy` speaks
of definitions, homes and marks only, and the operations that are left to the
user change none of them (`Store.tidy_upheld`).

What one then finds of a stored slot, of a new attribute and of a reference that
is given up is `Tracer.run_contained`.
-/

import Telemetry.Proofs.Spent
import Telemetry.Proofs.Stale

namespace Telemetry

open Trace

namespace Store

open Telemetry.Action

variable {s s' : Store} {i : SlotId}

/-- **Whatever is done with handles, the pools stay tidy.** -/
theorem tidy_upheld : Upheld (fun _ => True) Tidy where
  stock h hslots hstock := h.of_stock hslots hstock
  write h hf := h.modifySlot_alike hf
  create := by
    intro p d _ s h
    obtain ⟨i, s', hrun, h', -⟩ := createAttribute_tidy h p d
    rw [leaves_ok hrun]
    exact h'
  release := by
    intro i s h
    cases hd : (s.slot i).definition with
    | none =>
      rw [leaves_error (releaseSlot_free hd)]
      exact h
    | some d =>
      obtain ⟨s', hrun, h', -⟩ := releaseSlot_tidy h hd
      rw [leaves_ok hrun]
      exact h'

/-- The empty store is in order. -/
theorem tidy_empty : Tidy {} :=
  ⟨fun _ _ => rfl, fun _ _ hi => absurd hi List.not_mem_nil, fun _ => List.nodup_nil⟩

/-- What comes of giving up a reference. -/
structure Removes (i : SlotId) (s : Store) (out : EStateM.Result Fault Store Bool) : Prop where
  ok : ∀ last s', out = .ok last s' →
    (s'.slot i).references = (s.slot i).references - 1 ∧
      (last = true ↔ (s.slot i).references = 1)
  /-- It is broken off if and only if it was the last one, and on a slot without
  attribute; then only the count has changed. -/
  error : ∀ f s', out = .error f s' ↔
    f = .doubleReset ∧ (s.slot i).references = 1 ∧ (s.slot i).definition = none ∧
      s' = s.modifySlot i fun slot => { slot with references := 0 }

/-- **A count goes down by one until there is none,** whatever slot it is of. -/
theorem removeReference_removes (h : Tidy s) (i : SlotId) : Removes i s (removeReference i s) := by
  rw [removeReference_apply]
  split_ifs with hone
  · -- it is the last one
    have hthere : i < s.slots.size := lt_size_of_references (hone ▸ Nat.one_ne_zero)
    set s₁ := s.modifySlot i Slot.unreferred with hs₁
    have hself : s₁.slot i = (s.slot i).unreferred := slot_modifySlot_self hthere _
    have hzero : s₁ = s.modifySlot i fun slot => { slot with references := 0 } :=
      modifySlot_congr (by rw [Slot.unreferred, hone])
    cases hd : (s.slot i).definition with
    | none =>
      simp only [releaseSlot_free (s := s₁) (i := i) (by rw [hself]; exact hd)]
      refine ⟨by rintro _ _ ⟨⟩, fun f s' => ?_⟩
      rw [hone, hd, EStateM.Result.error.injEq, hzero]
      simp only [true_and]
      exact ⟨fun h => ⟨h.1.symm, h.2.symm⟩, fun h => ⟨h.1.symm, h.2.symm⟩⟩
    | some d =>
      have h₁ : Tidy s₁ := h.modifySlot_alike fun _ => ⟨rfl, rfl, rfl⟩
      obtain ⟨s₂, hrun, -, -, -, href, -⟩ := releaseSlot_tidy h₁ (d := d) (by rw [hself]; exact hd)
      simp only [hrun]
      refine ⟨fun last s' hout => ?_, fun f s' => iff_of_false (by rintro ⟨⟩) fun hf => ?_⟩
      · cases hout
        rw [href, hself, hone]
        exact ⟨congrArg (· - 1) hone, iff_of_true rfl rfl⟩
      · exact absurd (hd.symm.trans hf.2.2.1) (Option.some_ne_none d)
  · -- others are left, or there is none
    refine ⟨fun last s' hout => ?_, fun f s' => iff_of_false (by rintro ⟨⟩) fun hf => ?_⟩
    · cases hout
      refine ⟨?_, iff_of_false Bool.false_ne_true hone⟩
      rw [slot_modifySlot]
      split_ifs with hi
      · rfl
      · have hnone : (s.slot i).references = 0 := by
          by_contra hn
          exact hi ⟨rfl, lt_size_of_references hn⟩
        rw [hnone]
    · exact hone hf.2.1

end Store

namespace Tracer

variable {t : Tracer}

/-- **Every run leaves the pools in order**, whether it keeps to the rules or not. -/
theorem run_tidy (cs : List Command) : ∀ t : Tracer, t.store.Tidy → (t.run cs).2.store.Tidy := by
  induction cs with
  | nil => exact fun _ h => h
  | cons c cs ih => exact fun t h => ih _ (step_upheld Store.tidy_upheld h fun _ _ => trivial)

/-- What is found of a slot in a pool. -/
structure Shelved (s : Store) (p : SetId) (i : SlotId) : Prop where
  free : (s.slot i).definition = none
  marked : (s.slot i).marked = true
  once : (s.set p).slots.stored.count i = 1
  only : ∀ q, i ∈ (s.set q).slots.stored → q = p
  /-- A collection does not take it in. -/
  install : ∀ c : Collection, c.install i s = .ok false s
  /-- There is nothing to copy, and nothing is taken from a pool for it. -/
  copy : ∀ q, copyAttribute q i s = .ok none s

/-- **Misuse of handles is contained.**  After any commands at all, pools store
free slots alone, each once and in one pool, and nothing can be made of those; a
new attribute has its definition and nothing that was ever written through a
handle of its slot; and a reference that is given up lowers a count by one, with
the one fault that there is when it is the last on a slot without attribute. -/
theorem run_contained (cs : List Command) :
    let s := (({} : Tracer).run cs).2.store
    (∀ p, ∀ i ∈ (s.set p).slots.stored, Shelved s p i) ∧
      (∀ p d, ∃ i s', createAttribute p d s = .ok i s' ∧
        s'.slot i = { definition := some d, home := some p } ∧
        (s.slot i).definition = none ∧ ∀ j, j ≠ i → s'.slot j = s.slot j) ∧
      ∀ i, Store.Removes i s (removeReference i s) := by
  intro s
  have h : s.Tidy := run_tidy cs {} Store.tidy_empty
  refine ⟨fun p i hi => ?stored, fun p d => ?create, fun i => Store.removeReference_removes h i⟩
  case stored =>
    obtain ⟨hfree, hmarked, hhome⟩ := h.stored p i hi
    refine ⟨hfree, hmarked, List.count_eq_one_of_mem (h.once p) hi, fun q hq => ?_,
      install_free hfree, fun q => ?_⟩
    · exact Option.some.inj ((h.stored q i hq).2.2.symm.trans hhome)
    · simp only [copyAttribute, Action.bind_apply, Action.get_apply, hfree, Action.pure_apply]
  case create =>
    obtain ⟨i, s', hrun, -, -, hself, hfree, hrest⟩ := Store.createAttribute_tidy h p d
    exact ⟨i, s', hrun, hself, hfree, hrest⟩

/-- An attribute is released, referred to once more through its handle, and given
up again. -/
example : (({} : Tracer).run [.setUp "p" .small .small,
    .create "p" "h" { name := "a", category := .user }, .addReference "h", .removeReference "h",
    .addReference "h", .removeReference "h"]).1.getLast? = some (.fault .doubleReset) :=
  rfl

end Tracer
end Telemetry
