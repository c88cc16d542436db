/-
# Slots without attribute

A slot whose attribute was released is free until a pool that stores it lends
it for a new attribute.  No other operation makes an attribute in it: the
handles that still name it can write to it, but what they write belongs to
nothing, and without a definition the slot cannot be released again.

`Spent P i s` says that the slot is free and that no pool of a set in `P` stores
it.  Attributes that are made from these pools, and attributes that are
released, leave it so (`spent_upheld`), and with that every command does that
takes slots from these pools alone.
-/

import Telemetry.Proofs.Sweep

namespace Telemetry

open Trace

namespace Store

open Telemetry.Action

/-- The slot has no attribute, and no pool of a set in `P` stores it. -/
structure Spent (P : SetId → Prop) (i : SlotId) (s : Store) : Prop where
  there : i < s.slots.size
  free : (s.slot i).definition = none
  apart : ∀ p, P p → i ∉ (s.set p).slots.stored

variable {P : SetId → Prop} {i : SlotId} {s s' : Store}

namespace Spent

/-- The pools may lose what they store. -/
theorem of_stock (h : Spent P i s) (hslots : s'.slots = s.slots)
    (hstock : ∀ p, (s'.set p).slots.stored ⊆ (s.set p).slots.stored) : Spent P i s' := by
  refine ⟨hslots ▸ h.there, ?_, fun p hp hi => h.apart p hp (hstock p hi)⟩
  rw [slot, hslots]
  exact h.free

/-- Whether a slot is spent is a matter of slots and pools. -/
theorem congr (h : Spent P i s) (hslots : s'.slots = s.slots) (hsets : s'.sets = s.sets) :
    Spent P i s' :=
  h.of_stock hslots fun p => by rw [set, hsets]; exact List.Subset.refl _

/-- A write to another slot, or one that makes no attribute. -/
theorem modifySlot (h : Spent P i s) {j : SlotId} {f : Slot → Slot}
    (hf : j = i → ∀ a : Slot, a.definition = none → (f a).definition = none) :
    Spent P i (s.modifySlot j f) := by
  refine ⟨(size_modifySlot s j f).symm ▸ h.there, ?_, h.apart⟩
  rw [slot_modifySlot]
  split_ifs with hj
  · exact hf hj.1 _ h.free
  · exact h.free

/-- A spent slot stays so if no pool takes it in. -/
theorem modifySet (h : Spent P i s) (p : SetId) {f : PoolSet → PoolSet}
    (hf : P p → i ∉ (f (s.set p)).slots.stored) : Spent P i (s.modifySet p f) := by
  refine ⟨h.there, h.free, fun q hq => ?_⟩
  rw [set_modifySet]
  split_ifs with hp
  · obtain ⟨rfl, -⟩ := hp
    exact hf hq
  · exact h.apart q hq

end Spent

/-! ### Attributes -/

/-- A pool lends one of its slots or a new one. -/
theorem takeSlot_ne {p : SetId} {j : SlotId} (hp : P p) (h : Spent P i s)
    (htake : takeSlot p s = .ok j s') : j ≠ i := by
  rintro rfl
  obtain ⟨-, hlent⟩ := (s.set p).slots.take_stored fun k => (s.slot k).marked
  simp only [takeSlot, bind_apply, get_apply, modify_apply] at htake
  rcases ht : (s.set p).slots.take fun k => (s.slot k).marked with ⟨_ | _ | _, pool⟩ <;>
    rw [ht] at htake hlent
  · cases htake
    exact h.apart p hp (hlent _ rfl)
  · cases htake
    exact lt_irrefl _ h.there
  · cases htake

/-- Taking another slot out of a pool keeps a spent one spent. -/
theorem takeSlot_spent (p : SetId) : Keeps (Spent P i) (takeSlot p) := by
  refine keeps_get fun s h => ?_
  obtain ⟨hstored, -⟩ := (s.set p).slots.take_stored fun k => (s.slot k).marked
  rcases ht : (s.set p).slots.take fun k => (s.slot k).marked with ⟨taken, pool⟩
  rw [ht] at hstored
  refine keeps_bind (keeps_modify fun s' h' => h'.modifySet p fun hp hi =>
    h.apart p hp (hstored hi)) fun _ => ?_
  cases taken with
  | reused j =>
    exact keeps_bind (keeps_modify fun _ h => h.modifySlot fun _ _ ha => ha) fun _ => keeps_pure j
  | missed =>
    refine keeps_bind (keeps_modify fun s' h' => ⟨?_, ?_, h'.apart⟩) fun _ => keeps_pure _
    · exact h'.there.trans (by simp)
    · rw [slot_push, if_neg h'.there.ne]
      exact h'.free
  | unmarked j => exact keeps_throw _

/-- No attribute is made in a slot that is in no pool. -/
theorem createAttribute_spent {p : SetId} (d : Definition) (hp : P p) :
    Keeps (Spent P i) (createAttribute p d) :=
  keeps_bind_of (takeSlot_spent p) fun _ _ _ h htake =>
    keeps_bind (keeps_modify fun _ h' => h'.modifySlot fun hj => absurd hj (takeSlot_ne hp h htake))
      fun _ => keeps_pure _

/-- Putting another slot back keeps a spent one spent. -/
theorem putSlot_spent (p : SetId) {j : SlotId} (hj : j ≠ i) : Keeps (Spent P i) (putSlot p j) := by
  refine keeps_modify fun s h => ?_
  have hstored : P p → i ∉ ((s.set p).slots.put (s.slot j).marked j).2.stored := fun hp hi =>
    (Pool.of_mem_stored_put hi).elim (h.apart p hp) hj.symm
  rcases hput : (s.set p).slots.put (s.slot j).marked j with ⟨refusal, pool⟩
  rw [hput] at hstored
  dsimp only
  have hset := h.modifySet p (f := fun q => { q with slots := pool }) hstored
  match refusal with
  | none => exact hset.modifySlot fun hji => absurd hji hj
  | some .alreadyPooled => exact hset.congr rfl rfl
  | some (.overflow _) => exact hset.congr rfl rfl

/-- No slot without attribute is released, so a spent one is not put back. -/
theorem releaseSlot_spent (j : SlotId) : Keeps (Spent P i) (releaseSlot j) := by
  refine keeps_get fun s h => ?_
  dsimp only
  cases hd : (s.slot j).definition with
  | none => exact keeps_throw _
  | some d =>
    have hj : j ≠ i := by
      rintro rfl
      rw [h.free] at hd
      cases hd
    dsimp only
    split_ifs
    · exact keeps_pure ()
    · refine keeps_bind (keeps_modify fun s h => h.modifySlot fun _ _ _ => rfl) fun _ => ?_
      split
      · exact keeps_get fun s _ => by
          split_ifs
          · exact putSlot_spent _ hj
          · exact keeps_pure ()
      · exact keeps_pure ()

/-- **A spent slot stays spent**, whatever is done, as long as slots are taken from other
pools only. -/
theorem spent_upheld (P : SetId → Prop) (i : SlotId) : Upheld P (Spent P i) where
  stock h hslots hstock := h.of_stock hslots fun p => (hstock p).subset
  write h hf := h.modifySlot fun _ a ha => (hf a).definition.trans ha
  create d hp := createAttribute_spent d hp
  release := releaseSlot_spent

end Store

namespace Tracer

variable {P : SetId → Prop} {i : SlotId} {t : Tracer} {c : Command}

/-- **A free slot gets an attribute only from a pool that stores it.** -/
theorem spent_step (h : Store.Spent P i t.store) (hc : ∀ p, t.source? c = some p → P p) :
    Store.Spent P i (t.step c).2.store :=
  step_upheld (Store.spent_upheld P i) h hc

end Tracer
end Telemetry
