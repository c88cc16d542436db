/-
# What is final

An attribute that is frozen stays as it is at every moment, in the midst of
commands as well, up to the incident that gives up the last reference on it and
empties its slot (`Occurs.lasts`).  A slot whose attribute is cached is never
emptied: it keeps its attribute for good, no pool ever stores it, and giving up
references on it counts and does nothing else (`Permanent`).

Nothing is asked of whoever works with the handles; that pools store free slots
alone is enough, and that holds after any commands (`Tracer.run_lasting`).
-/

import Telemetry.Proofs.Misuse

namespace Telemetry

open Trace

namespace Store

open Telemetry.Action

variable {A : Incident → Prop} {s s' : Store} {e : Incident} {i : SlotId} {d : Definition}

/-- The last reference on a slot is given up, and the slot is emptied. -/
structure Empties (i : SlotId) (s s' : Store) : Prop where
  one : (s.slot i).references = 1
  uncached : (s.slot i).isCached = false
  run : removeReference i s = .ok true s'
  none : (s'.slot i).references = 0
  blank : (s'.slot i).bare = {}
  others : ∀ j, j ≠ i → s'.slot j = s.slot j

/-- The last reference takes the attribute with it, and leaves all other slots. -/
theorem empties_of_expiring (ht : Tidy s) (h : (s.slot i).Expiring) :
    Empties i s ((removeReference i).leaves s) := by
  obtain ⟨hone, hbound, huncached⟩ := h
  obtain ⟨d, hd⟩ := Option.ne_none_iff_exists'.1 hbound
  have hc : ¬ d.cached = true := by
    rw [Slot.isCached, hd] at huncached
    exact Bool.eq_false_iff.1 huncached
  have hthere := lt_size_of_references (hone ▸ Nat.one_ne_zero)
  set s₁ := s.modifySlot i Slot.unreferred with hs₁
  have hself : s₁.slot i = (s.slot i).unreferred := slot_modifySlot_self hthere _
  have ht₁ : Tidy s₁ := ht.modifySlot_alike fun _ => ⟨rfl, rfl, rfl⟩
  obtain ⟨s₂, hrelease, -, -, hothers, href, hsheds⟩ :=
    releaseSlot_tidy ht₁ (d := d) (by rw [hself]; exact hd)
  have hrun : removeReference i s = .ok true s₂ := by
    rw [removeReference_apply, if_pos hone, ← hs₁, hrelease]
  rw [leaves_ok hrun]
  rw [if_neg hc] at hsheds
  refine ⟨hone, huncached, hrun, ?_, hsheds.emptied i (List.mem_singleton_self i), fun j hj => ?_⟩
  · rw [href, hself, Slot.unreferred, hone]
  · rw [hothers j hj, hs₁, slot_modifySlot_ne hj.symm]

/-- **An attribute stays the same one, and a frozen one as it is,** whatever
happens but that its slot is emptied. -/
theorem Occurs.lasts (ho : s.Occurs e s') (ht : Tidy s) (hi : (s.slot i).definition ≠ none)
    (he : e ≠ .emptied i) : (s.slot i).Lasts True (s'.slot i) := by
  have hwrite : ∀ (j : SlotId) {f : Slot → Slot}, (s.slot i).Lasts True (f (s.slot i)) →
      (s.slot i).Lasts True ((s.modifySlot j f).slot i) := by
    intro j f hf
    rw [slot_modifySlot]
    split_ifs
    · exact hf
    · exact .refl _ _
  have hsame : s'.slot i = s.slot i → (s.slot i).Lasts True (s'.slot i) := fun h => by
    rw [h]
    exact .refl _ _
  cases ho with
  | made p d =>
    obtain ⟨j, s₁, hrun, -, -, -, hfree, hothers⟩ := createAttribute_tidy ht p d
    rw [leaves_ok hrun] at hsame ⊢
    -- it was a free slot that was taken
    exact hsame (hothers i fun hij => hi (hij ▸ hfree))
  | valued j v => exact hwrite j (.of_writes (Slot.setValue_writes v _) trivial)
  | promised j c => exact hwrite j (.of_writes (Slot.setDeferred_writes c _) trivial)
  | frozen => exact hwrite _ (.of_writes (Slot.freeze_writes _ _) trivial)
  | referred j => exact hwrite j ⟨rfl, fun _ => rfl, fun h => absurd trivial h⟩
  | unreferred => exact hwrite _ ⟨rfl, fun _ => rfl, fun h => absurd trivial h⟩
  | emptied h => exact hsame ((empties_of_expiring ht h).others i fun hij => he (hij ▸ rfl))
  | deferred | begun | finished | abandoned => exact .refl _ _
  | aside h => exact hsame (by rw [slot, slot, h.slots])

/-- Incidents keep the pools in order. -/
theorem Follows.tidy (h : Follows A s s') (ht : Tidy s) : Tidy s' :=
  h.keeps (fun _ ho ht => tidy_upheld.occurs (fun _ _ _ => trivial) ho ht) ht

/-- An attribute lasts as long as its slot is not emptied. -/
theorem Follows.lasts (h : Follows (· ≠ .emptied i) s s') (ht : Tidy s)
    (hi : (s.slot i).definition ≠ none) : (s.slot i).Lasts True (s'.slot i) := by
  have hkept : Tidy s' ∧ (s.slot i).Lasts True (s'.slot i) := by
    refine Follows.keeps (Q := fun m => Tidy m ∧ (s.slot i).Lasts True (m.slot i))
      (fun he ho hm => ⟨?_, ?_⟩) h ⟨ht, .refl _ _⟩
    · exact tidy_upheld.occurs (fun _ _ _ => trivial) ho hm.1
    · exact hm.2.trans (ho.lasts hm.1 (by rw [hm.2.definition]; exact hi) he)
  exact hkept.2

/-- How long a frozen attribute lasts, of a slot on the way from one store to
another. -/
structure Final (i : SlotId) (s s' : Store) : Prop where
  lasting : ∀ m, Follows (· ≠ .emptied i) s m → (m.slot i).bare = (s.slot i).bare
  /-- The way comes to its end before the slot is emptied, or leads on from there. -/
  ends : Follows (· ≠ .emptied i) s s' ∨
    ∃ m m', Follows (· ≠ .emptied i) s m ∧ Empties i m m' ∧ Follows (fun _ => True) m' s'

/-- A frozen attribute lasts up to the moment at which its slot is emptied, if it ever is. -/
theorem Follows.final (h : Follows A s s') (ht : Tidy s) (hi : (s.slot i).definition ≠ none)
    (him : (s.slot i).immutable = true) : Final i s s' := by
  refine ⟨fun m hm => (hm.lasts ht hi).bare (Or.inl him), ?_⟩
  rcases h.first (· = .emptied i) with hnever | ⟨e, m, m', hbefore, -, rfl, ho, hafter⟩
  · exact Or.inl (hnever.mono fun e he => he.2)
  · have hbefore : Follows (· ≠ .emptied i) s m := hbefore.mono fun e he => he.2
    refine Or.inr ⟨m, m', hbefore, ?_, hafter.mono fun _ _ => trivial⟩
    cases ho with
    | emptied h => exact empties_of_expiring (hbefore.tidy ht) h

/-- A cached attribute at a later moment. -/
structure Permanent (i : SlotId) (d : Definition) (s m : Store) : Prop where
  definition : (m.slot i).definition = some d
  stored : ∀ p, i ∉ (m.set p).slots.stored
  /-- A reference that is given up is counted, and nothing else happens. -/
  release : removeReference i m =
    .ok (decide ((m.slot i).references = 1)) (m.modifySlot i Slot.unreferred)
  constant : (s.slot i).immutable = true → (m.slot i).bare = (s.slot i).bare

/-- **The slot of a cached attribute is never emptied.** -/
theorem Follows.never_emptied (h : Follows A s s') (ht : Tidy s)
    (hd : (s.slot i).definition = some d) (hc : d.cached = true) :
    Follows (fun e => A e ∧ e ≠ .emptied i) s s' := by
  have hi : (s.slot i).definition ≠ none := by
    rw [hd]
    exact Option.some_ne_none d
  rcases h.first (· = .emptied i) with hnever | ⟨e, m, m', hbefore, -, rfl, ho, -⟩
  · exact hnever
  · have hlasts := Follows.lasts (hbefore.mono fun e he => he.2) ht hi
    cases ho with
    | emptied h =>
      have hcached := h.2.2
      rw [Slot.isCached, hlasts.definition, hd] at hcached
      exact absurd (hc.symm.trans hcached) (by decide)

/-- A cached attribute is never emptied. -/
theorem Follows.permanent {m : Store} (h : Follows A s m) (ht : Tidy s)
    (hd : (s.slot i).definition = some d) (hc : d.cached = true) : Permanent i d s m := by
  have hi : (s.slot i).definition ≠ none := by
    rw [hd]
    exact Option.some_ne_none d
  have hlasts := Follows.lasts ((h.never_emptied ht hd hc).mono fun e he => he.2) ht hi
  have hdm : (m.slot i).definition = some d := hlasts.definition.trans hd
  exact ⟨hdm, fun p => (h.tidy ht).not_stored (by rw [hdm]; exact Option.some_ne_none d),
    removeReference_cached hdm hc, fun him => hlasts.bare (Or.inl him)⟩

end Store

namespace Tracer

open Store

/-- Every run comes about by incidents. -/
theorem run_follows (cs : List Command) :
    ∀ t : Tracer, Follows (fun _ => True) t.store (t.run cs).2.store := by
  induction cs with
  | nil => exact fun t => .refl t.store
  | cons c cs ih => exact fun t => ((step_follows t c).mono fun _ _ => trivial).trans (ih _)

/-- **A frozen attribute is final, and a cached one permanent.**  A run comes about
by incidents.  At any moment of it, in the midst of a command as well, let an
attribute be in a slot.  Once it is frozen, its definition, its value and its
deferred value stay as they are through all that follows, up to the moment at which
its last reference is given up and the slot is emptied.  If it is cached, that moment
never comes: at every later one the slot has the attribute, no pool stores it, and
references on it are only counted. -/
theorem run_lasting (before after : List Command) (i : SlotId) (d : Definition) :
    let t := (({} : Tracer).run before).2
    let s' := (t.run after).2.store
    Follows (fun _ => True) t.store s' ∧
      ∀ s, Follows (fun _ => True) t.store s → Follows (fun _ => True) s s' →
        (s.slot i).definition = some d →
          ((s.slot i).immutable = true → Final i s s') ∧
          (d.cached = true → Follows (· ≠ .emptied i) s s' ∧
            ∀ m, Follows (fun _ => True) s m → Permanent i d s m) := by
  intro t s'
  refine ⟨run_follows after t, fun s hbefore hafter hd => ?_⟩
  have ht : s.Tidy := hbefore.tidy (run_tidy before {} tidy_empty)
  refine ⟨fun him => hafter.final ht (by rw [hd]; exact Option.some_ne_none d) him,
    fun hc => ⟨(hafter.never_emptied ht hd hc).mono fun e he => he.2, fun m hm => ?_⟩⟩
  exact hm.permanent ht hd hc

/-- A cached attribute that is frozen. -/
def cachedFrozen : List Command :=
  [.setUp "p" .small .small, .create "p" "h" { name := "a", category := .user, cached := true },
    .setValue "h" (some (.text "x")), .freezeAttribute "h"]

/-- It outlives the references on it, and attempts to write it. -/
theorem lasting_cachedFrozen :
    let t := (({} : Tracer).run cachedFrozen).2
    let s' := (t.run [.addReference "h", .removeReference "h",
      .setValue "h" (some (.text "y"))]).2.store
    let d : Definition := { name := "a", category := .user, cached := true }
    (t.store.slot 0).definition = some d ∧ (t.store.slot 0).immutable = true ∧ d.cached = true ∧
      Final 0 t.store s' ∧ Follows (· ≠ .emptied 0) t.store s' ∧
      ∀ m, Follows (fun _ => True) t.store m → Permanent 0 d t.store m := by
  intro t s' d
  obtain ⟨hrun, hlasting⟩ := run_lasting cachedFrozen [.addReference "h", .removeReference "h",
    .setValue "h" (some (.text "y"))] 0 d
  obtain ⟨hfinal, hcached⟩ := hlasting t.store (.refl t.store) hrun rfl
  exact ⟨rfl, rfl, rfl, hfinal rfl, hcached rfl⟩

end Tracer
end Telemetry
