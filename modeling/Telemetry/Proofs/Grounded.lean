/-
# Deferred values that do not need themselves

Computing a deferred value may freeze attributes, and an attribute that carries
another deferred value makes it needed (`Store.Needs`).  Where every chain of
needs ends (`Store.Grounded`), the computation is not broken off: each value
that is begun on the way is another one, so the levels of deferred values that
the computation is given are enough.
-/

import Telemetry.Proofs.Closing
import Mathlib.Logic.Relation

namespace Telemetry

open Trace

namespace Store

variable {s s' : Store} {K : Multiset SlotId} {L L' : Ledger} {c d : CellId} {i : SlotId}
  {n : Nat}

/-- Computing `c` needs `d`: it freezes an attribute that carries `d`. -/
def Needs (s : Store) (d c : CellId) : Prop :=
  ∃ e ∈ (s.cell c).effects, e.deed = .freeze ∧
    ∃ i, s.handles.get? e.handle = some i ∧ (s.slot i).deferred = some d

/-- Every chain of needs from a deferred value ends. -/
def Grounded (s : Store) (c : CellId) : Prop := Acc s.Needs c

/-- No need comes from computations. -/
theorem Needs.of_onlyComputed (hs : OnlyComputed s s') (h : s'.Needs d c) : s.Needs d c := by
  obtain ⟨e, he, hfreeze, i, hi, hd⟩ := h
  refine ⟨e, (hs.cells c).effects ▸ he, hfreeze, i, hs.handles ▸ hi, ?_⟩
  rcases hs.deferred i with hnone | hsame
  · rw [hnone] at hd
    cases hd
  · rwa [← hsame]

/-- Computing values takes away needs, so a grounded value stays grounded. -/
theorem Grounded.of_onlyComputed (h : s.Grounded c) (hs : OnlyComputed s s') : s'.Grounded c :=
  Subrelation.accessible (fun hn => Needs.of_onlyComputed hs hn) h

/-- A grounded value does not need itself. -/
theorem Grounded.irrefl (h : s.Grounded c) : ¬ Relation.TransGen s.Needs c c := by
  have hirrefl : ∀ {c}, Acc (Relation.TransGen s.Needs) c → ¬ Relation.TransGen s.Needs c c :=
    fun hc => by
      induction hc with
      | intro c _ ih => exact fun hcc => ih c hcc hcc
  exact hirrefl (Acc.transGen h)

/-! ### Values that are not computed yet -/

/-- A value that was not computed and is not being computed. -/
def Idle (s : Store) (c : CellId) : Prop := (s.cell c).progress = .pending

instance : DecidablePred s.Idle := fun c =>
  match h : (s.cell c).progress with
  | .pending => .isTrue h
  | .running | .finished _ => .isFalse (by rw [Idle, h]; exact nofun)

/-- The values that can still be begun. -/
def idle (s : Store) : Finset CellId := (Finset.range s.cells.size).filter s.Idle

/-- Idle values are there and pending. -/
theorem mem_idle : c ∈ s.idle ↔ c < s.cells.size ∧ (s.cell c).progress = .pending := by
  rw [idle, Finset.mem_filter, Finset.mem_range, Idle]

/-- Computing values leaves no more of them idle. -/
theorem idle_subset (hs : OnlyComputed s s') : s'.idle ⊆ s.idle := by
  intro c hc
  rw [mem_idle, hs.size] at hc
  refine mem_idle.2 ⟨hc.1, ?_⟩
  rcases (hs.cells c).progress with hp | ⟨hp, -⟩
  · rw [← hp]
    exact hc.2
  · exact hp

/-- A value that is begun is idle no more. -/
theorem idle_begin (hc : c ∈ s.idle) :
    (s.modifyCell c Cell.begin).idle.card < s.idle.card := by
  refine Finset.card_lt_card ⟨fun d hd => ?_, fun hsub => ?_⟩
  · rw [mem_idle, size_modifyCell, cell_modifyCell] at hd
    obtain ⟨hlt, hp⟩ := hd
    split_ifs at hp with h
    · cases hp
    · exact mem_idle.2 ⟨hlt, hp⟩
  · have hp := (mem_idle.1 (hsub hc)).2
    rw [cell_modifyCell, if_pos ⟨rfl, (mem_idle.1 hc).1⟩] at hp
    cases hp

/-- There are no more idle values than cells. -/
theorem card_idle_le (s : Store) : s.idle.card ≤ s.cells.size := by
  have hsub : s.idle ⊆ Finset.range s.cells.size := fun c hc =>
    Finset.mem_range.2 (mem_idle.1 hc).1
  exact (Finset.card_le_card hsub).trans (Finset.card_range _).le

/-! ### Computations that end -/

/-- A deferred value that can be computed with so many levels: they are enough
for all that can still be begun, and nothing that is needed is being computed. -/
structure Able (n : Nat) (s : Store) (c : CellId) : Prop where
  levels : s.idle.card < n
  grounded : s.Grounded c
  free : ∀ d, Relation.ReflTransGen s.Needs d c → (s.cell d).progress ≠ .running

/-- What is needed on the way can be computed with one level less. -/
theorem Able.step (h : Able (n + 1) s c) (hc : c ∈ s.idle)
    (hs : OnlyComputed (s.modifyCell c Cell.begin) s') (hd : s'.Needs d c) : Able n s' d := by
  have hneeds : ∀ {a b}, s'.Needs a b → s.Needs a b := fun hab => by
    have hab' := Needs.of_onlyComputed hs hab
    obtain ⟨e, he, hrest⟩ := hab'
    exact ⟨e, effects_begin s c _ ▸ he, hrest⟩
  have hdc := hneeds hd
  refine ⟨?_, Subrelation.accessible (fun hab => hneeds hab) (h.grounded.inv hdc),
    fun a ha hrunning => ?_⟩
  · have hlt := (Finset.card_le_card (idle_subset hs)).trans_lt (idle_begin hc)
    exact hlt.trans_le (Nat.lt_succ_iff.1 h.levels)
  · have hac : Relation.TransGen s.Needs a c :=
      Relation.TransGen.tail' (Relation.ReflTransGen.mono (fun _ _ h => hneeds h) _ _ ha) hdc
    -- the values that run are those that ran before, and `c` itself
    have hprogress := (hs.cells a).progress
    rw [hrunning] at hprogress
    rcases hprogress with hp | ⟨-, hp⟩
    · rw [cell_modifyCell] at hp
      split_ifs at hp with hca
      · exact h.grounded.irrefl (hca.1 ▸ hac)
      · exact h.free a hac.to_reflTransGen hp.symm
    · cases hp

section Ends

variable {force : CellId → Action (Option Value)} {entry : CellId → Entry}

/-- If a freeze has to compute a deferred value, it can be computed. -/
def Freezable (force : CellId → Action (Option Value)) (s : Store) (i : SlotId) : Prop :=
  (s.slot i).immutable = false → (s.slot i).value = none →
    ∀ c, (s.slot i).deferred = some c → ∃ v s', force c s = .ok v s'

/-- A freeze ends if the value that it asks for can be computed. -/
theorem freezeWith_ends (h : Freezable force s i) : ∃ s', freezeWith force i s = .ok () s' := by
  rcases frozen_plain_or_pending s i with him | ⟨him, hv | ⟨hv, c, hd⟩⟩
  · exact ⟨s, freezeWith_frozen him⟩
  · exact ⟨_, freezeWith_plain him hv⟩
  · obtain ⟨v, s', hforce⟩ := h him hv c hd
    exact ⟨_, by rw [freezeWith_pending him hv hd, hforce]⟩

/-- A deed ends if the freezes do. -/
theorem performWith_ends {e : Effect} (hL : Ledger.performedWith entry e L s = some L')
    (h : Counted s (K + L))
    (hf : e.deed = .freeze → ∀ i, s.handles.get? e.handle = some i → Freezable force s i) :
    ∃ s', performWith force e s = .ok () s' := by
  cases hi : s.handles.get? e.handle with
  | none => exact ⟨s, by simp [performWith, hi]⟩
  | some i =>
    cases hdeed : e.deed with
    | setValue v => exact ⟨s.modifySlot i (Slot.setValue v), by simp [performWith, hi, hdeed]⟩
    | freeze =>
      obtain ⟨s', hrun⟩ := freezeWith_ends (hf hdeed i hi)
      exact ⟨s', by simp [performWith, hi, hdeed, hrun]⟩
    | addReference => exact ⟨_, by simp [performWith, hi, hdeed, addReference]; rfl⟩
    | removeReference =>
      simp only [Ledger.performedWith, hi, hdeed, Ledger.removed] at hL
      split_ifs at hL with hmem
      obtain ⟨b, s', hrun, -⟩ := removeReference_counted (i := i) (D := K + L.erase i)
        (h.congr (by rw [← Multiset.add_cons, Multiset.cons_erase hmem]))
      exact ⟨s', by simp [performWith, hi, hdeed, hrun]⟩

/-- Operations in turn end if each of them does. -/
theorem forM_ends {α : Type} {entry : α → Entry} {act : α → Action Unit} {I : Store → Prop}
    (hI : ∀ s s', OnlyComputed s s' → I s → I s') (xs : List α)
    (hruns : ∀ x ∈ xs, ∀ L L' s, entry x L s = some L' → Counted s (K + L) → I s →
      Runs K (fun _ => True) s L' (act x))
    (hends : ∀ x ∈ xs, ∀ L L' s, entry x L s = some L' → Counted s (K + L) → I s →
      ∃ s', act x s = .ok () s') :
    ∀ L s, Ledger.inTurn entry act xs L s = some L' → Counted s (K + L) → I s →
      ∃ s', xs.forM act s = .ok () s' := by
  induction xs with
  | nil => exact fun L s _ _ _ => ⟨s, rfl⟩
  | cons x xs ih =>
    intro L s hL h hs
    obtain ⟨L₁, hx, hL⟩ := Option.bind_eq_some_iff.1 hL
    obtain ⟨s₁, hr⟩ := hends x List.mem_cons_self L L₁ s hx h hs
    have hcomputes := (hruns x List.mem_cons_self L L₁ s hx h hs).computes
    rw [Action.leaves_ok hr] at hcomputes
    simp only [hr] at hL
    rw [Action.forM_cons, hr]
    exact ih (fun y hy => hruns y (List.mem_cons_of_mem x hy))
      (fun y hy => hends y (List.mem_cons_of_mem x hy)) L₁ s₁ hL hcomputes.counted
      (hI s s₁ hcomputes.only hs)

end Ends

/-- **A computation ends** that has levels enough and does not need itself.
The induction is on the levels. -/
theorem forceWithin_ends (n : Nat) :
    ∀ c L L' s, Ledger.forcedWithin n c L s = some L' → Counted s (K + L) → Able n s c →
      ∃ v s', forceWithin n c s = .ok v s' := by
  induction n with
  | zero => exact fun c L L' s _ _ h => absurd h.levels (Nat.not_lt_zero _)
  | succ n ih =>
    intro c L L' s hL h hable
    cases hp : (s.cell c).progress with
    | finished v => exact ⟨v, s, by simp [forceWithin, hp]⟩
    | running => exact absurd hp (hable.free c .refl)
    | pending =>
      rw [forceWithin_pending hp]
      simp only [Ledger.forcedWithin, hp] at hL
      have hdeeds : ∃ s', (s.cell c).effects.forM (performWith (forceWithin n))
          (s.modifyCell c Cell.begin) = .ok () s' := by
        refine forM_ends (K := K) (I := OnlyComputed (s.modifyCell c Cell.begin))
          (fun _ _ hs hI => hI.trans hs) _
          (fun e _ L L' s hL h _ => performWith_runs (forceWithin_runs n) hL h (named_any s)
            fun _ _ => trivial) (fun e he L L' s' hL h hI => ?_) L _ hL
          (h.of_stock rfl fun _ => List.Sublist.refl _) (OnlyComputed.refl _)
        refine performWith_ends hL h fun hfreeze i hi him hv d hd => ?_
        -- a value that is needed on the way
        have hc : c ∈ s.idle := by
          refine mem_idle.2 ⟨lt_of_not_ge fun hge => ?_, hp⟩
          rw [cell_of_size_le hge] at he
          cases he
        have hneeds : s'.Needs d c := by
          refine ⟨e, ?_, hfreeze, i, hi, hd⟩
          rw [(hI.cells c).effects, effects_begin]
          exact he
        simp only [Ledger.performedWith, hi, hfreeze] at hL
        rw [Ledger.frozenWith_pending him hv hd] at hL
        exact ih d L L' s' hL h (hable.step hc hI hneeds)
      obtain ⟨s₂, hrun⟩ := hdeeds
      rw [hrun]
      exact ⟨_, _, rfl⟩

/-! ### At rest -/

/-- **A grounded value can be asked for.** -/
theorem force_ends (hL : Ledger.forced c L s = some L') (h : Counted s (K + L)) (hrest : AtRest s)
    (hg : s.Grounded c) : ∃ v s', force c s = .ok v s' := by
  have hable : Able (s.cells.size + 1) s c := by
    refine ⟨Nat.lt_succ_of_le s.card_idle_le, hg, fun d _ hd => ?_⟩
    rcases hrest d with hp | hp <;> rw [hp] at hd <;> cases hd
  obtain ⟨v, s', hrun⟩ := forceWithin_ends _ c L L' s hL h hable
  exact ⟨v, s', by simpa [force] using hrun⟩

/-- What an attribute carries does not need itself. -/
def Carries (s : Store) (i : SlotId) : Prop := ∀ c, (s.slot i).deferred = some c → s.Grounded c

/-- Computing other values does not make an attribute carry what needs itself. -/
theorem Carries.of_onlyComputed (h : s.Carries i) (hs : OnlyComputed s s') : s'.Carries i := by
  intro c hc
  refine Grounded.of_onlyComputed (h c ?_) hs
  rcases hs.deferred i with hnone | hsame
  · rw [hnone] at hc
    cases hc
  · rwa [← hsame]

/-- Freezing an attribute ends where the ledger permits it and no chain of needs goes round. -/
theorem freezeAttribute_ends (hL : Ledger.frozen i L s = some L') (h : Counted s (K + L))
    (hrest : AtRest s) (hi : s.Carries i) : ∃ s', freezeAttribute i s = .ok () s' := by
  refine freezeWith_ends fun him hv c hd => ?_
  rw [Ledger.frozen, Ledger.frozenWith_pending him hv hd] at hL
  exact force_ends hL h hrest (hi c hd)

/-- Freezing a list of attributes ends where no chain of needs goes round, by induction on
the list. -/
theorem frozenEach_ends {l : List SlotId} (hL : Ledger.frozenEach l L s = some L')
    (h : Counted s (K + L)) (hrest : AtRest s) (hl : ∀ i ∈ l, s.Carries i) :
    ∃ s', l.forM freezeAttribute s = .ok () s' :=
  forM_ends (I := fun s => AtRest s ∧ ∀ i ∈ l, s.Carries i)
    (fun _ _ hs hI => ⟨hI.1.of_advances hs.cells, fun i hi => (hI.2 i hi).of_onlyComputed hs⟩) l
    (fun _ _ _ _ s hL h _ => freezeAttribute_runs hL h (named_any s) trivial)
    (fun i hi _ _ _ hL h hI => freezeAttribute_ends hL h hI.1 (hI.2 i hi)) L s hL h ⟨hrest, hl⟩

/-- **A record can be closed** if none of the deferred values that it carries
needs itself. -/
theorem closed_ends {r : RecordId} (hL : Ledger.closed r L s = some L') (h : Counted s (K + L))
    (hrest : AtRest s) (hr : ∀ i ∈ (s.record r).held, s.Carries i) :
    ∃ s', Category.all.forM (freezeCategory r) s = .ok () s' := by
  have hvalues : ∀ {s' : Store} {k i}, i ∈ ((s'.record r).attributes k).values →
      i ∈ (s'.record r).held := fun hi => by
    obtain ⟨n, hn⟩ := Keyed.mem_values_iff.1 hi
    exact Record.mem_held.2 ⟨_, n, hn⟩
  refine forM_ends (I := fun s => AtRest s ∧ ∀ i ∈ (s.record r).held, s.Carries i)
    (fun s₁ s₂ hs hI => ⟨hI.1.of_advances hs.cells, fun i hi => ?_⟩) Category.all
    (fun k _ L₁ L₂ s₁ hL₁ h₁ _ => ?_) (fun k _ L₁ L₂ s₁ hL₁ h₁ hI => ?_) L s hL h ⟨hrest, hr⟩
  · rw [hs.record] at hi
    exact (hI.2 i hi).of_onlyComputed hs
  · exact (frozenEach_runs hL₁ h₁ (named_any s₁) fun _ _ => trivial).congr
      (fun x s₂ hx => ⟨x, (freezeCategory_apply ..).trans hx⟩)
      fun e s₂ he => (freezeCategory_apply ..).trans he
  · obtain ⟨s₂, hrun⟩ := frozenEach_ends hL₁ h₁ hI.1 fun i hi => hI.2 i (hvalues hi)
    exact ⟨s₂, (freezeCategory_apply ..).trans hrun⟩

end Store
end Telemetry
