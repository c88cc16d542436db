/-
# How a deferred value fares

In an operation the computation of a deferred value is begun once at most.  Where
the operation ends, what was begun in it is finished.  Where it is broken off,
so may be what was begun: such a value is pending again, and was called once more
(`Cell.Fares`).  A value whose computation runs, or came to its end, stays as it
is; so whoever asks for it gets the one result (`forceWithin_result`).
-/

import Telemetry.Proofs.Ledger

namespace Telemetry

open Trace

namespace Trace

/-- How a deferred value fares in an operation that ended, or did not. -/
inductive Cell.Fares (ended : Prop) (a : Cell) : Cell → Prop
  | rests : Fares ended a a
  | computed : a.progress = .pending →
    Fares ended a { a with progress := .finished a.yields, calls := a.calls + 1 }
  /-- Its computation is broken off, and the operation with it. -/
  | brokenOff : ¬ ended → a.progress = .pending → Fares ended a { a with calls := a.calls + 1 }

namespace Cell.Fares

variable {ended : Prop} {a b c : Cell}

/-- Once begun, a value stays as it is. -/
theorem eq_of_begun (h : Fares ended a b) (ha : a.progress ≠ .pending) : b = a := by
  cases h with
  | rests => rfl
  | computed hp => exact absurd hp ha
  | brokenOff _ hp => exact absurd hp ha

/-- An operation that ended is followed by another one. -/
theorem trans (h : Fares True a b) (h' : Fares ended b c) : Fares ended a c := by
  cases h with
  | rests => exact h'
  | computed hp =>
    rw [h'.eq_of_begun nofun]
    exact .computed hp
  | brokenOff hn => exact absurd trivial hn

/-- What a deferred value yields is settled from the beginning. -/
theorem yields (h : Fares ended a b) : b.yields = a.yields := by
  cases h <;> rfl

/-- Calls are never taken back. -/
theorem calls_le (h : Fares ended a b) : a.calls ≤ b.calls := by
  cases h with
  | rests => exact le_rfl
  | computed | brokenOff => exact Nat.le_succ _

/-- A value that fares so in an operation that ended fares so in one that need not have. -/
theorem mono {ended' : Prop} (he : ended' → ended) (h : Fares ended a b) : Fares ended' a b := by
  cases h with
  | rests => exact .rests
  | computed hp => exact .computed hp
  | brokenOff hn hp => exact .brokenOff (fun h => hn (he h)) hp

end Cell.Fares
end Trace

namespace Store

/-- All deferred values fare so. -/
structure Fares (ended : Prop) (s s' : Store) : Prop where
  size : s'.cells.size = s.cells.size
  cells : ∀ c, (s.cell c).Fares ended (s'.cell c)

variable {ended : Prop} {s s' s'' : Store} {c : CellId}

namespace Fares

/-- Where no cell is changed, all values fare well. -/
theorem of_cells (h : s'.cells = s.cells) : Fares ended s s' := by
  refine ⟨by rw [h], fun c => ?_⟩
  rw [cell, cell, h]
  exact .rests

/-- Operations in turn, of which only the last one may have been broken off. -/
theorem trans (h : Fares True s s') (h' : Fares ended s' s'') : Fares ended s s'' :=
  ⟨h'.size.trans h.size, fun c => (h.cells c).trans (h'.cells c)⟩

/-- All values that fare so in an operation that ended fare so in one that need not have. -/
theorem mono {ended' : Prop} (he : ended' → ended) (h : Fares ended s s') : Fares ended' s s' :=
  ⟨h.size, fun c => (h.cells c).mono he⟩

/-- What happens while a value is computed, up to the end of the computation. -/
theorem around {p : Progress} (hc : (s.cell c).progress = .pending)
    (h : Fares ended (s.modifyCell c Cell.begin) s')
    (hp : p = .finished (s'.cell c).yields ∨ ¬ ended ∧ p = .pending) :
    Fares ended s (s'.modifyCell c fun cell => { cell with progress := p }) := by
  have hsize : s'.cells.size = s.cells.size := by rw [h.size, size_modifyCell]
  refine ⟨by rw [size_modifyCell, hsize], fun d => ?_⟩
  have hd := h.cells d
  rw [cell_modifyCell] at hd ⊢
  rw [hsize]
  split_ifs at hd ⊢ with hcd
  · obtain ⟨rfl, -⟩ := hcd
    have hrun : s'.cell c = (s.cell c).begin := hd.eq_of_begun nofun
    rw [hrun] at hp ⊢
    rcases hp with rfl | ⟨hended, rfl⟩
    · exact .computed hc
    · have hcell : ({ (s.cell c).begin with progress := .pending } : Cell) =
          { s.cell c with calls := (s.cell c).calls + 1 } := by rw [Cell.begin, ← hc]
      rw [hcell]
      exact .brokenOff hended hc
  · exact hd

end Fares
end Store

namespace Action

variable {α β : Type} {s s' : Store}

/-- How deferred values fare in an operation. -/
structure Forces (a : Action α) (s : Store) : Prop where
  ok : ∀ x s', a s = .ok x s' → s.Fares True s'
  error : ∀ e s', a s = .error e s' → s.Fares False s'

/-- For an operation that ended it is enough to look at what it left. -/
theorem forces_ok {a : Action α} {x : α} (ha : a s = .ok x s') (h : s.Fares True s') :
    Forces a s :=
  ⟨fun _ _ hx => by rw [ha] at hx; cases hx; exact h, fun _ _ he => by rw [ha] at he; cases he⟩

/-- For one that broke off it is enough as well. -/
theorem forces_error {a : Action α} {e : Fault} (ha : a s = .error e s') (h : s.Fares False s') :
    Forces a s :=
  ⟨fun _ _ hx => by (rw [ha] at hx; cases hx), fun _ _ he => by rw [ha] at he; cases he; exact h⟩

/-- Deferred values are left alone. -/
theorem forces_of_cells {a : Action α} (h : (a.leaves s).cells = s.cells) : Forces a s := by
  cases ha : a s with
  | ok x s' => exact forces_ok ha (.of_cells (leaves_ok ha ▸ h))
  | error e s' => exact forces_error ha (.of_cells (leaves_error ha ▸ h))

/-- Actions in sequence. -/
theorem forces_bind {a : Action α} {f : α → Action β} (ha : Forces a s)
    (hf : ∀ x s', a s = .ok x s' → Forces (f x) s') : Forces (a >>= f) s := by
  cases hs : a s with
  | ok x s' =>
    have hrun : (a >>= f) s = f x s' := by rw [bind_apply, hs]
    exact ⟨fun y s'' hy => (ha.ok x s' hs).trans ((hf x s' hs).ok y s'' (hrun ▸ hy)),
      fun e s'' he => (ha.ok x s' hs).trans ((hf x s' hs).error e s'' (hrun ▸ he))⟩
  | error e s' =>
    have hrun : (a >>= f) s = .error e s' := by rw [bind_apply, hs]
    exact forces_error hrun (ha.error e s' hs)

/-- Actions on the items of a list, in order. -/
theorem forces_forM {f : α → Action Unit} (hf : ∀ x s, Forces (f x) s) :
    ∀ (xs : List α) (s : Store), Forces (xs.forM f) s
  | [], _ => forces_of_cells rfl
  | x :: xs, s => forces_bind (hf x s) fun _ s' _ => forces_forM hf xs s'

end Action

namespace Store

open Telemetry.Action

/-! ### What attributes leave alone -/

/-- What is not there for the sake of attributes: records, deferred values, the clock. -/
def rest (s : Store) : Array Record × Array Cell × Nat := (s.records, s.cells, s.now)

variable {s s' : Store} {c : CellId} {i : SlotId} {R : Array Record × Array Cell × Nat}

/-- Taking a slot touches slots and pools only. -/
theorem takeSlot_rest (p : SetId) : Keeps (·.rest = R) (takeSlot p) := by
  refine keeps_get fun s _ => ?_
  rcases (s.set p).slots.take fun i => (s.slot i).marked with ⟨taken, pool⟩
  refine keeps_bind (keeps_modify fun _ h => h) fun _ => ?_
  cases taken with
  | reused i => exact keeps_bind (keeps_modify fun _ h => h) fun _ => keeps_pure i
  | missed => exact keeps_bind (keeps_modify fun _ h => h) fun _ => keeps_pure _
  | unmarked _ => exact keeps_throw _

/-- Making an attribute touches slots and pools only. -/
theorem createAttribute_rest (p : SetId) (d : Definition) :
    Keeps (·.rest = R) (createAttribute p d) :=
  keeps_bind (takeSlot_rest p) fun i => keeps_bind (keeps_modify fun _ h => h) fun _ => keeps_pure i

/-- Releasing an attribute touches slots and pools only. -/
theorem releaseSlot_rest (i : SlotId) : Keeps (·.rest = R) (releaseSlot i) := by
  refine keeps_get fun s _ => ?_
  dsimp only
  cases (s.slot i).definition with
  | none => exact keeps_throw _
  | some d =>
    dsimp only
    split_ifs
    · exact keeps_pure ()
    · refine keeps_bind (keeps_modify fun _ h => h) fun _ => ?_
      cases (s.slot i).home with
      | none => exact keeps_pure ()
      | some p =>
        refine keeps_get fun s' _ => ?_
        split_ifs
        · refine keeps_modify fun s h => ?_
          rcases (s.set p).slots.put (s.slot i).marked i with ⟨_ | _ | _, _⟩ <;> exact h
        · exact keeps_pure ()

/-- Giving up a reference touches slots and pools only. -/
theorem removeReference_rest (i : SlotId) : Keeps (·.rest = R) (removeReference i) := by
  refine keeps_get fun s _ => ?_
  dsimp only
  split_ifs
  · exact keeps_pure false
  · exact keeps_bind (keeps_modify fun _ h => h) fun _ =>
      keeps_bind (releaseSlot_rest i) fun _ => keeps_pure true
  · exact keeps_bind (keeps_modify fun _ h => h) fun _ => keeps_pure false

/-- The deferred values belong to the rest. -/
theorem cells_of_rest (h : s'.rest = s.rest) : s'.cells = s.cells := congrArg (·.2.1) h

/-! ### Computing -/

section Computing

variable {force : CellId → Action (Option Value)} (hforce : ∀ c s, (force c).Forces s)
include hforce

/-- A freeze asks for at most one value, the one that the attribute carries. -/
theorem freezeWith_forces (i : SlotId) (s : Store) :
    (freezeWith force i).Forces s := by
  rcases frozen_plain_or_pending s i with him | ⟨him, hv | ⟨hv, c, hd⟩⟩
  · exact forces_of_cells (by rw [leaves_ok (freezeWith_frozen him)])
  · exact forces_of_cells (by rw [leaves_ok (freezeWith_plain him hv)]; rfl)
  · have hrun : freezeWith force i s = _ := freezeWith_pending him hv hd
    cases hr : force c s with
    | ok v s' =>
      rw [hr] at hrun
      exact forces_ok hrun (((hforce c s).ok v s' hr).trans (.of_cells rfl))
    | error e s' =>
      rw [hr] at hrun
      exact forces_error hrun ((hforce c s).error e s' hr)

/-- A deed of a computation asks for values as its freeze does. -/
theorem performWith_forces (e : Effect) (s : Store) :
    (performWith force e).Forces s := by
  refine forces_bind (forces_of_cells rfl) fun t s' _ => ?_
  cases t.handles.get? e.handle with
  | none => exact forces_of_cells rfl
  | some i =>
    cases e.deed with
    | setValue v => exact forces_of_cells rfl
    | freeze => exact freezeWith_forces hforce i s'
    | addReference => exact forces_of_cells rfl
    | removeReference =>
      exact forces_of_cells (cells_of_rest (keeps_discard (removeReference_rest i) s' rfl))

end Computing

/-- A computation with `n` levels, by induction on them: a value that is being computed is
not begun again. -/
theorem forceWithin_forces (n : Nat) : ∀ c s, (forceWithin n c).Forces s := by
  induction n with
  | zero => exact fun c s => forces_of_cells rfl
  | succ n ih =>
    intro c s
    cases hp : (s.cell c).progress with
    | finished v => exact forces_of_cells (by simp [leaves, forceWithin, hp])
    | running => exact forces_of_cells (by simp [leaves, forceWithin, hp])
    | pending =>
      have hdeeds := forces_forM (performWith_forces ih) (s.cell c).effects
        (s.modifyCell c Cell.begin)
      have hrun := forceWithin_pending (n := n) hp
      cases hr : (s.cell c).effects.forM (performWith (forceWithin n))
          (s.modifyCell c Cell.begin) with
      | ok u s' =>
        rw [hr] at hrun
        exact forces_ok hrun ((hdeeds.ok u s' hr).around hp (Or.inl rfl))
      | error e s' =>
        rw [hr] at hrun
        exact forces_error hrun ((hdeeds.error e s' hr).around hp (Or.inr ⟨id, rfl⟩))

/-- Computing a deferred value, with levels enough for all cells, begins none that was begun
before. -/
theorem force_forces (c : CellId) (s : Store) : (force c).Forces s := by
  have h := forceWithin_forces (s.cells.size + 1) c s
  exact ⟨h.ok, h.error⟩

/-- **Whoever asks for a deferred value gets its one result.** -/
theorem forceWithin_result {n : Nat} {v : Option Value} (h : forceWithin n c s = .ok v s') :
    v = (s'.cell c).result? ∧ (c < s'.cells.size → (s'.cell c).isFinished = true) := by
  cases n with
  | zero => cases h
  | succ n =>
    cases hp : (s.cell c).progress with
    | finished w =>
      have hrun : forceWithin (n + 1) c s = .ok w s := by simp [forceWithin, hp]
      rw [hrun] at h
      cases h
      simp [Cell.result?, Cell.isFinished, hp]
    | running =>
      have hrun : forceWithin (n + 1) c s = .error .circular s := by simp [forceWithin, hp]
      rw [hrun] at h
      cases h
    | pending =>
      rw [forceWithin_pending hp] at h
      cases hd : (s.cell c).effects.forM (performWith (forceWithin n))
          (s.modifyCell c Cell.begin) with
      | error e s₁ =>
        rw [hd] at h
        cases h
      | ok u s₁ =>
        rw [hd] at h
        cases h
        rw [size_modifyCell, cell_modifyCell]
        split_ifs with hc
        · exact ⟨rfl, fun _ => rfl⟩
        · -- a value that is not there comes to nothing
          have hsize : s₁.cells.size ≤ c := not_lt.1 fun hlt => hc ⟨rfl, hlt⟩
          rw [cell_of_size_le hsize]
          exact ⟨rfl, fun hlt => absurd hlt (not_lt.2 hsize)⟩

end Store
end Telemetry
