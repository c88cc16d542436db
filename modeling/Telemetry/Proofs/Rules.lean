/-
# What the rules ask for

Only references that are taken or given up by hand can break the rules, and
besides them the computations that do so (`Reachable.ledgerAfter_eq`): every
other command may be given in every state, and leaves the ledger as it is.
-/

import Telemetry.Proofs.Reachable

namespace Telemetry

open Trace

namespace Store

variable {s s' : Store} {K : Multiset SlotId} {L : Ledger} {c : CellId} {i : SlotId}

/-- Computing deferred values takes no references and gives none up. -/
def Plain (s : Store) : Prop :=
  ∀ c, ∀ e ∈ (s.cell c).effects, e.deed ≠ .addReference ∧ e.deed ≠ .removeReference

/-- Computing values does not give deferred values other deeds. -/
theorem Plain.of_onlyComputed (h : s.Plain) (hs : OnlyComputed s s') : s'.Plain := by
  intro c e he
  rw [(hs.cells c).effects] at he
  exact h c e he

/-- Operations in turn leave the ledger as it is if each of them does. -/
theorem inTurn_eq {α : Type} {entry : α → Entry} {act : α → Action Unit} {I : Store → Prop}
    (hI : ∀ s s', OnlyComputed s s' → I s → I s') (xs : List α)
    (hruns : ∀ x ∈ xs, ∀ L' s, entry x L s = some L' → Counted s (K + L) → I s →
      Runs K (fun _ => True) s L' (act x))
    (hentry : ∀ x ∈ xs, ∀ s, Counted s (K + L) → I s → entry x L s = some L) :
    ∀ s, Counted s (K + L) → I s → Ledger.inTurn entry act xs L s = some L := by
  induction xs with
  | nil => exact fun s _ _ => rfl
  | cons x xs ih =>
    intro s h hs
    have hx := hentry x List.mem_cons_self s h hs
    rw [Ledger.inTurn, hx, Option.bind_some]
    have hcomputes := (hruns x List.mem_cons_self L s hx h hs).computes
    cases hr : act x s with
    | error e s₁ => rfl
    | ok u s₁ =>
      rw [Action.leaves_ok hr] at hcomputes
      exact ih (fun y hy => hruns y (List.mem_cons_of_mem x hy))
        (fun y hy => hentry y (List.mem_cons_of_mem x hy)) s₁ hcomputes.counted
        (hI s s₁ hcomputes.only hs)

/-- Where values take no references, freezing changes no ledger. -/
theorem frozenWith_eq {entry : CellId → Entry} (h : ∀ c, entry c L s = some L) :
    Ledger.frozenWith entry i L s = some L := by
  rcases frozen_plain_or_pending s i with him | ⟨him, hv | ⟨hv, c, hd⟩⟩
  · exact Ledger.frozenWith_frozen him
  · exact Ledger.frozenWith_plain him hv
  · rw [Ledger.frozenWith_pending him hv hd]
    exact h c

/-- **A computation that takes and gives up no references leaves the ledger as
it is.**  The induction is on the levels of deferred values. -/
theorem forcedWithin_eq (n : Nat) :
    ∀ c s, Counted s (K + L) → s.Plain → Ledger.forcedWithin n c L s = some L := by
  induction n with
  | zero => exact fun c s _ _ => rfl
  | succ n ih =>
    -- only a pending value does its deeds, by induction on the levels
    intro c s h hs
    cases hp : (s.cell c).progress with
    | finished v => simp only [Ledger.forcedWithin, hp]
    | running => simp only [Ledger.forcedWithin, hp]
    | pending =>
      simp only [Ledger.forcedWithin, hp]
      refine inTurn_eq (K := K) (I := Plain) (fun _ _ hs hI => hI.of_onlyComputed hs) _
        (fun e _ L' s hL h _ => performWith_runs (forceWithin_runs n) hL h (named_any s)
          fun _ _ => trivial) (fun e he s' h' hs' => ?_) _
        (h.of_stock rfl fun _ => List.Sublist.refl _)
        fun d e he => hs d e (effects_begin s c d ▸ he)
      obtain ⟨hadd, hremove⟩ := hs c e he
      rw [Ledger.performedWith]
      cases s'.handles.get? e.handle with
      | none => rfl
      | some i =>
        -- a freeze may ask for further values, on the next level; references are excluded
        -- by the rules
        cases hdeed : e.deed with
        | setValue v => rfl
        | freeze => exact frozenWith_eq fun d => ih d s' h' hs'
        | addReference => exact absurd hdeed hadd
        | removeReference => exact absurd hdeed hremove

/-- A plain computation leaves the ledger: its deeds only look. -/
theorem forced_eq (h : Counted s (K + L)) (hs : s.Plain) (c : CellId) :
    Ledger.forced c L s = some L :=
  forcedWithin_eq _ c s h hs

/-- Where values take no references, freezing a list of attributes changes no ledger. -/
theorem frozenEach_eq (h : Counted s (K + L)) (hs : s.Plain) (l : List SlotId) :
    Ledger.frozenEach l L s = some L :=
  inTurn_eq (K := K) (I := Plain) (fun _ _ hs hI => hI.of_onlyComputed hs) l
    (fun _ _ _ s hL h _ => freezeAttribute_runs hL h (named_any s) trivial)
    (fun _ _ _ h hs => frozenWith_eq (forced_eq h hs)) s h hs

/-- Where values take no references, freezing all that a record holds changes no ledger. -/
theorem closed_eq (h : Counted s (K + L)) (hs : s.Plain) (r : RecordId) :
    Ledger.closed r L s = some L := by
  have hentry : ∀ k ∈ Category.all, ∀ s, Counted s (K + L) → s.Plain →
      (fun L s => Ledger.frozenEach ((s.record r).attributes k).values L s : Entry) L s = some L :=
    fun k _ s h hs => frozenEach_eq h hs ((s.record r).attributes k).values
  refine inTurn_eq (K := K) (I := Plain) (fun _ _ hs hI => hI.of_onlyComputed hs) Category.all
    (fun k _ L' s hL h _ => ?_) hentry s h hs
  exact (frozenEach_runs hL h (named_any s) fun _ _ => trivial).congr
    (fun x _ hx => ⟨x, (freezeCategory_apply ..).trans hx⟩)
    fun _ _ he => (freezeCategory_apply ..).trans he

end Store

namespace Tracer

open Store

variable {t : Tracer} {L : Ledger} {c : Command}

/-- The commands that take or give up a reference by hand, or write an entry
past the collections. -/
def Command.ByHand : Command → Prop
  | .addReference _ | .removeReference _ | .insert .. => True
  | _ => False

/-- **The rules concern what is done by hand**: where computing deferred values
takes and gives up no references, any other command keeps to them. -/
theorem Reachable.ledgerAfter_eq (h : Reachable t L) (hs : t.store.Plain) (hc : ¬ c.ByHand) :
    t.ledgerAfter L c = some L := by
  have hcounted := h.books_cleared.counted
  have hplain : t.cleared.store.Plain := hs
  have hnamed : ∀ {α : Type} (x : Option α) {f : α → Option Ledger}, (∀ a, f a = some L) →
      x.elim (some L) f = some L := fun x f hf => by
    cases x
    · rfl
    · exact hf _
  cases c
  case force => exact hnamed _ (forced_eq hcounted hplain)
  case freezeAttribute => exact hnamed _ fun _ => frozenWith_eq (forced_eq hcounted hplain)
  case freeze => exact hnamed _ fun _ => closed_eq hcounted hplain _
  case intoRecord => exact hnamed _ fun _ => closed_eq hcounted hplain _
  case addReference => exact absurd trivial hc
  case removeReference => exact absurd trivial hc
  case insert => exact absurd trivial hc
  all_goals rfl

end Tracer
end Telemetry
