/-
# The accounts of a pool

A pool keeps its items in the order in which it stored them, and counts in its
windows what is done to it.  `Course.accounts` sums this up for a whole course:
what ever entered the storage of a pool is what left it, in that order, followed
by what is there; every window is the tally of the deeds between two ends of
windows (`Deed.spans`); and the windows together balance with the storage.

All of it follows from what single deeds change at the pool, by one induction
over the course (`Course.shelf_induction`).
-/

import Telemetry.Proofs.Ownership
import Mathlib.Algebra.BigOperators.Group.List.Basic
import Mathlib.Data.List.Induction

namespace Telemetry
namespace Depot

open Pool (Window)

variable {d d' : Depot} {e : Deed} {es ds : List Deed} {p : PoolId}

/-! ### What deeds come to -/

namespace Deed

/-- The window that the deed ends. -/
def ended : Deed → Option Window
  | closed _ update _ => some update.window
  | _ => none

/-- How many items the end of a window reclaims. -/
def reclaims : Deed → Nat
  | closed _ update _ => update.reclaimed
  | _ => 0

/-- The windows that ended, the oldest one first. -/
def windows (ds : List Deed) : List Window := ds.filterMap ended

/-- The deeds of each window, those since the last end of a window at the end. -/
def spans (ds : List Deed) : List (List Deed) := ds.splitOnP isClose

/-- What deeds add to windows. -/
def total (ds : List Deed) : Window := (ds.map tally).sum

/-- One deed more counts for one if it is of the kind that is counted. -/
theorem countP_concat (f : Deed → Bool) : (ds ++ [e]).countP f = ds.countP f + (f e).toNat := by
  cases h : f e <;> simp [h]

/-- Just the ends of windows end one. -/
theorem ended_eq_none_iff : e.ended = none ↔ e.isClose = false := by
  cases e <;> simp [ended, isClose]

/-- A deed that ends a window adds this window behind all earlier ones. -/
theorem windows_concat : windows (ds ++ [e]) = windows ds ++ e.ended.toList := by
  rw [windows, List.filterMap_append, ← windows]
  cases h : e.ended <;> simp [h]

/-- The end of a window adds nothing to the next one. -/
theorem tally_of_isClose (h : e.isClose = true) : e.tally = 0 := by
  match e, h with
  | closed _ _ _, _ => rfl

/-- Totals add up deed by deed. -/
theorem total_concat : total (ds ++ [e]) = total ds + e.tally := by
  simp [total]

/-- What deeds add to windows is told by counting them: takes, misses, returns and
overflows. -/
theorem total_eq (ds : List Deed) : total ds =
    ⟨ds.countP isTake, ds.countP isMiss, ds.countP isReturn, ds.countP isOverflow⟩ := by
  induction ds using List.reverseRecOn with
  | nil => rfl
  | append_singleton ds e ih =>
    simp only [total_concat, ih, countP_concat]
    rfl

/-- An offer that counts is stored or finds no room. -/
theorem countP_isReturn (ds : List Deed) :
    ds.countP isReturn = (ds.flatMap entering).length + ds.countP isOverflow := by
  induction ds with
  | nil => rfl
  | cons e ds ih =>
    rw [List.countP_cons, List.countP_cons, List.flatMap_cons, List.length_append, ih]
    match e with
    | offered _ _ none => simp [isReturn, isOverflow, entering]; omega
    | offered _ _ (some (.overflow _)) => simp [isReturn, isOverflow, entering]; omega
    | offered _ _ (some .alreadyPooled) => simp [isReturn, isOverflow, entering]
    | opened _ | lent _ _ | made _ _ | stuck _ _ | closed _ _ _ | gone _ _ =>
      simp [isReturn, isOverflow, entering]

/-- Ends of windows part deeds. -/
theorem spans_concat_of_isClose (h : e.isClose = true) : spans (ds ++ [e]) = spans ds ++ [[]] :=
  List.splitOnP_append_cons ds [] h

/-- Other deeds belong to the last window. -/
theorem spans_concat (ds : List Deed) (h : e.isClose = false) :
    ∃ front last, spans ds = front ++ [last] ∧ spans (ds ++ [e]) = front ++ [last ++ [e]] := by
  unfold spans
  induction ds with
  | nil => exact ⟨[], [], rfl, by simp [List.splitOnP_cons_eq_if_modifyHead, h]⟩
  | cons c ds ih =>
    obtain ⟨front, last, hds, hcons⟩ := ih
    rw [List.cons_append, List.splitOnP_cons_eq_if_modifyHead, List.splitOnP_cons_eq_if_modifyHead,
      hds, hcons]
    split_ifs
    · exact ⟨[] :: front, last, rfl, rfl⟩
    · cases front with
      | nil => exact ⟨[], c :: last, rfl, rfl⟩
      | cons first front => exact ⟨(c :: first) :: front, last, rfl, rfl⟩

/-- Every deed is in one window. -/
theorem sum_spans (ds : List Deed) : ((spans ds).map total).sum = total ds := by
  induction ds using List.reverseRecOn with
  | nil => rfl
  | append_singleton ds e ih =>
    rw [total_concat]
    cases h : e.isClose with
    | true =>
      rw [spans_concat_of_isClose h, List.map_append, List.sum_append, ih, tally_of_isClose h]
      rfl
    | false =>
      obtain ⟨front, last, hspans, hconcat⟩ := spans_concat ds h
      rw [hspans, List.map_append, List.sum_append] at ih
      rw [hconcat, List.map_append, List.sum_append, ← ih]
      simp [total_concat, add_assoc]

end Deed

/-! ### From deeds to courses -/

/-- The deeds that are done to a pool. -/
def doneTo (p : PoolId) (es : List Deed) : List Deed := es.filter fun e => e.pool == p

/-- What the deeds done to a pool make of its shelf. -/
theorem Course.shelf_induction {P : List Deed → Shelf → Prop} (h : Course {} es d) (p : PoolId)
    (start : P [] default)
    (deed : ∀ ds (d : Depot) e d', e.pool = p → Effect d e d' → P ds (d.shelf p) →
      P (ds ++ [e]) (d'.shelf p)) : P (doneTo p es) (d.shelf p) := by
  induction h with
  | refl =>
    rw [shelf_of_size_le (Nat.zero_le p)]
    exact start
  | @quiet es d₁ d₂ _ _ hshelves ih =>
    have hshelf : d₂.shelf p = d₁.shelf p := by rw [shelf, shelf, hshelves]
    rwa [hshelf]
  | @deed es e d₁ d₂ _ he ih =>
    by_cases hp : e.pool = p
    · have hdone : doneTo p (es ++ [e]) = doneTo p es ++ [e] := by simp [doneTo, hp]
      rw [hdone]
      exact deed _ d₁ e d₂ hp he.effect ih
    · have hdone : doneTo p (es ++ [e]) = doneTo p es := by simp [doneTo, hp]
      rw [hdone, he.effect.others p (Ne.symm hp)]
      exact ih

/-- What entered a storage left it in the same order, or is there. -/
theorem Course.entered_eq (h : Course {} es d) (p : PoolId) :
    (doneTo p es).flatMap Deed.entering = (doneTo p es).flatMap Deed.leaving ++ d.stored p := by
  refine h.shelf_induction p
    (P := fun ds s => ds.flatMap Deed.entering = ds.flatMap Deed.leaving ++ s.pool.stored) rfl ?_
  rintro ds d e d' rfl he ih
  have hstorage : (d.shelf e.pool).pool.stored ++ e.entering =
      e.leaving ++ (d'.shelf e.pool).pool.stored := he.storage
  simp only [List.flatMap_append, List.flatMap_singleton, ih, List.append_assoc, hstorage]

/-- A window that ends is the open one. -/
theorem Effect.ended_eq (h : Effect d e d') (hclose : e.isClose = true) :
    e.ended = some (d.window e.pool) := by
  match e, h.permitted, hclose with
  | .closed p update given, hpermitted, _ => exact congrArg some hpermitted.1

/-- Each window is the tally of its deeds. -/
theorem Course.windows_eq (h : Course {} es d) (p : PoolId) :
    Deed.windows (doneTo p es) ++ [d.window p] = (Deed.spans (doneTo p es)).map Deed.total := by
  refine h.shelf_induction p
    (P := fun ds s => Deed.windows ds ++ [s.pool.window] = (Deed.spans ds).map Deed.total) rfl ?_
  rintro ds d e d' rfl he ih
  show Deed.windows (ds ++ [e]) ++ [d'.window e.pool] = _
  change Deed.windows ds ++ [d.window e.pool] = _ at ih
  rw [Deed.windows_concat, he.window]
  cases hclose : e.isClose with
  | true =>
    -- the window ends, and a new one is open
    rw [he.ended_eq hclose, Deed.spans_concat_of_isClose hclose, List.map_append, ← ih]
    rfl
  | false =>
    -- the deed counts in the open window
    obtain ⟨front, last, hspans, hconcat⟩ := Deed.spans_concat ds hclose
    rw [hspans, List.map_append] at ih
    obtain ⟨hfront, hlast⟩ := List.append_inj' ih rfl
    have hopen : d.window e.pool = Deed.total last := List.singleton_inj.1 hlast
    rw [hconcat, List.map_append, List.map_singleton, Deed.total_concat, ← hfront, ← hopen,
      Deed.ended_eq_none_iff.2 hclose]
    simp

/-- A pool has made an item for each of its misses. -/
theorem Course.made_eq (h : Course {} es d) (p : PoolId) :
    (d.shelf p).made = (doneTo p es).countP Deed.isMiss := by
  refine h.shelf_induction p (P := fun ds s => s.made = ds.countP Deed.isMiss) rfl ?_
  rintro ds d e d' rfl he ih
  rw [he.made, ih, Deed.countP_concat]

/-- What leaves a storage is taken from it or reclaimed, as long as the pool is
not given up. -/
theorem Effect.length_leaving (h : Effect d e d') (hgone : ∀ p lost, e ≠ .gone p lost) :
    e.leaving.length + e.isMiss.toNat = e.isTake.toNat + e.reclaims := by
  match e, h.permitted with
  | .closed _ update given, hpermitted =>
    have hreclaimed : update.reclaimed = given.length := hpermitted.2
    simp [Deed.leaving, Deed.isMiss, Deed.isTake, Deed.reclaims, hreclaimed]
  | .gone p lost, _ => exact absurd rfl (hgone p lost)
  | .opened _, _ | .lent _ _, _ | .made _ _, _ | .stuck _ _, _ | .offered _ _ _, _ => rfl

/-- What a pool stores is what came in, less what was taken out of the storage and what was
reclaimed. -/
theorem Course.length_stored (h : Course {} es d) (hgone : ∀ lost, .gone p lost ∉ es) :
    (d.stored p).length + (doneTo p es).countP Deed.isTake + ((doneTo p es).map Deed.reclaims).sum =
      ((doneTo p es).flatMap Deed.entering).length + (doneTo p es).countP Deed.isMiss := by
  have hds : ∀ q lost, .gone q lost ∉ doneTo p es := by
    intro q lost hmem
    obtain ⟨hes, hpool⟩ := List.mem_filter.1 hmem
    obtain rfl : q = p := beq_iff_eq.1 hpool
    exact hgone lost hes
  refine h.shelf_induction p (P := fun ds s => (∀ q lost, .gone q lost ∉ ds) →
    s.pool.stored.length + ds.countP Deed.isTake + (ds.map Deed.reclaims).sum =
      (ds.flatMap Deed.entering).length + ds.countP Deed.isMiss) (fun _ => rfl) ?_ hds
  rintro ds d e d' rfl he ih hds
  have hstorage : (d.shelf e.pool).pool.stored.length + e.entering.length =
      e.leaving.length + (d'.shelf e.pool).pool.stored.length := by
    have hlength := congrArg List.length he.storage
    rwa [List.length_append, List.length_append] at hlength
  have hleaving := he.length_leaving fun p lost h => hds p lost (h ▸ by simp)
  have hbefore := ih fun q lost hmem => hds q lost (List.mem_append_left _ hmem)
  simp only [Deed.countP_concat, List.map_append, List.map_singleton, List.sum_append,
    List.sum_singleton, List.flatMap_append, List.flatMap_singleton, List.length_append]
  omega

/-- **The accounts of a pool balance.**  After any course of deeds what entered
the storage of a pool is what left it, in that order, followed by what is there.
Each window that ended, and the open one, is the tally of the deeds done to the
pool between two ends of windows.  Together the windows count every request for
an item, every item made for the pool, and every offer but those that are
refused as misuse; and as long as the pool is not given up, what it stores is
what it took back without what it lent out of its storage and what it reclaimed. -/
theorem Course.accounts (h : Course {} es d) (p : PoolId) :
    let ds := doneTo p es
    let windows := Deed.windows ds ++ [d.window p]
    ds.flatMap Deed.entering = ds.flatMap Deed.leaving ++ d.stored p ∧
      windows = (Deed.spans ds).map Deed.total ∧
      windows.sum.takes = ds.countP Deed.isTake ∧
      windows.sum.misses = (d.shelf p).made ∧
      windows.sum.returns = (ds.flatMap Deed.entering).length + windows.sum.overflow ∧
      ((∀ lost, .gone p lost ∉ es) → ((d.stored p).length : ℤ) =
        (windows.sum.returns - windows.sum.overflow) - (windows.sum.takes - windows.sum.misses) -
          (ds.map Deed.reclaims).sum) := by
  have htotal : (Deed.windows (doneTo p es) ++ [d.window p]).sum = _ :=
    (congrArg List.sum (h.windows_eq p)).trans ((Deed.sum_spans _).trans (Deed.total_eq _))
  refine ⟨h.entered_eq p, h.windows_eq p, ?_, ?_, ?_, fun hgone => ?_⟩ <;> rw [htotal]
  · exact (h.made_eq p).symm
  · exact Deed.countP_isReturn _
  · have hreturns := Deed.countP_isReturn (doneTo p es)
    have hstored := h.length_stored hgone
    dsimp only
    omega

/-- The pool is offered its item once more and lends it before its window ends. -/
theorem accounts_shelved :
    let d := (shelved.run [.put "a" "x" true, .take "a" "y", .update "a"]).2
    let es : List Deed := [.opened 0, .opened 1, .made 0 0, .offered 0 0 none,
      .offered 0 0 (some .alreadyPooled), .lent 0 0, .closed 0 ⟨⟨2, 1, 1, 0⟩, 1, 1, 0⟩ []]
    Course {} es d ∧ [0] = [0] ++ d.stored 0 ∧
      [⟨2, 1, 1, 0⟩, d.window 0] = (Deed.spans (doneTo 0 es)).map Deed.total ∧
      ((d.stored 0).length : ℤ) = (1 - 0) - (2 - 1) - 0 := by
  -- the course goes on from `shelved_course`: one deed for each of the commands
  have offered : Course shelved [.offered 0 0 (some .alreadyPooled)] _ :=
    .single (.puts (p := 0) (i := 0) (by decide) (by decide))
  have lent : Course shelved [.offered 0 0 (some .alreadyPooled), .lent 0 0]
      (shelved.run [.put "a" "x" true, .take "a" "y"]).2 :=
    (offered.deed (.takes (p := 0) (by decide))).quiet rfl rfl
  have closed : Course shelved [.offered 0 0 (some .alreadyPooled), .lent 0 0,
      .closed 0 ⟨⟨2, 1, 1, 0⟩, 1, 1, 0⟩ []]
      (shelved.run [.put "a" "x" true, .take "a" "y", .update "a"]).2 := by
    -- what the end of the window reports and reclaims has to be computed
    have hclosed := lent.deed (.ticks (p := 0) (by decide))
    have hupdate : ((shelved.run [.put "a" "x" true, .take "a" "y"]).2.tickPool 0).1 =
        ⟨⟨2, 1, 1, 0⟩, 1, 1, 0⟩ := by decide +kernel
    have hgiven :
        ((shelved.run [.put "a" "x" true, .take "a" "y"]).2.shelf 0).pool.tick.2.1 = [] := by
      decide +kernel
    rw [hupdate, hgiven] at hclosed
    exact hclosed.quiet rfl rfl
  have final := shelved_course.trans closed
  obtain ⟨horder, hwindows, -, -, -, hbalance⟩ := final.accounts 0
  exact ⟨final, horder, hwindows, hbalance (by simp)⟩

end Depot
end Telemetry
