/-
# How much a pool holds

A pool compares with its capacity when it takes an item back, and with a
multiple of the capacity when its window ends; in between the capacity falls
while items stay.  What holds throughout is the weaker bound: a pool is within
the reclaim limit of its present capacity (`Pool.Within`).  It rests on one
fact about numbers, that the limit of a capacity is not below the capacity
(`Config.le_reclaimLimit`), and there an infinite threshold is the only
exception: of the capacity zero it makes a limit that is no number.

`Course.within_limit` carries the bound through a whole course of deeds.
-/

import Telemetry.Proofs.Courses
import Telemetry.Proofs.Rounding

namespace Telemetry
namespace Pool

open Numeric

variable {α : Type}

/-! ### One pool -/

/-- The threshold in force is at least one. -/
theorem Config.one_le_threshold (t : Binary64) :
    (Binary.ofNat 1 : Binary64).le (Binary.atLeast (.ofNat 1) t) = true := by
  unfold Binary.atLeast
  split_ifs with h
  · exact h
  · exact Binary.ofNat_le le_rfl

/-- **A capacity is within its own limit.** -/
theorem Config.le_reclaimLimit {c : Config} (hc : c.reclaimThreshold ≠ .infinity false)
    {n capacity : Nat} (h : n ≤ capacity) :
    Binary.le (.ofNat n) (c.reclaimLimit capacity) = true := by
  have hfinite : Binary.atLeast (.ofNat 1) c.reclaimThreshold ≠ .infinity false := by
    unfold Binary.atLeast
    split_ifs
    · exact hc
    · decide +kernel
  exact Binary.le_trans (Binary.ofNat_le h)
    (Binary.le_mul capacity (Config.one_le_threshold _) hfinite)

/-- What the pool stores is within the reclaim limit of its capacity. -/
def Within (q : Pool α) : Prop :=
  Binary.le (.ofNat q.stored.length) (q.config.reclaimLimit q.capacity) = true

/-- A pool that stores no more than its capacity is within its limit. -/
theorem within_of_length_le {q : Pool α} (hq : q.config.reclaimThreshold ≠ .infinity false)
    (h : q.stored.length ≤ q.capacity) : q.Within :=
  Config.le_reclaimLimit hq h

/-- Fewer items at the same capacity are within the limit, too. -/
theorem Within.of_fewer {q q' : Pool α} (h : q.Within) (hconfig : q'.config = q.config)
    (hcapacity : q'.capacity = q.capacity) (hstored : q'.stored.length ≤ q.stored.length) :
    q'.Within := by
  unfold Within
  rw [hconfig, hcapacity]
  exact Binary.le_trans (Binary.ofNat_le hstored) h

/-- Taking an item leaves the configuration. -/
@[simp] theorem take_config (q : Pool α) (isMarked : α → Bool) :
    (q.take isMarked).2.config = q.config := by
  unfold take
  cases q.stored <;> rfl

/-- Taking an item leaves the capacity. -/
theorem take_capacity (q : Pool α) (isMarked : α → Bool) :
    (q.take isMarked).2.capacity = q.capacity := by
  unfold take
  cases q.stored <;> rfl

/-- Taking an item removes the oldest one from the storage. -/
theorem take_stored_eq (q : Pool α) (isMarked : α → Bool) :
    (q.take isMarked).2.stored = q.stored.drop 1 := by
  unfold take
  cases q.stored <;> rfl

/-- A request counts, and as a miss if nothing is stored. -/
theorem take_window_eq (q : Pool α) (isMarked : α → Bool) :
    (q.take isMarked).2.window = q.window + ⟨1, 1 - q.stored.length, 0, 0⟩ := by
  unfold take
  cases q.stored with
  | nil => rfl
  | cons x rest => simp [Window.ext_iff]

/-- Offering an item leaves the configuration. -/
@[simp] theorem put_config (q : Pool α) (isMarked : Bool) (x : α) :
    (q.put isMarked x).2.config = q.config := by
  unfold put
  dsimp only
  split_ifs <;> rfl

/-- Offering an item leaves the capacity. -/
theorem put_capacity (q : Pool α) (isMarked : Bool) (x : α) :
    (q.put isMarked x).2.capacity = q.capacity := by
  unfold put
  dsimp only
  split_ifs <;> rfl

/-- **What is stored finds room.** -/
theorem length_le_of_put {q : Pool α} {isMarked : Bool} {x : α} (h : (q.put isMarked x).1 = none) :
    (q.put isMarked x).2.stored.length ≤ (q.put isMarked x).2.capacity := by
  unfold put at *
  dsimp only at *
  split_ifs at * with hmarked hroom
  · rw [List.length_append, List.length_singleton]
    exact hroom

/-- Taking keeps a pool within its limit, since it stores less afterwards. -/
theorem Within.take {q : Pool α} (h : q.Within) (isMarked : α → Bool) :
    (q.take isMarked).2.Within := by
  refine h.of_fewer (take_config q isMarked) (take_capacity q isMarked) ?_
  unfold Pool.take
  cases hs : q.stored with
  | nil => simp
  | cons x rest => simp

/-- Offering keeps a pool within its limit, since nothing is stored beyond the capacity. -/
theorem Within.put {q : Pool α} (h : q.Within) (hq : q.config.reclaimThreshold ≠ .infinity false)
    (isMarked : Bool) (x : α) : (q.put isMarked x).2.Within := by
  cases hr : (q.put isMarked x).1 with
  | none => exact within_of_length_le (by rwa [put_config]) (length_le_of_put hr)
  | some refusal =>
    refine h.of_fewer (put_config q isMarked x) ?_ ?_ <;>
    · unfold Pool.put at *
      dsimp only at *
      split_ifs at * <;> rfl

/-- **The end of a window restores the bound**, whatever the pool stored: it
keeps what is within the limit of the new capacity, or no more than this
capacity. -/
theorem within_tick {q : Pool α} (hq : q.config.reclaimThreshold ≠ .infinity false) :
    q.tick.2.2.Within := by
  set capacity := smoothedCapacity q.capacity q.window.takes with hcapacity
  have hstored : q.tick.2.2.stored = q.stored.drop (q.excess capacity) := rfl
  by_cases hlimit : Binary.le (.ofNat q.stored.length) (q.config.reclaimLimit capacity) = true
  · have hall : q.tick.2.2.stored = q.stored := by
      rw [hstored, excess, if_pos hlimit, List.drop_zero]
    unfold Within
    rw [hall]
    exact hlimit
  · refine within_of_length_le hq ?_
    rw [hstored, excess, if_neg hlimit, List.length_drop]
    show _ ≤ capacity
    omega

/-- What a pool becomes when something is done to it. -/
inductive Becomes (q : Pool α) : Pool α → Prop
  | takes (isMarked : α → Bool) : Becomes q (q.take isMarked).2
  | puts (isMarked : Bool) (x : α) : Becomes q (q.put isMarked x).2
  | ticks : Becomes q q.tick.2.2
  | empties : Becomes q { q with stored := [] }

/-- No operation changes the configuration of a pool. -/
theorem Becomes.config {q q' : Pool α} (h : q.Becomes q') : q'.config = q.config := by
  cases h with
  | takes isMarked => exact take_config q isMarked
  | puts isMarked x => exact put_config q isMarked x
  | ticks => rfl
  | empties => rfl

/-- Whatever a pool can become in one step is within its limit again. -/
theorem Becomes.within {q q' : Pool α} (h : q.Becomes q') (hw : q.Within)
    (hq : q.config.reclaimThreshold ≠ .infinity false) : q'.Within := by
  cases h with
  | takes isMarked => exact hw.take isMarked
  | puts isMarked x => exact hw.put hq isMarked x
  | ticks => exact within_tick hq
  | empties => exact hw.of_fewer rfl rfl (Nat.zero_le _)

end Pool

/-! ### All pools of a depot -/

namespace Depot

open Numeric

variable {d d' : Depot} {e : Deed} {es : List Deed} {p : PoolId} {i : ItemId}

/-- A pool that is replaced reads back as its replacement. -/
theorem pool_setPool (hp : p < d.shelves.size) (pool : Pool ItemId) :
    ((d.setPool p pool).shelf p).pool = pool := by
  rw [shelf_setPool, if_pos ⟨rfl, hp⟩]

/-- Taking from a pool of the depot takes from this pool. -/
theorem pool_take (hp : p < d.shelves.size) :
    ((d.take p).2.shelf p).pool = ((d.shelf p).pool.take d.isMarked).2 := by
  have hpool := pool_setPool hp ((d.shelf p).pool.take d.isMarked).2
  unfold take
  rcases ht : (d.shelf p).pool.take d.isMarked with ⟨i | - | i, pool⟩ <;> rw [ht] at hpool
  · exact hpool
  · dsimp only at *
    rw [shelf_make]
    split_ifs <;> exact hpool
  · exact hpool

/-- Offering to a pool of the depot offers to this pool. -/
theorem pool_put (hp : p < d.shelves.size) (i : ItemId) :
    ((d.put p i).2.shelf p).pool = ((d.shelf p).pool.put (d.isMarked i) i).2 := by
  have hpool := pool_setPool hp ((d.shelf p).pool.put (d.isMarked i) i).2
  unfold put
  rcases ht : (d.shelf p).pool.put (d.isMarked i) i with ⟨- | refusal, pool⟩ <;>
    rw [ht] at hpool <;>
    exact hpool

/-- The answer to an offer is the pool's. -/
theorem put_refusal (d : Depot) (p : PoolId) (i : ItemId) :
    (d.put p i).1 = ((d.shelf p).pool.put (d.isMarked i) i).1 := by
  unfold put
  rcases (d.shelf p).pool.put (d.isMarked i) i with ⟨- | refusal, pool⟩ <;> rfl

/-- What taking does, it does to the pool that was asked. -/
@[simp] theorem taking_pool (d : Depot) (p : PoolId) : (d.taking p).pool = p := by
  unfold taking
  split <;> rfl

/-- A deed leaves a pool alone or makes one of four things of it. -/
theorem Does.becomes (h : Does d e d') (hp : p < d.shelves.size) :
    (d'.shelf p).pool = (d.shelf p).pool ∨ (d.shelf p).pool.Becomes (d'.shelf p).pool := by
  -- a deed to another pool leaves this one, and each kind of deed is one that a pool can
  -- become
  by_cases hpool : p = e.pool
  · refine .inr ?_
    cases h with
    | opens shelf config hmade hconfig => exact absurd (hpool ▸ hp) (lt_irrefl _)
    | @takes q hq =>
      obtain rfl : p = q := hpool.trans (taking_pool d q)
      rw [pool_take hp]
      exact .takes _
    | @puts q i hq hi =>
      obtain rfl : p = q := hpool
      rw [pool_put hp]
      exact .puts _ _
    | @ticks q hq =>
      obtain rfl : p = q := hpool
      have hafter : ((d.tickPool p).2.shelf p).pool = (d.shelf p).pool.tick.2.2 := pool_setPool hp _
      rw [hafter]
      exact .ticks
    | @dissolves q hq =>
      obtain rfl : p = q := hpool
      have hafter : ((d.dissolve p).shelf p).pool = { (d.shelf p).pool with stored := [] } :=
        pool_setPool hp _
      rw [hafter]
      exact .empties
  · exact .inl (congrArg Shelf.pool (h.effect.others p hpool))

/-- Only a pool that is set up was not there before. -/
theorem Does.pool_lt (h : Does d e d') : e.pool < d.shelves.size ∨ e = .opened d.shelves.size := by
  cases h with
  | opens shelf config hmade hconfig => exact .inr rfl
  | takes hp => exact .inl (by rwa [taking_pool])
  | puts hp hi => exact .inl hp
  | ticks hp => exact .inl hp
  | dissolves hp => exact .inl hp

/-- A pool that was not there before stores nothing. -/
theorem Does.stored_of_new (h : Does d e d') (hp : d.shelves.size ≤ p) : d'.stored p = [] := by
  have hbefore : d.stored p = [] := by
    rw [stored, shelf_of_size_le hp]
    rfl
  by_cases hpool : p = e.pool
  · subst hpool
    rcases h.pool_lt with hlt | rfl
    · exact absurd hlt (Nat.not_lt.2 hp)
    · have hstorage := h.effect.storage
      rw [hbefore] at hstorage
      exact (List.append_eq_nil_iff.1 hstorage.symm).2
  · rw [stored, h.effect.others p hpool]
    exact hbefore

/-- The set-up of a pool stays what it is. -/
theorem Course.config (h : Course d es d') (hp : p < d.shelves.size) :
    (d'.shelf p).pool.config = (d.shelf p).pool.config := by
  induction h with
  | refl => rfl
  | quiet _ hitems hshelves ih => rw [shelf, hshelves, ← shelf, ih]
  | deed hrun he ih =>
    rcases he.becomes (hp.trans_le hrun.size_le.2) with hsame | hbecomes
    · rw [hsame, ih]
    · rw [hbecomes.config, ih]

/-- Over a whole course a pool stays within its limit, unless its threshold is positive
infinity. -/
theorem Course.within (h : Course {} es d) (p : PoolId)
    (ht : (d.shelf p).pool.config.reclaimThreshold ≠ .infinity false) :
    (d.shelf p).pool.Within := by
  have hempty : ∀ {d : Depot}, (d.shelf p).pool.config.reclaimThreshold ≠ .infinity false →
      d.stored p = [] → (d.shelf p).pool.Within := fun ht hs =>
    Pool.within_of_length_le ht ((congrArg List.length hs).trans_le (Nat.zero_le _))
  induction h with
  | refl => exact hempty ht (stored_empty p)
  | @quiet es d₁ d₂ _ _ hshelves ih =>
    have hshelf : d₂.shelf p = d₁.shelf p := by rw [shelf, shelf, hshelves]
    rw [hshelf] at ht ⊢
    exact ih ht
  | @deed es e d₁ d₂ _ he ih =>
    by_cases hp : p < d₁.shelves.size
    · rcases he.becomes hp with hsame | hbecomes
      · rw [hsame] at ht ⊢
        exact ih ht
      · rw [hbecomes.config] at ht
        exact hbecomes.within (ih ht) ht
    · exact hempty ht (he.stored_of_new (Nat.not_lt.1 hp))

/-- What is stored finds room, and no other pool than those of the depot
stores anything. -/
theorem length_le_of_stored (h : (d.put p i).1 = none) :
    ((d.put p i).2.stored p).length ≤ ((d.put p i).2.shelf p).pool.capacity := by
  rw [put_refusal] at h
  by_cases hp : p < d.shelves.size
  · rw [stored, pool_put hp]
    exact Pool.length_le_of_put h
  · rw [shelf_of_size_le (Nat.not_lt.1 hp)] at h
    unfold Pool.put at h
    dsimp only at h
    split_ifs at h with hmarked hroom
    exact absurd hroom (Nat.not_lt_zero _)

/-- **What a pool stores stays within its limit.**  After any course of deeds,
and so after any commands (`run_course`), whatever threshold a pool was set up
with, infinity excepted, it stores no more than the reclaim limit of its
present capacity, and once it has stored what it was offered no more than the
capacity itself.  What it was set up with is the same after any further course. -/
theorem Course.within_limit (h : Course {} es d) (p : PoolId)
    (ht : (d.shelf p).pool.config.reclaimThreshold ≠ .infinity false) :
    Binary.le (.ofNat (d.stored p).length)
        ((d.shelf p).pool.config.reclaimLimit (d.shelf p).pool.capacity) = true ∧
      (∀ i, (d.put p i).1 = none →
        ((d.put p i).2.stored p).length ≤ ((d.put p i).2.shelf p).pool.capacity) ∧
      ∀ fs d', Course d fs d' → p < d.shelves.size →
        (d'.shelf p).pool.config = (d.shelf p).pool.config :=
  ⟨h.within p ht, fun _ => length_le_of_stored, fun _ _ hfs hp => hfs.config hp⟩

/-- A pool with the threshold two after two windows, of which the second one was
idle. -/
def idled : Depot :=
  (({} : Depot).run [.setUp "a" "item" ⟨4, .ofNat 2⟩, .cycle "a" 4, .update "a", .update "a"]).2

/-- It keeps four items at the capacity two, and stores no further one. -/
theorem within_limit_idled :
    (∃ es, Course {} es idled) ∧ (idled.shelf 0).pool.config = ⟨4, .ofNat 2⟩ ∧
      (Binary.ofNat 2 : Binary64) ≠ .infinity false ∧
      (idled.stored 0).length = 4 ∧ (idled.shelf 0).pool.capacity = 2 ∧
      Binary.le (.ofNat 4) (Pool.Config.reclaimLimit ⟨4, .ofNat 2⟩ 2) = true := by
  obtain ⟨es, h⟩ := run_course
    [.setUp "a" "item" ⟨4, .ofNat 2⟩, .cycle "a" 4, .update "a", .update "a"]
  have hconfig : (idled.shelf 0).pool.config = ⟨4, .ofNat 2⟩ := by decide +kernel
  have hlength : (idled.stored 0).length = 4 := by decide +kernel
  have hcapacity : (idled.shelf 0).pool.capacity = 2 := by decide +kernel
  have hfinite : (Binary.ofNat 2 : Binary64) ≠ .infinity false := by decide +kernel
  have hlimit := (Course.within_limit (d := idled) h 0 (by rwa [hconfig])).1
  rw [hconfig, hlength, hcapacity] at hlimit
  exact ⟨⟨es, h⟩, hconfig, hfinite, hlength, hcapacity, hlimit⟩

end Depot
end Telemetry
