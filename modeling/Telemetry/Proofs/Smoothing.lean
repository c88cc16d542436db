/-
# How a capacity follows the demand

At the end of a window the capacity of a pool becomes the average of what it was
and of the number of items taken, rounded down.  Halved before they are added,
two machine words never make a sum that is none (`smoothed?_eq`).

Over many windows of one demand the distance from it is halved each time and
rounded towards minus infinity (`foldl_smoothed`): from above the capacity
reaches the demand, from below it stays one short of it for ever.  Windows of
different demands keep it within the range of what it was and of what they ask
for.  `Course.smooths` says so of every pool, whatever else is done to it.
-/

import Telemetry.Proofs.Accounts
import Telemetry.Proofs.Limits

namespace Telemetry
namespace Pool

/-! ### The average of two numbers -/

/-- The smoothed capacity is the mean, rounded down. -/
theorem smoothedCapacity_eq (old takes : Nat) : smoothedCapacity old takes = (old + takes) / 2 := by
  unfold smoothedCapacity
  omega

/-- The sum of two machine words, if it is a machine word. -/
def sum? (a b : UInt64) : Option UInt64 :=
  if a.toNat + b.toNat < UInt64.size then some (a + b) else none

/-- The smoothed capacity in machine words, as long as every sum on the way to
it is one. -/
def smoothed? (old takes : UInt64) : Option UInt64 := do
  let halves ← sum? (old / 2) (takes / 2)
  let odd ← sum? (old % 2) (takes % 2)
  sum? halves (odd / 2)

/-- A sum that is small enough is a machine word. -/
theorem sum?_eq {a b : UInt64} (h : a.toNat + b.toNat < UInt64.size) :
    ∃ c, sum? a b = some c ∧ c.toNat = a.toNat + b.toNat :=
  ⟨a + b, if_pos h, by rw [UInt64.toNat_add]; exact Nat.mod_eq_of_lt h⟩

/-- **No sum on the way is too great for a machine word.** -/
theorem smoothed?_eq (old takes : UInt64) :
    ∃ c, smoothed? old takes = some c ∧
      c.toNat = smoothedCapacity old.toNat takes.toNat := by
  have hold := old.toNat_lt
  have htakes := takes.toNat_lt
  have hsize : UInt64.size = 2 ^ 64 := rfl
  obtain ⟨halves, hhalves, hhalf⟩ := sum?_eq (a := old / 2) (b := takes / 2) (by simp; omega)
  obtain ⟨odd, hodd, hrest⟩ := sum?_eq (a := old % 2) (b := takes % 2) (by simp; omega)
  simp only [UInt64.toNat_div, UInt64.toNat_mod, UInt64.reduceToNat] at hhalf hrest
  obtain ⟨c, hc, hsum⟩ := sum?_eq (a := halves) (b := odd / 2) (by simp; omega)
  refine ⟨c, by simp [smoothed?, hhalves, hodd, hc], ?_⟩
  simp only [UInt64.toNat_div, UInt64.reduceToNat] at hsum
  rw [hsum, hhalf, hrest]
  rfl

/-! ### Many windows -/

/-- One window halves the distance from the demand, rounded down. -/
theorem smoothedCapacity_sub (c demand : Nat) :
    (smoothedCapacity c demand : ℤ) - demand = ((c : ℤ) - demand) / 2 := by
  rw [smoothedCapacity_eq]
  omega

/-- **Each window halves the distance from a lasting demand.** -/
theorem foldl_smoothed (demand n : Nat) : ∀ c : Nat,
    (((List.replicate n demand).foldl smoothedCapacity c : Nat) : ℤ) =
      demand + ((c : ℤ) - demand) / 2 ^ n := by
  induction n with
  | zero => intro c; simp
  | succ n ih =>
    intro c
    rw [List.replicate_succ, List.foldl_cons, ih, smoothedCapacity_sub,
      Int.ediv_ediv_of_nonneg (by omega), pow_succ']

/-- A capacity stays in the range of the demands and of where it started. -/
theorem foldl_smoothed_between (lo hi : Nat) (takes : List Nat) :
    ∀ c : Nat, (∀ t ∈ c :: takes, lo ≤ t ∧ t ≤ hi) →
      lo ≤ takes.foldl smoothedCapacity c ∧ takes.foldl smoothedCapacity c ≤ hi := by
  induction takes with
  | nil => exact fun c h => h c List.mem_cons_self
  | cons t takes ih =>
    intro c h
    refine ih _ fun s hs => ?_
    rcases List.mem_cons.1 hs with rfl | hs
    · have hc := h c (by simp)
      have ht := h t (by simp)
      rw [smoothedCapacity_eq]
      omega
    · exact h s (by simp [hs])

/-- What windows make of a capacity, in each of which so many items were taken. -/
structure Smooths (c : Nat) (takes : List Nat) (c' : Nat) : Prop where
  /-- With a lasting demand, the distance from it is halved each time. -/
  lasting : ∀ demand : Nat, (∀ t ∈ takes, t = demand) →
    (c' : ℤ) = demand + ((c : ℤ) - demand) / 2 ^ takes.length
  /-- From above the capacity falls to the demand. -/
  falls : ∀ demand : Nat, (∀ t ∈ takes, t = demand) → demand ≤ c →
    demand ≤ c' ∧ c' ≤ c ∧ (c - demand < 2 ^ takes.length → c' = demand)
  /-- From below it rises, and is one short of the demand in the end. -/
  rises : ∀ demand : Nat, (∀ t ∈ takes, t = demand) → c < demand →
    c ≤ c' ∧ c' < demand ∧ (demand - c ≤ 2 ^ takes.length → c' + 1 = demand)
  /-- Whatever the demand, the capacity is not beyond all that was asked for. -/
  between : ∀ lo hi, (∀ t ∈ c :: takes, lo ≤ t ∧ t ≤ hi) → lo ≤ c' ∧ c' ≤ hi

/-- Windows in turn smooth the capacity, in numbers and in machine words. -/
theorem smooths_foldl (c : Nat) (takes : List Nat) :
    Smooths c takes (takes.foldl smoothedCapacity c) := by
  have hlasting : ∀ demand : Nat, (∀ t ∈ takes, t = demand) →
      ((takes.foldl smoothedCapacity c : Nat) : ℤ) =
        demand + ((c : ℤ) - demand) / 2 ^ takes.length := by
    intro demand hdemand
    -- a lasting demand is so many equal windows, each of which halves the distance
    rw [← foldl_smoothed demand takes.length c, ← List.eq_replicate_length.2 hdemand]
  have hpow : (0 : ℤ) < 2 ^ takes.length := Int.pow_pos (by decide)
  have hcast : ((2 ^ takes.length : Nat) : ℤ) = 2 ^ takes.length := by simp
  constructor
  case lasting => exact hlasting
  case falls =>
    intro demand hdemand hle
    obtain ⟨hlo, hhi⟩ := foldl_smoothed_between demand c takes c (by grind)
    refine ⟨hlo, hhi, fun hnear => ?_⟩
    -- the distance is less than the power of two, so nothing is left of it
    have hzero : ((c : ℤ) - demand) / 2 ^ takes.length = 0 :=
      Int.ediv_eq_zero_of_lt (by omega) (by omega)
    have h := hlasting demand hdemand
    omega
  case rises =>
    intro demand hdemand hlt
    have h := hlasting demand hdemand
    -- from below, a unit of the distance always remains, for halves are rounded down
    have hneg : ((c : ℤ) - demand) / 2 ^ takes.length < 0 :=
      Int.ediv_neg_of_neg_of_pos (by omega) hpow
    obtain ⟨hlo, -⟩ := foldl_smoothed_between c demand takes c (by grind)
    refine ⟨hlo, by omega, fun hnear => ?_⟩
    have hone : -1 ≤ ((c : ℤ) - demand) / 2 ^ takes.length := by
      rw [Int.le_ediv_iff_mul_le hpow]
      omega
    omega
  case between => exact fun lo hi => foldl_smoothed_between lo hi takes c

end Pool

namespace Depot

variable {d d' : Depot} {e : Deed} {es : List Deed} {p : PoolId}

/-! ### Every pool of a depot -/

/-- How many items were taken from a pool in each of its windows that ended. -/
def demands (p : PoolId) (es : List Deed) : List Nat :=
  (Deed.windows (doneTo p es)).map (·.takes)

/-- Demands come from both parts of a course. -/
theorem demands_append (p : PoolId) (es fs : List Deed) :
    demands p (es ++ fs) = demands p es ++ demands p fs := by
  simp [demands, doneTo, Deed.windows]

/-- Deeds to another pool add no demand. -/
theorem demands_of_ne (h : e.pool ≠ p) : demands p [e] = [] := by
  simp [demands, doneTo, Deed.windows, h]

/-- A deed that ends no window adds none. -/
theorem demands_of_ended (h : e.ended = none) : demands p [e] = [] := by
  by_cases hp : e.pool = p <;> simp [demands, doneTo, Deed.windows, hp, h]

/-- Taking ends no window. -/
theorem taking_ended (d : Depot) (p : PoolId) : (d.taking p).ended = none := by
  unfold taking
  split <;> rfl

/-- The end of a window adds what was taken in it. -/
theorem demands_closed (d : Depot) (p : PoolId) (given : List ItemId) :
    demands p [.closed p (d.tickPool p).1 given] = [(d.window p).takes] := by
  simp [demands, doneTo, Deed.windows, Deed.ended, Deed.pool, tickPool, Pool.tick, window]

/-- Only the end of a window changes the capacity of a pool. -/
theorem Does.capacity (h : Does d e d') (hp : p < d.shelves.size) :
    (d'.shelf p).pool.capacity =
      (demands p [e]).foldl Pool.smoothedCapacity (d.shelf p).pool.capacity := by
  -- only the end of a window of this pool changes its capacity
  by_cases hpool : e.pool = p
  · cases h with
    | opens shelf config hmade hconfig => exact absurd (hpool.symm ▸ hp) (lt_irrefl _)
    | @takes q hq =>
      obtain rfl : q = p := (taking_pool d q).symm.trans hpool
      rw [pool_take hq, Pool.take_capacity, demands_of_ended (taking_ended d q)]
      rfl
    | @puts q i hq hi =>
      obtain rfl : q = p := hpool
      rw [pool_put hq, Pool.put_capacity, demands_of_ended rfl]
      rfl
    | @ticks q hq =>
      obtain rfl : q = p := hpool
      have hafter : ((d.tickPool q).2.shelf q).pool = (d.shelf q).pool.tick.2.2 := pool_setPool hq _
      rw [hafter, demands_closed]
      rfl
    | @dissolves q hq =>
      obtain rfl : q = p := hpool
      have hafter : ((d.dissolve q).shelf q).pool = { (d.shelf q).pool with stored := [] } :=
        pool_setPool hq _
      rw [hafter, demands_of_ended rfl]
      rfl
  · rw [h.effect.others p (Ne.symm hpool), demands_of_ne hpool]
    rfl

/-- **The capacity is what the windows that ended made of it.** -/
theorem Course.capacity_eq (h : Course d es d') (hp : p < d.shelves.size) :
    (d'.shelf p).pool.capacity =
      (demands p es).foldl Pool.smoothedCapacity (d.shelf p).pool.capacity := by
  induction h with
  | refl => rfl
  | quiet _ hitems hshelves ih => rw [shelf, hshelves, ← shelf, ih]
  | deed hrun he ih =>
    rw [he.capacity (hp.trans_le hrun.size_le.2), ih, demands_append, List.foldl_append]

/-- Any number of items can be taken from a pool. -/
theorem exists_takes (n : Nat) : ∀ {d : Depot}, p < d.shelves.size →
    ∃ es d', Course d es d' ∧ demands p es = [] ∧
      (d'.window p).takes = (d.window p).takes + n := by
  induction n with
  | zero => exact fun _ => ⟨[], _, .refl, rfl, rfl⟩
  | succ n ih =>
    intro d hp
    have hfirst : Course d [d.taking p] (d.take p).2 := .single (.takes hp)
    obtain ⟨es, d', hes, hdemands, htakes⟩ := ih (hp.trans_le hfirst.size_le.2)
    have hwindow : ((d.take p).2.window p).takes = (d.window p).takes + 1 := by
      rw [window, pool_take hp, Pool.take_window_eq]
      rfl
    refine ⟨_, d', hfirst.trans hes, ?_, by omega⟩
    rw [demands_append, hdemands, demands_of_ended (taking_ended d p)]
    rfl

/-- Any demand can last for any number of windows. -/
theorem exists_demands (demand n : Nat) : ∀ {d : Depot}, p < d.shelves.size →
    (d.window p).takes = 0 →
      ∃ es d', Course d es d' ∧ demands p es = List.replicate n demand := by
  induction n with
  | zero => exact fun _ _ => ⟨[], _, .refl, rfl⟩
  | succ n ih =>
    intro d hp hopen
    obtain ⟨es, d₁, hes, hdemands, htakes⟩ := exists_takes demand hp
    have hp₁ := hp.trans_le hes.size_le.2
    have hclosed := hes.deed (.ticks hp₁)
    have hfresh : ((d₁.tickPool p).2.window p).takes = 0 :=
      congrArg (·.window.takes) (pool_setPool hp₁ (d₁.shelf p).pool.tick.2.2)
    obtain ⟨fs, d', hfs, hothers⟩ := ih (hp.trans_le hclosed.size_le.2) hfresh
    refine ⟨_, d', hclosed.trans hfs, ?_⟩
    rw [demands_append, demands_append, hdemands, demands_closed, hothers, htakes, hopen]
    simp [List.replicate_succ]

/-- **A capacity follows the demand.**  The average is the exact one, rounded down,
and machine words suffice for it.  Through any course of deeds, and so through
any commands (`run_leads`), the capacity of a pool changes when windows end, and
only then.  If as many items were taken in each of them, its distance from this
demand is halved with every window and rounded towards minus infinity; so it
falls to the demand or rises to one less, and never moves away.  In any case it
stays within the range of what it was and of what was taken.  Every demand can
last for any number of windows. -/
theorem Course.smooths (h : Course d es d') (hp : p < d.shelves.size) :
    (∀ old takes : UInt64, ∃ c, Pool.smoothed? old takes = some c ∧
        c.toNat = Pool.smoothedCapacity old.toNat takes.toNat ∧
        c.toNat = (old.toNat + takes.toNat) / 2) ∧
      Pool.Smooths (d.shelf p).pool.capacity (demands p es) (d'.shelf p).pool.capacity ∧
      ∀ demand n, (d'.window p).takes = 0 →
        ∃ fs d'', Course d' fs d'' ∧ demands p fs = List.replicate n demand := by
  refine ⟨fun old takes => ?_, ?_, fun demand n =>
    exists_demands demand n (hp.trans_le h.size_le.2)⟩
  · obtain ⟨c, hc, hcapacity⟩ := Pool.smoothed?_eq old takes
    exact ⟨c, hc, hcapacity, hcapacity.trans (Pool.smoothedCapacity_eq _ _)⟩
  · rw [h.capacity_eq hp]
    exact Pool.smooths_foldl _ _

/-- With the capacity zero and a demand of two in each of two windows the
capacity rises to one, and stays there. -/
theorem smooths_short :
    let d : Depot := (({} : Depot).run [.setUp "a" "item" (.ofCapacity 0)]).2
    0 < d.shelves.size ∧ (d.shelf 0).pool.capacity = 0 ∧
      ∃ es d', Course d es d' ∧ demands 0 es = [2, 2] ∧ (d'.shelf 0).pool.capacity = 1 := by
  intro d
  have hp : 0 < d.shelves.size := by decide
  have hcapacity : (d.shelf 0).pool.capacity = 0 := by decide
  obtain ⟨es, d', hes, hdemands⟩ := exists_demands 2 2 hp (by decide)
  obtain ⟨-, hsmooths, -⟩ := Course.smooths hes hp
  rw [hdemands, hcapacity] at hsmooths
  obtain ⟨-, -, hshort⟩ := hsmooths.rises 2 (by simp) (by decide)
  exact ⟨hp, hcapacity, es, d', hes, hdemands, Nat.succ.inj (hshort (by decide))⟩

end Depot
end Telemetry
