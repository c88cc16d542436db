/-
# Recycling pools

A pool lends items and takes them back.  It counts what happens in a window,
and at the end of a window it moves its capacity half way towards the number
of items taken in it and discards the oldest items that are too many.

Whether an item is in a pool's storage is marked at the item itself, which may
be shared; an operation that depends on the mark is told what it says.
-/

import Telemetry.Event
import Telemetry.Numeric.Layout

namespace Telemetry

open Numeric

namespace Pool

/-- How a pool is set up. -/
structure Config where
  initialCapacity : Nat
  /-- How many times its capacity a pool may hold before a tick discards
  items. -/
  reclaimThreshold : Binary64
  deriving DecidableEq, Inhabited

namespace Config

/-- A set-up with the usual threshold of six fifths. -/
def ofCapacity (n : Nat) : Config := ⟨n, .ofFraction 6 5⟩

/-- The usual set-up. -/
def standard : Config := ofCapacity 100

/-- The set-up of a small pool. -/
def small : Config := ofCapacity 8

/-- How many items a pool of a capacity may hold after a tick; thresholds
below one, and those that are no number, count as one. -/
def reclaimLimit (c : Config) (capacity : Nat) : Binary64 :=
  (Binary.ofNat capacity).mul (Binary.atLeast (.ofNat 1) c.reclaimThreshold)

/-- A set-up for inspection. -/
def inspect (c : Config) : String :=
  "PoolConfig \x7b initial_capacity: " ++ toString c.initialCapacity ++ ", reclaim_threshold: " ++
    Layout.inspect.text c.reclaimThreshold ++ " \x7d"

end Config

/-- What happened in a window. -/
structure Window where
  takes : Nat := 0
  misses : Nat := 0
  returns : Nat := 0
  overflow : Nat := 0
  deriving DecidableEq, Inhabited

/-- The end of a window. -/
structure Update where
  window : Window
  oldCapacity : Nat
  newCapacity : Nat
  reclaimed : Nat
  deriving DecidableEq, Inhabited

/-- The event that reports the end of a window. -/
def Update.event (u : Update) : Event :=
  .windowClosed u.window.takes u.window.misses u.window.returns u.window.overflow u.reclaimed
    u.oldCapacity u.newCapacity

/-- A pool at a moment. -/
structure Stats where
  window : Window
  capacity : Nat
  available : Nat
  deriving DecidableEq, Inhabited

/-- Why an item did not get into a pool. -/
inductive Refusal where
  /-- The item is marked as being in a pool. -/
  | alreadyPooled
  /-- The pool of this capacity is full. -/
  | overflow (capacity : Nat)
  deriving DecidableEq

namespace Refusal

/-- The text of a refusal. -/
def message : Refusal → String
  | alreadyPooled => "item is already pooled"
  | overflow n => "pool is at capacity (" ++ toString n ++ "); item dropped"

/-- Whether the refusal is the caller's fault. -/
def isMisuse : Refusal → Bool
  | alreadyPooled => true
  | overflow _ => false

end Refusal

/-- What comes out of a request for an item. -/
inductive Taken (α : Type) where
  /-- An item out of the storage, its mark to be cleared. -/
  | reused (x : α)
  /-- The storage is empty; the item has to be made. -/
  | missed
  /-- An item out of the storage without its mark, which cannot be lent. -/
  | unmarked (x : α)

/-- The capacity half way between the present one and the number of items
taken; halving first, it stays within the machine's whole numbers. -/
def smoothedCapacity (old takes : Nat) : Nat := old / 2 + takes / 2 + (old % 2 + takes % 2) / 2

end Pool

/-- A pool of items, the oldest one in storage first. -/
structure Pool (α : Type) where
  config : Pool.Config
  capacity : Nat
  window : Pool.Window := {}
  stored : List α := []
  deriving Inhabited

namespace Pool

variable {α : Type}

/-- A pool without items. -/
def ofConfig (c : Config) : Pool α := { config := c, capacity := c.initialCapacity }

/-- The pool at this moment. -/
def stats (p : Pool α) : Stats := ⟨p.window, p.capacity, p.stored.length⟩

/-- Lends the oldest item, if there is one. -/
def take (p : Pool α) (isMarked : α → Bool) : Taken α × Pool α :=
  let w := { p.window with takes := p.window.takes + 1 }
  match p.stored with
  | [] => (.missed, { p with window := { w with misses := w.misses + 1 } })
  | x :: rest =>
    (if isMarked x then .reused x else .unmarked x, { p with window := w, stored := rest })

/-- Takes an item back. -/
def put (p : Pool α) (isMarked : Bool) (x : α) : Option Refusal × Pool α :=
  if isMarked then (some .alreadyPooled, p)
  else
    let w := { p.window with returns := p.window.returns + 1 }
    if p.stored.length < p.capacity then
      (none, { p with window := w, stored := p.stored ++ [x] })
    else
      (some (.overflow p.capacity), { p with window := { w with overflow := w.overflow + 1 } })

/-- The event that a refusal causes; only an overflow is reported. -/
def Refusal.events : Option Refusal → List Event
  | some (.overflow n) => [.itemOverflow n]
  | _ => []

/-- How many items a pool of a new capacity has to give up: none while it is
within the limit, else all beyond the capacity. -/
def excess (p : Pool α) (capacity : Nat) : Nat :=
  if Binary.le (.ofNat p.stored.length) (p.config.reclaimLimit capacity) then 0
  else p.stored.length - capacity

/-- Ends the window; the items given up come with the result, the oldest one
first. -/
def tick (p : Pool α) : Update × List α × Pool α :=
  let new := smoothedCapacity p.capacity p.window.takes
  let n := p.excess new
  ({ window := p.window, oldCapacity := p.capacity, newCapacity := new, reclaimed := n },
    p.stored.take n,
    { p with window := {}, capacity := new, stored := p.stored.drop n })

/-- A pool of a named kind of items for inspection. -/
def inspect (p : Pool α) (kind : String) : String :=
  "AdaptivePool \x7b name: " ++ Text.inspected kind ++ ", capacity: " ++ toString p.capacity ++
    ", config: " ++ p.config.inspect ++ ", .. \x7d"

end Pool
end Telemetry
