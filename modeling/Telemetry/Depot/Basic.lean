/-
# Depots

A depot holds any number of pools and the items that circulate among them.
Items and pools go by identities that are never used again.  An item lives as
long as a handle names it or a pool stores it, and a pool as long as a name, a
group or a running task holds it; an item that nobody holds any more is
reported as dropped.  The mark that an item carries is not cleared when its
pool discards it.
-/

import Telemetry.Keyed
import Telemetry.Pool.Basic
import Telemetry.Pool.Rhythm

namespace Telemetry
namespace Depot

/-- The identity of an item. -/
abbrev ItemId := Nat

/-- The identity of a pool. -/
abbrev PoolId := Nat

/-- An item that pools lend. -/
structure Item where
  label : String
  /-- Whether the item is marked as being in a pool. -/
  marked : Bool := false
  deriving Inhabited

/-- A pool together with the maker of its items. -/
structure Shelf where
  /-- What kind of items the pool holds, for inspection. -/
  kind : String
  /-- The labels of its items begin with this. -/
  label : String
  /-- How many items were made for the pool. -/
  made : Nat := 0
  pool : Pool ItemId
  deriving Inhabited

/-- A member of a group. -/
inductive Member where
  | pool (id : PoolId)
  /-- A member whose upkeep always fails with this text. -/
  | faulty (text : String)
  deriving DecidableEq

/-- Pools to be kept up together. -/
structure Group where
  rhythm : Pool.Rhythm
  members : List Member
  deriving Inhabited

/-- A group whose upkeep was started. -/
structure Task where
  members : List Member
  /-- Nanoseconds between deadlines. -/
  interval : Nat
  /-- The next deadline in nanoseconds. -/
  deadline : Nat
  ticks : Nat := 0
  running : Bool := true
  deriving Inhabited

end Depot

/-- Pools, their items and what goes on among them. -/
structure Depot where
  items : Array Depot.Item := #[]
  shelves : Array Depot.Shelf := #[]
  /-- The names of pools. -/
  pools : Keyed Depot.PoolId := .empty
  /-- The handles of items. -/
  handles : Keyed Depot.ItemId := .empty
  /-- Groups that were not started. -/
  groups : Keyed Depot.Group := .empty
  /-- Groups that were started. -/
  tasks : Keyed Depot.Task := .empty
  /-- Nanoseconds since the start. -/
  now : Nat := 0
  /-- The events of the present step. -/
  log : Array Event := #[]
  /-- The labels of the items dropped in the present step. -/
  dropped : Array String := #[]
  deriving Inhabited

namespace Depot

/-- An item by its identity. -/
def item (d : Depot) (i : ItemId) : Item := d.items[i]?.getD default

/-- A pool by its identity. -/
def shelf (d : Depot) (p : PoolId) : Shelf := d.shelves[p]?.getD default

/-- Whether an item is marked. -/
def isMarked (d : Depot) (i : ItemId) : Bool := (d.item i).marked

/-- Marks an item or clears its mark. -/
def mark (d : Depot) (i : ItemId) (b : Bool) : Depot :=
  { d with items := d.items.modify i fun x => { x with marked := b } }

/-- Replaces the pool of a shelf. -/
def setPool (d : Depot) (p : PoolId) (pool : Pool ItemId) : Depot :=
  { d with shelves := d.shelves.modify p fun s => { s with pool := pool } }

/-- Reports events. -/
def report (d : Depot) (events : List Event) : Depot := { d with log := d.log ++ events }

/-- Whether a handle names an item or a pool stores it. -/
def holdsItem (d : Depot) (i : ItemId) : Bool :=
  d.handles.values.contains i || d.shelves.any fun s => s.pool.stored.contains i

/-- Lets go of one hold on each of some items; those that nobody else holds
are dropped. -/
def letGo (d : Depot) (items : List ItemId) : Depot :=
  { d with dropped := d.dropped ++
      (items.filter fun i => !d.holdsItem i).map fun i => (d.item i).label }

/-- Whether a name, a group or a running task holds a pool. -/
def holdsPool (d : Depot) (p : PoolId) : Bool :=
  d.pools.values.contains p ||
    (d.groups.values.any fun g => g.members.contains (.pool p)) ||
    d.tasks.values.any fun t => t.running && t.members.contains (.pool p)

/-- Lets go of one hold on a pool; if it was the last one, the pool and what
it stores are gone. -/
def letGoPool (d : Depot) (p : PoolId) : Depot :=
  if d.holdsPool p then d
  else
    let items := (d.shelf p).pool.stored
    (d.setPool p { (d.shelf p).pool with stored := [] }).letGo items

/-- Lets go of the members of a group one after the other. -/
def letGoMembers (d : Depot) : List Member → Depot
  | [] => d
  | .faulty _ :: rest => d.letGoMembers rest
  | .pool p :: rest => (if rest.contains (.pool p) then d else d.letGoPool p).letGoMembers rest

/-- Makes an item for a pool. -/
def make (d : Depot) (p : PoolId) : ItemId × Depot :=
  let s := d.shelf p
  (d.items.size,
    { d with
      items := d.items.push { label := s.label ++ toString s.made }
      shelves := d.shelves.modify p fun s => { s with made := s.made + 1 } })

/-- Takes an item from a pool; `none` if the pool stores an unmarked item. -/
def take (d : Depot) (p : PoolId) : Option ItemId × Depot :=
  let (taken, pool) := (d.shelf p).pool.take d.isMarked
  let d := d.setPool p pool
  match taken with
  | .reused i => (some i, d.mark i false)
  | .missed =>
    let (i, d) := d.make p
    (some i, d)
  | .unmarked i => (none, d.letGo [i])

/-- Offers an item to a pool and lets go of the hold it was offered with. -/
def put (d : Depot) (p : PoolId) (i : ItemId) : Option Pool.Refusal × Depot :=
  let (refusal, pool) := (d.shelf p).pool.put (d.isMarked i) i
  let d := (d.setPool p pool).report (Pool.Refusal.events refusal)
  match refusal with
  | none => (none, d.mark i true)
  | some r => (some r, d.letGo [i])

/-- Takes `n` items one after the other, in order; `none` as soon as the pool
stores an unmarked item. -/
def takeMany (d : Depot) (p : PoolId) : Nat → Option (List ItemId) × Depot
  | 0 => (some [], d)
  | n + 1 =>
    match d.take p with
    | (none, d) => (none, d)
    | (some i, d) =>
      match d.takeMany p n with
      | (none, d) => (none, d)
      | (some is, d) => (some (i :: is), d)

/-- Offers items one after the other; how many were stored. -/
def putMany (d : Depot) (p : PoolId) : List ItemId → Nat × Depot
  | [] => (0, d)
  | i :: is =>
    let (refusal, d) := d.put p i
    let (n, d) := d.putMany p is
    ((if refusal.isNone then 1 else 0) + n, d)

/-- Ends the window of a pool. -/
def tickPool (d : Depot) (p : PoolId) : Pool.Update × Depot :=
  let (u, given, pool) := (d.shelf p).pool.tick
  (u, ((d.setPool p pool).letGo given).report [u.event])

/-- Ends the windows of the members of a group in order, up to a member whose
upkeep fails: the updates made, and the text of the failure if there is one. -/
def tickMembers (d : Depot) : List Member → List Pool.Update × Option String × Depot
  | [] => ([], none, d)
  | .faulty text :: _ => ([], some text, d)
  | .pool p :: rest =>
    let (u, d) := d.tickPool p
    let (us, failure, d) := d.tickMembers rest
    (u :: us, failure, d)

end Depot
end Telemetry
