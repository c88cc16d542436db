/-
# Working with a depot

The commands name pools, items, groups and tasks; each one has an answer.  A
handle that is given a new item lets go of the one it had.
-/

import Telemetry.Depot.Upkeep

namespace Telemetry
namespace Depot

/-- What can be asked of a depot. -/
inductive Command where
  /-- Sets up a pool of a kind of items. -/
  | setUp (pool kind : String) (config : Pool.Config)
  | take (pool handle : String)
  /-- Offers an item, or a second hold on it that leaves the handle alone. -/
  | put (pool handle : String) (keep : Bool)
  /-- Gives a second handle to an item. -/
  | share (handle other : String)
  | drop (handle : String)
  | look (handle : String)
  /-- Takes `n` items and puts them back in order. -/
  | cycle (pool : String) (n : Nat)
  /-- Ends the window of a pool. -/
  | update (pool : String)
  | describe (pool : String)
  | dropPool (pool : String)
  /-- Forms a group of pools by their names and of faulty members by their
  texts. -/
  | form (group : String) (rhythm : Pool.Rhythm) (members : List (String ⊕ String))
  /-- Ends the windows of the pools of a group. -/
  | tick (group : String)
  | start (group task : String)
  | sleep (milliseconds : Nat)
  | leap (milliseconds : Nat)
  | lookTask (task : String)
  | stop (task : String)
  | dropTask (task : String)

/-- What a depot answers. -/
inductive Reply where
  | done
  | setUp (config : Pool.Config)
  | taken (label : String)
  /-- The outcome of an offer. -/
  | offered (refusal : Option Pool.Refusal)
  | seen (label : String) (marked : Bool)
  | stored (count : Nat)
  | updated (update : Pool.Update)
  | described (stats : Pool.Stats) (text : String)
  | formed (wasEmpty : Bool) (size : Nat) (rhythm : Pool.Rhythm)
  | ticked (updates : List Pool.Update)
  | ticks (count : Nat)
  | running (ticks : Nat) (running : Bool)
  /-- Whether the task had not failed before it was stopped. -/
  | stopped (sound : Bool)
  /-- The operation broke off with this text. -/
  | fault (text : String)
  /-- A name stands for nothing. -/
  | unknown

/-- The text when a pool stores an item without its mark. -/
def unmarkedFault (kind : String) : String :=
  "INV-POOL-01 violated: pool " ++ kind ++ " stored an item whose pooled flag was clear"

/-- Gives a handle an item. -/
def name (d : Depot) (handle : String) (i : ItemId) : Depot :=
  let old := d.handles.get? handle
  { d with handles := d.handles.insert handle i }.letGo old.toList

/-- The members of a group by the names of their pools, or by the texts with
which they fail. -/
def members? (d : Depot) (names : List (String ⊕ String)) : Option (List Member) :=
  names.mapM fun
    | .inl n => (d.pools.get? n).map .pool
    | .inr text => some (.faulty text)

/-- Carries out a command on what its names stand for. -/
def perform? (d : Depot) : Command → Option (Reply × Depot)
  | .setUp n kind config =>
    let old := d.pools.get? n
    let d := { d with
      shelves := d.shelves.push { kind := kind, label := n, pool := .ofConfig config }
      pools := d.pools.insert n d.shelves.size }
    some (.setUp config, old.elim d d.letGoPool)
  | .take n h => do
    let p ← d.pools.get? n
    match d.take p with
    | (some i, d) => some (.taken (d.item i).label, d.name h i)
    | (none, d) => some (.fault (unmarkedFault (d.shelf p).kind), d)
  | .put n h keep => do
    let p ← d.pools.get? n
    let i ← d.handles.get? h
    let d := if keep then d else { d with handles := d.handles.erase h }
    let (refusal, d) := d.put p i
    some (.offered refusal, d)
  | .share h other => do
    let i ← d.handles.get? h
    some (.done, d.name other i)
  | .drop h => do
    let i ← d.handles.get? h
    some (.done, { d with handles := d.handles.erase h }.letGo [i])
  | .look h => do
    let i ← d.handles.get? h
    some (.seen (d.item i).label (d.isMarked i), d)
  | .cycle n count => do
    let p ← d.pools.get? n
    match d.takeMany p count with
    | (some items, d) =>
      let (stored, d) := d.putMany p items
      some (.stored stored, d)
    | (none, d) => some (.fault (unmarkedFault (d.shelf p).kind), d)
  | .update n => do
    let p ← d.pools.get? n
    let (u, d) := d.tickPool p
    some (.updated u, d)
  | .describe n => do
    let p ← d.pools.get? n
    some (.described (d.shelf p).pool.stats ((d.shelf p).pool.inspect (d.shelf p).kind), d)
  | .dropPool n => do
    let p ← d.pools.get? n
    some (.done, { d with pools := d.pools.erase n }.letGoPool p)
  | .form g rhythm names => do
    let members ← d.members? names
    let old := d.groups.get? g
    let d := { d with groups := d.groups.insert g ⟨rhythm, members⟩ }
    some (.formed true members.length rhythm, old.elim d fun o => d.letGoMembers o.members)
  | .tick g => do
    let group ← d.groups.get? g
    let (us, failure, d) := d.tickMembers group.members
    some (failure.elim (.ticked us) .fault, d)
  | .start g h => do
    let group ← d.groups.get? g
    let d := { d with groups := d.groups.erase g }
    let d := match d.tasks.get? h with
      | some t => (d.stop h t).2
      | none => d
    let d := d.start h group
    some (.ticks ((d.tasks.get? h).elim 0 (·.ticks)), d)
  | .sleep n => some (.done, d.sleep (n * Duration.perMillisecond))
  | .leap n => some (.done, d.leap (n * Duration.perMillisecond))
  | .lookTask h => do
    let t ← d.tasks.get? h
    some (.running t.ticks t.running, d)
  | .stop h => do
    let t ← d.tasks.get? h
    let (sound, d) := d.stop h t
    some (.stopped sound, d)
  | .dropTask h => do
    let t ← d.tasks.get? h
    some (.done, (d.stop h t).2)

/-- Carries out a command; the log and the list of dropped items are those of
this command alone.  A command with an unknown name changes nothing. -/
def step (d : Depot) (c : Command) : Reply × Depot :=
  let d := { d with log := #[], dropped := #[] }
  (d.perform? c).getD (.unknown, d)

/-- Carries out commands in order. -/
def run (d : Depot) : List Command → List Reply × Depot
  | [] => ([], d)
  | c :: cs =>
    let (r, d) := d.step c
    let (rs, d) := d.run cs
    (r :: rs, d)

/-- The named pools at this moment. -/
def poolStats (d : Depot) : List (String × Pool.Stats) :=
  d.pools.entries.map fun (n, p) => (n, (d.shelf p).pool.stats)

end Depot
end Telemetry
