/-
# Upkeep in the background

A started group is a task on the depot's clock.  Time passes in two ways: it
can flow, and then each deadline is served at its moment, or it can leap, and
then what is due is served after the leap.  A task ends when it is stopped or
when the upkeep of a member fails; it then lets go of its pools.
-/

import Telemetry.Depot.Basic

namespace Telemetry
namespace Depot

/-- When a running task is to be served next. -/
def Task.wake? (t : Task) : Option Nat :=
  if t.running then some (Pool.wakeTime t.deadline) else none

/-- The task that is to be served first among those due up to a limit, and
when; of two at the same moment, the one in front. -/
def due? (limit : Nat) : List (String × Task) → Option (String × Task × Nat)
  | [] => none
  | (h, t) :: rest =>
    match t.wake?, due? limit rest with
    | some w, some (h', t', w') =>
      if limit < w ∨ w' < w then some (h', t', w') else some (h, t, w)
    | some w, none => if limit < w then none else some (h, t, w)
    | none, later => later

/-- Serves one deadline of a task at the present moment.  The task moves
behind the others, so that tasks stand in the order in which their deadlines
were fixed. -/
def serve (d : Depot) (h : String) (t : Task) : Depot :=
  match d.tickMembers t.members with
  | (_, none, d) =>
    let t := { t with
      ticks := t.ticks + 1
      deadline := Pool.nextDeadline t.interval t.deadline d.now }
    { d with tasks := (d.tasks.erase h).insert h t }
  | (_, some _, d) =>
    { d with tasks := d.tasks.insert h { t with running := false, members := [] } }.letGoMembers
      t.members

/-- How many deadlines a task can have up to a limit. -/
def Task.deadlinesUpTo (t : Task) (limit : Nat) : Nat :=
  if t.running && t.deadline ≤ limit then (limit - t.deadline) / t.interval + 1 else 0

/-- Serves up to so many deadlines that are due up to a limit, each one at its
moment or, if that has passed, now. -/
def serveWithin (d : Depot) (limit : Nat) : Nat → Depot
  | 0 => d
  | n + 1 =>
    match due? limit d.tasks.entries with
    | none => d
    | some (h, t, w) => ({ d with now := max d.now w }.serve h t).serveWithin limit n

/-- Serves every deadline that is due up to a limit; each service moves a
deadline on by at least one interval, which bounds their number. -/
def serveUntil (d : Depot) (limit : Nat) : Depot :=
  d.serveWithin limit (d.tasks.values.foldr (fun t n => t.deadlinesUpTo limit + n) 0)

/-- Lets time flow. -/
def sleep (d : Depot) (span : Nat) : Depot :=
  { d.serveUntil (d.now + span) with now := d.now + span }

/-- Lets the clock leap. -/
def leap (d : Depot) (span : Nat) : Depot :=
  { d with now := d.now + span }.serveUntil (d.now + span)

/-- Starts the upkeep of a group and serves what is due at once.  Without an
interval there is no grid, and the task ends before it begins. -/
def start (d : Depot) (h : String) (g : Group) : Depot :=
  let t : Task :=
    { members := g.members
      interval := g.rhythm.interval.nanoseconds
      deadline := d.now + g.rhythm.first.nanoseconds }
  if t.interval = 0 then
    { d with tasks := d.tasks.insert h { t with running := false, members := [] } }.letGoMembers
      g.members
  else
    let d := { d with tasks := d.tasks.insert h t }
    (d.report [.upkeepStarted g.members.length]).serveUntil d.now

/-- Ends a task; whether it was still running. -/
def stop (d : Depot) (h : String) (t : Task) : Bool × Depot :=
  let d := { d with tasks := d.tasks.erase h }
  if t.running then (true, (d.report [.upkeepStopped t.ticks]).letGoMembers t.members)
  else (false, d)

end Depot
end Telemetry
