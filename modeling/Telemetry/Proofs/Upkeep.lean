/-
# Upkeep in the background

A group that was started is kept up while time passes, in sleeps and leaps.
Whatever happens in between, its pools are as if the windows had been ended by
hand, as often as the task says (`Tended.pools`).  The deadlines that were served
lie on the grid, one behind the other, so there are no more of them than the
grid has points; without leaps, none of them is left out.

`Startable.upheld` says this of every run that starts a group and then only
lets time pass, and that no time changes the pools once the task has ended.
-/

import Telemetry.Proofs.Schedule

namespace Telemetry
namespace Depot

open Pool (OnGrid gridPoints nextDeadline)

variable {d d' : Depot} {g h h' : String} {t : Task} {p q : PoolId} {ms : List Member}

/-! ### Pools under upkeep -/

/-- A shelf after the end of a window. -/
def Shelf.ticked (s : Shelf) : Shelf := { s with pool := s.pool.tick.2.2 }

/-- Replacing a pool replaces it on its shelf. -/
theorem shelves_setPool (d : Depot) (p q : PoolId) (pool : Pool ItemId) :
    (d.setPool q pool).shelves[p]? =
      if q = p then d.shelves[p]?.map fun s => { s with pool := pool } else d.shelves[p]? := by
  rw [setPool, Array.getElem?_modify]

/-- The end of a window is the matter of one shelf. -/
theorem shelves_tickPool (d : Depot) (p q : PoolId) : (d.tickPool q).2.shelves[p]? =
    if q = p then d.shelves[p]?.map Shelf.ticked else d.shelves[p]? := by
  have hset : (d.tickPool q).2.shelves[p]? =
      (d.setPool q (d.shelf q).pool.tick.2.2).shelves[p]? := rfl
  rw [hset, shelves_setPool]
  split_ifs with hq
  · subst hq
    cases hs : d.shelves[q]? with
    | none => rfl
    | some s => simp [Shelf.ticked, shelf, hs]
  · rfl

/-- Upkeep of a pool looks at this pool alone. -/
theorem shelves_tickMembers_congr (hp : d.shelves[p]? = d'.shelves[p]?) (ms : List Member) :
    (d.tickMembers ms).2.2.shelves[p]? = (d'.tickMembers ms).2.2.shelves[p]? := by
  induction ms generalizing d d' with
  | nil => exact hp
  | cons m ms ih =>
    cases m with
    | faulty text => exact hp
    | pool q =>
      have hticked : (d.tickPool q).2.shelves[p]? = (d'.tickPool q).2.shelves[p]? := by
        rw [shelves_tickPool, shelves_tickPool, hp]
      exact ih hticked

/-- Pools that are no members are not ticked. -/
theorem shelves_tickMembers_of_notMem (hp : .pool p ∉ ms) :
    (d.tickMembers ms).2.2.shelves[p]? = d.shelves[p]? := by
  induction ms generalizing d with
  | nil => rfl
  | cons m ms ih =>
    cases m with
    | faulty text => rfl
    | pool q =>
      have hq : q ≠ p := fun heq => hp (heq ▸ List.mem_cons_self)
      refine (ih (d := (d.tickPool q).2) fun hmem => hp (List.mem_cons_of_mem _ hmem)).trans ?_
      rw [shelves_tickPool, if_neg hq]

/-- The upkeep of pools does not fail. -/
theorem tickMembers_pools (d : Depot) (ps : List PoolId) :
    (d.tickMembers (ps.map .pool)).2.1 = none := by
  induction ps generalizing d with
  | nil => rfl
  | cons q ps ih => exact ih (d.tickPool q).2

/-- Letting go of one pool leaves the others. -/
theorem shelves_letGoPool_of_ne (hq : q ≠ p) : (d.letGoPool q).shelves[p]? = d.shelves[p]? := by
  unfold letGoPool
  split
  · rfl
  · have hset : ((d.setPool q { (d.shelf q).pool with stored := [] }).letGo
        (d.shelf q).pool.stored).shelves[p]? =
          (d.setPool q { (d.shelf q).pool with stored := [] }).shelves[p]? := rfl
    exact hset.trans (by rw [shelves_setPool, if_neg hq])

/-- A pool that is held outlasts the end of a task. -/
theorem shelves_letGoMembers_of_holds (hp : d.holdsPool p = true) (ms : List Member) :
    (d.letGoMembers ms).shelves[p]? = d.shelves[p]? := by
  induction ms generalizing d with
  | nil => rfl
  | cons m ms ih =>
    cases m with
    | faulty text => exact ih hp
    | pool q =>
      rw [letGoMembers]
      split
      · exact ih hp
      · rw [ih ((letGoPool_only d q).holdsPool p ▸ hp)]
        by_cases hq : q = p
        · rw [hq, letGoPool, if_pos hp]
        · exact shelves_letGoPool_of_ne hq

/-- Letting go of members leaves pools that are none of them. -/
theorem shelves_letGoMembers_of_notMem (hp : .pool p ∉ ms) :
    (d.letGoMembers ms).shelves[p]? = d.shelves[p]? := by
  induction ms generalizing d with
  | nil => rfl
  | cons m ms ih =>
    have hrest : .pool p ∉ ms := fun hmem => hp (List.mem_cons_of_mem _ hmem)
    cases m with
    | faulty text => exact ih hrest
    | pool q =>
      have hq : q ≠ p := fun heq => hp (heq ▸ List.mem_cons_self)
      rw [letGoMembers, ih hrest]
      split
      · rfl
      · exact shelves_letGoPool_of_ne hq

/-- Service of a task leaves the pools of others alone, even if it fails. -/
theorem shelves_serve_of_notMem (hp : .pool p ∉ t.members) :
    (d.serve h t).shelves[p]? = d.shelves[p]? := by
  cases hm : (d.tickMembers t.members).2.1 with
  | none =>
    rw [serve_of_sound hm]
    exact shelves_tickMembers_of_notMem hp
  | some text =>
    rw [serve_of_failed hm, shelves_letGoMembers_of_notMem hp]
    exact shelves_tickMembers_of_notMem hp

/-! ### Upkeep by hand -/

/-- Commands may be run in two parts. -/
theorem run_append (d : Depot) (cs cs' : List Command) :
    (d.run (cs ++ cs')).2 = ((d.run cs).2.run cs').2 := by
  induction cs generalizing d with
  | nil => rfl
  | cons c cs ih => exact ih (d.step c).2

/-- A depot after `n` ticks of a group by hand. -/
def byHand (d : Depot) (g : String) (n : Nat) : Depot := (d.run (List.replicate n (.tick g))).2

/-- The last tick by hand comes after the others. -/
theorem byHand_succ (d : Depot) (g : String) (n : Nat) :
    d.byHand g (n + 1) = ((d.byHand g n).step (.tick g)).2 := by
  rw [byHand, List.replicate_succ', run_append]
  rfl

section ByHand

variable {group : Group}

/-- A tick by hand ticks the members of the group. -/
theorem step_tick (hg : d.groups.get? g = some group) : (d.step (.tick g)).2 =
    ({ d with log := #[], dropped := #[] }.tickMembers group.members).2.2 := by
  simp [step, perform?, hg]

/-- Ticks by hand leave the group as it is. -/
theorem byHand_groups (hg : d.groups.get? g = some group) (n : Nat) :
    (d.byHand g n).groups.get? g = some group := by
  induction n with
  | zero => exact hg
  | succ n ih => rw [byHand_succ, step_tick ih, (tickMembers_only _ _).groups, ih]

/-- One tick by hand more ticks the members once more. -/
theorem shelves_byHand_succ (hg : d.groups.get? g = some group) (n : Nat) (p : PoolId) :
    (d.byHand g (n + 1)).shelves[p]? =
      ((d.byHand g n).tickMembers group.members).2.2.shelves[p]? := by
  rw [byHand_succ, step_tick (byHand_groups hg n)]
  refine shelves_tickMembers_congr (d := { d.byHand g n with log := #[], dropped := #[] }) ?_ _
  rfl

end ByHand

/-! ### The services of a task -/

/-- The deadlines of the task `h` that are served between two depots, from the
moment at which it is there. -/
inductive Serves (h : String) : Depot → List Nat → Depot → Prop
  | begins {d d' : Depot} {t : Task} (hbefore : d.tasks.get? h = none)
      (hafter : d'.tasks.get? h = some t) (hticks : t.ticks = 0) : Serves h d [] d'
  /-- Something else happens, which does not touch the task. -/
  | waits {d d' d'' : Depot} {ds : List Nat} (hrun : Serves h d ds d')
      (hsame : d''.tasks.get? h = d'.tasks.get? h) : Serves h d ds d''
  | serves {d d' : Depot} {ds : List Nat} {t : Task} (hrun : Serves h d ds d')
      (hget : d'.tasks.get? h = some t) : Serves h d (ds ++ [t.deadline]) (d'.serve h t)

/-- Running tasks other than `h` have an interval, without which none is
started, and keep up none of the pools `ps`. -/
def Apart (d : Depot) (h : String) (ps : List PoolId) : Prop :=
  d.EachRunning fun h' t => h' ≠ h → 0 < t.interval ∧ ∀ p ∈ ps, .pool p ∉ t.members

/-! ### A group that is kept up -/

/-- A group of pools that is to be kept up from a depot on, with deadlines at
whole milliseconds. -/
structure Plan where
  origin : Depot
  group : String
  task : String
  /-- The first deadline in nanoseconds. -/
  first : Nat
  /-- Nanoseconds between deadlines. -/
  interval : Nat
  pools : List PoolId
  formed : origin.groups.get? group = some ⟨⟨⟨first⟩, ⟨interval⟩⟩, pools.map .pool⟩
  interval_pos : 0 < interval
  whole : ∀ x, OnGrid first interval x → Pool.wakeTime x = x

section Plan

variable {s : Plan} {ds : List Nat} {next low limit w : Nat} {punctual : Prop}

/-- Since it was started in its depot, the group of a plan is kept up by its
task, which has served the deadlines `ds` and is to serve `next`. -/
structure Tended (s : Plan) (d : Depot) (ds : List Nat) (next : Nat) : Prop where
  task : d.tasks.get? s.task = some ⟨s.pools.map .pool, s.interval, next, ds.length, true⟩
  trace : Serves s.task s.origin ds d
  grid : OnGrid s.first s.interval next
  earlier : ∀ x ∈ ds, OnGrid s.first s.interval x ∧ x < next
  increasing : ds.Pairwise (· < ·)
  /-- Each deadline served uses up a point of the grid. -/
  count : s.first + ds.length * s.interval ≤ next
  passed : ds.length = 0 ∨ s.first + ds.length * s.interval ≤ d.now + s.interval
  pools : ∀ p ∈ s.pools, d.shelves[p]? = (s.origin.byHand s.group ds.length).shelves[p]?
  apart : d.Apart s.task s.pools

/-- Reports and the passing of time leave upkeep alone. -/
theorem Tended.of_same (hk : Tended s d ds next) (htasks : d'.tasks = d.tasks)
    (hshelves : d'.shelves = d.shelves) (hnow : d.now ≤ d'.now) : Tended s d' ds next where
  task := htasks ▸ hk.task
  trace := hk.trace.waits (by rw [htasks])
  grid := hk.grid
  earlier := hk.earlier
  increasing := hk.increasing
  count := hk.count
  passed := hk.passed.imp_right fun h => h.trans (by omega)
  pools p hp := hshelves ▸ hk.pools p hp
  apart := hk.apart.of_tasks htasks

/-- While the group is tended, running tasks have intervals. -/
theorem Tended.paced (hk : Tended s d ds next) : d.Paced := by
  intro h t hget hrunning
  by_cases hne : h = s.task
  · rw [hne, hk.task, Option.some.injEq] at hget
    rw [← hget]
    exact s.interval_pos
  · exact (hk.apart h t hget hrunning hne).1

/-- **The service of a deadline is a tick by hand.** -/
theorem Tended.serve (hk : Tended s d ds next) (hget : d.tasks.get? s.task = some t)
    (hdue : next ≤ d.now) :
    Tended s (d.serve s.task t) (ds ++ [next]) (nextDeadline s.interval next d.now) := by
  obtain rfl : t = ⟨s.pools.map .pool, s.interval, next, ds.length, true⟩ :=
    Option.some.inj (hget.symm.trans hk.task)
  have hsound := tickMembers_pools d s.pools
  have hlater : next + s.interval ≤ nextDeadline s.interval next d.now := Pool.add_le_nextDeadline
  -- no member fails, so the next deadline is set
  have hpos := s.interval_pos
  have hcount := hk.count
  have hlength : (ds ++ [next]).length = ds.length + 1 := List.length_append
  refine ⟨?_, hk.trace.serves hget, hk.grid.nextDeadline, ?_, ?_, ?_, .inr ?_, ?_, ?_⟩
  · rw [serve_of_sound hsound, hlength]
    exact (Keyed.get?_insert _ _ _ _).trans (if_pos rfl)
  · -- the deadlines served so far are on the grid and before the next one
    intro x hx
    rcases List.mem_append.1 hx with hx | hx
    · obtain ⟨hpoint, hlt⟩ := hk.earlier x hx
      exact ⟨hpoint, by omega⟩
    · rw [List.mem_singleton.1 hx]
      exact ⟨hk.grid, by omega⟩
  · refine List.pairwise_append.2 ⟨hk.increasing, List.pairwise_singleton _ _, fun x hx y hy => ?_⟩
    rw [List.mem_singleton.1 hy]
    exact (hk.earlier x hx).2
  · -- one tick was counted more
    rw [hlength, Nat.succ_mul]
    omega
  · rw [hlength, Nat.succ_mul, serve_now]
    omega
  · -- and the pools were ticked once more
    intro p hp
    rw [serve_of_sound hsound, hlength, shelves_byHand_succ s.formed]
    exact shelves_tickMembers_congr (hk.pools p hp) _
  · exact hk.apart.serve hget fun _ hq => hq

/-- The service of another task leaves upkeep alone. -/
theorem Tended.serve_other (hk : Tended s d ds next) (hne : h ≠ s.task)
    (hget : d.tasks.get? h = some t) (hrunning : t.running = true) :
    Tended s (d.serve h t) ds next where
  task := (serve_get?_of_ne d t hne).trans hk.task
  trace := hk.trace.waits (serve_get?_of_ne d t hne)
  grid := hk.grid
  earlier := hk.earlier
  increasing := hk.increasing
  count := hk.count
  passed := by
    rw [serve_now]
    exact hk.passed
  pools p hp := by
    rw [shelves_serve_of_notMem ((hk.apart h t hget hrunning hne).2 p hp)]
    exact hk.pools p hp
  apart := hk.apart.serve hget fun _ hq => hq

/-- The deadlines of a plan were all served in time so far, and the next one is
still to come. -/
def Punctual (s : Plan) (d : Depot) (ds : List Nat) (next : Nat) : Prop :=
  next = s.first + ds.length * s.interval ∧ d.now ≤ next

/-- A group is kept up while the clock stands between two moments. -/
structure Underway (s : Plan) (low limit : Nat) (punctual : Prop) (d : Depot) (ds : List Nat)
    (next : Nat) : Prop where
  tended : Tended s d ds next
  low : low ≤ d.now
  high : d.now ≤ limit
  punctual : punctual → Punctual s d ds next

/-- One service keeps a group up, whichever task it is for.  A punctual group
stays so, since nothing is served before what is to be woken earlier. -/
theorem Underway.serve (hu : Underway s low limit punctual d ds next)
    (hget : d.tasks.get? h = some t) (hdue : due? limit d.tasks.entries = some (h, t, w)) :
    ∃ ds' next', Underway s low limit punctual
      ({ d with now := max d.now w }.serve h t) ds' next' := by
  obtain ⟨hk, hlow, hhigh, hpunctual⟩ := hu
  obtain ⟨hwake, hlimit, hfirst⟩ := due?_eq_some hdue
  have hnow : ({ d with now := max d.now w }.serve h t).now = max d.now w := serve_now _ _ _
  have hlow' := (hlow.trans (le_max_left _ _)).trans_eq hnow.symm
  have hhigh' := hnow.trans_le (max_le hhigh hlimit)
  have hclock : Tended s { d with now := max d.now w } ds next :=
    hk.of_same rfl rfl (le_max_left _ _)
  have hrunning := (Task.wake?_eq_some.1 hwake).1
  -- the group waits for its own deadline, so the one that is served is no later
  have hnext : w ≤ next := hfirst _ (Keyed.get?_eq_some_iff.1 hk.task) next
    (congrArg some (s.whole next hk.grid))
  -- its own deadline is served, at which the clock then stands
  by_cases hne : h = s.task
  · subst hne
    have hw : w = next := by
      rw [Option.some.inj (hget.symm.trans hk.task), Task.wake?, if_pos rfl, s.whole next hk.grid,
        Option.some.injEq] at hwake
      exact hwake.symm
    refine ⟨_, _, hclock.serve hget (hw ▸ le_max_right _ _), hlow', hhigh', fun hp => ?_⟩
    obtain ⟨heq, hle⟩ := hpunctual hp
    have hmax : max d.now w = next := by rw [hw, max_eq_right hle]
    have hlater : nextDeadline s.interval next (max d.now w) = next + s.interval :=
      Pool.nextDeadline_of_le hmax.le
    refine ⟨?_, ?_⟩
    · rw [List.length_append, List.length_singleton, Nat.succ_mul, hlater, heq, Nat.add_assoc]
    · rw [hnow, hlater, hmax]
      exact Nat.le_add_right _ _
  · -- a task beside it is served, which leaves the group as it is
    refine ⟨ds, next, hclock.serve_other hne hget hrunning, hlow', hhigh', fun hp => ?_⟩
    obtain ⟨heq, hle⟩ := hpunctual hp
    exact ⟨heq, hnow.trans_le (max_le hle hnext)⟩

/-- **Service up to a limit keeps a group up**, and all its deadlines up to the
limit are behind it then. -/
theorem Underway.serveUntil (hu : Underway s low limit punctual d ds next) :
    ∃ ds' next', Underway s low limit punctual (d.serveUntil limit) ds' next' ∧ limit < next' := by
  have hserved : ∃ ds' next', Underway s low limit punctual (d.serveUntil limit) ds' next' :=
    serveWithin_induction (P := fun e => ∃ ds' next', Underway s low limit punctual e ds' next')
      (fun e h t w ⟨_, _, he⟩ hget hdue => he.serve hget hdue) ⟨ds, next, hu⟩ _
  obtain ⟨ds', next', hu'⟩ := hserved
  refine ⟨ds', next', hu', ?_⟩
  exact lt_of_due?_eq_none (due?_serveUntil hu.tended.paced limit) _
    (Keyed.get?_eq_some_iff.1 hu'.tended.task) next'
    (congrArg some (s.whole next' hu'.tended.grid))

end Plan

/-! ### Time that passes -/

/-- Time passes, by so many milliseconds. -/
inductive Lapse where
  | sleep (milliseconds : Nat)
  | leap (milliseconds : Nat)

namespace Lapse

/-- The command by which time passes so. -/
def command : Lapse → Command
  | sleep n => .sleep n
  | leap n => .leap n

/-- How much time passes, in milliseconds. -/
def milliseconds : Lapse → Nat
  | sleep n => n
  | leap n => n

/-- Whether the deadlines on the way are served in time. -/
def isSleep : Lapse → Bool
  | sleep _ => true
  | leap _ => false

end Lapse

/-- Sleeping serves what falls due up to its end, and then it is that late. -/
theorem step_sleep (d : Depot) (n : Nat) : (d.step (.sleep n)).2 =
    { { d with log := #[], dropped := #[] }.serveUntil (d.now + n * Duration.perMillisecond) with
      now := d.now + n * Duration.perMillisecond } := rfl

/-- After a leap it is that late, and what fell due is served then. -/
theorem step_leap (d : Depot) (n : Nat) : (d.step (.leap n)).2 =
    { d with
      now := d.now + n * Duration.perMillisecond, log := #[], dropped := #[] }.serveUntil
        (d.now + n * Duration.perMillisecond) := rfl

section Lapses

variable {s : Plan} {ds : List Nat} {next : Nat}

/-- **A group is kept up while time passes**, and stays punctual in a sleep. -/
theorem Tended.lapse (hk : Tended s d ds next) (l : Lapse) :
    ∃ ds' next', Tended s (d.step l.command).2 ds' next' ∧
      (d.step l.command).2.now = d.now + l.milliseconds * Duration.perMillisecond ∧
      (d.step l.command).2.now < next' ∧
      (l.isSleep = true → Punctual s d ds next → Punctual s (d.step l.command).2 ds' next') := by
  cases l with
  | sleep n =>
    -- a sleep serves from the present moment up to its end
    rw [Lapse.command, Lapse.milliseconds, step_sleep]
    set limit := d.now + n * Duration.perMillisecond with hlimit
    have hcleared : Tended s { d with log := #[], dropped := #[] } ds next :=
      hk.of_same rfl rfl le_rfl
    have hu : Underway s d.now limit (Punctual s d ds next)
        { d with log := #[], dropped := #[] } ds next :=
      ⟨hcleared, le_rfl, Nat.le_add_right _ _, id⟩
    obtain ⟨ds', next', hu', hlater⟩ := hu.serveUntil
    exact ⟨ds', next', hu'.tended.of_same rfl rfl hu'.high, rfl, hlater, fun _ hp =>
      ⟨(hu'.punctual hp).1, hlater.le⟩⟩
  | leap n =>
    -- a leap is over before anything is served, so nothing is said of punctuality
    rw [Lapse.command, Lapse.milliseconds, step_leap]
    set limit := d.now + n * Duration.perMillisecond with hlimit
    have hu : Underway s limit limit False
        { d with now := limit, log := #[], dropped := #[] } ds next :=
      ⟨hk.of_same rfl rfl (Nat.le_add_right _ _), le_rfl, le_rfl, False.elim⟩
    obtain ⟨ds', next', hu', hlater⟩ := hu.serveUntil
    have hnow := le_antisymm hu'.high hu'.low
    exact ⟨ds', next', hu'.tended, hnow, hnow.trans_lt hlater, fun hs => by cases hs⟩

/-- What a run of lapses keeps. -/
theorem Tended.lapses (hk : Tended s d ds next) (hnow : d.now < next) (ls : List Lapse) :
    ∃ ds' next', Tended s (d.run (ls.map Lapse.command)).2 ds' next' ∧
      (d.run (ls.map Lapse.command)).2.now =
        d.now + (ls.map Lapse.milliseconds).sum * Duration.perMillisecond ∧
      (d.run (ls.map Lapse.command)).2.now < next' ∧
      ((∀ l ∈ ls, l.isSleep = true) → Punctual s d ds next →
        Punctual s (d.run (ls.map Lapse.command)).2 ds' next') := by
  induction ls generalizing d ds next with
  | nil => exact ⟨ds, next, hk, by simp [run], hnow, fun _ hp => hp⟩
  | cons l ls ih =>
    obtain ⟨ds₁, next₁, hk₁, hnow₁, hlater₁, hpunctual₁⟩ := hk.lapse l
    obtain ⟨ds₂, next₂, hk₂, hnow₂, hlater₂, hpunctual₂⟩ := ih hk₁ hlater₁
    refine ⟨ds₂, next₂, hk₂, hnow₂.trans ?_, hlater₂, fun hs hp => ?_⟩
    · rw [hnow₁, List.map_cons, List.sum_cons, Nat.add_mul, Nat.add_assoc]
    · rw [List.forall_mem_cons] at hs
      exact hpunctual₂ hs.2 (hpunctual₁ hs.1 hp)

end Lapses

/-! ### After the end -/

/-- No running task keeps up any of the pools `ps`. -/
def Untended (d : Depot) (ps : List PoolId) : Prop :=
  d.EachRunning fun _ t => ∀ p ∈ ps, .pool p ∉ t.members

section Untended

variable {ps : List PoolId}

/-- Service does not touch a pool that no task keeps up. -/
theorem Untended.serveUntil (hd : d.Untended ps) (limit : Nat) :
    (d.serveUntil limit).Untended ps ∧
      ∀ p ∈ ps, (d.serveUntil limit).shelves[p]? = d.shelves[p]? := by
  refine serveWithin_induction
    (P := fun e => e.Untended ps ∧ ∀ p ∈ ps, e.shelves[p]? = d.shelves[p]?)
    (fun e h t w ⟨he, hshelves⟩ hget hdue => ?_) ⟨hd, fun _ _ => rfl⟩ _
  have hrunning := (Task.wake?_eq_some.1 (due?_eq_some hdue).1).1
  have hclock : Untended { e with now := max e.now w } ps := he.of_tasks rfl
  refine ⟨hclock.serve hget fun _ hq => hq, fun p hp => ?_⟩
  rw [shelves_serve_of_notMem (he h t hget hrunning p hp)]
  exact hshelves p hp

/-- A lapse of time leaves alone what nobody tends. -/
theorem Untended.lapse (hd : d.Untended ps) (l : Lapse) : (d.step l.command).2.Untended ps ∧
    ∀ p ∈ ps, (d.step l.command).2.shelves[p]? = d.shelves[p]? := by
  cases l with
  | sleep n =>
    rw [Lapse.command, step_sleep]
    have hcleared : Untended { d with log := #[], dropped := #[] } ps := hd.of_tasks rfl
    obtain ⟨hserved, hshelves⟩ := hcleared.serveUntil (d.now + n * Duration.perMillisecond)
    exact ⟨hserved.of_tasks rfl, hshelves⟩
  | leap n =>
    rw [Lapse.command, step_leap]
    have hleapt : Untended { d with
      now := d.now + n * Duration.perMillisecond, log := #[], dropped := #[] } ps := hd.of_tasks rfl
    exact hleapt.serveUntil _

/-- **Without upkeep, time changes nothing.** -/
theorem Untended.lapses (hd : d.Untended ps) (ls : List Lapse) :
    ∀ p ∈ ps, (d.run (ls.map Lapse.command)).2.shelves[p]? = d.shelves[p]? := by
  induction ls generalizing d with
  | nil => exact fun _ _ => rfl
  | cons l ls ih =>
    obtain ⟨hd', hshelves⟩ := hd.lapse l
    exact fun p hp => (ih hd' p hp).trans (hshelves p hp)

end Untended

/-! ### From the start to the end -/

section Startable

variable {first interval : Nat} {ps : List PoolId} {group : Group}

/-- The task that a start sets up has its first deadline ahead and keeps up the members of
the group. -/
theorem step_start (hg : d.groups.get? g = some group) (hfresh : d.tasks.get? h = none)
    (hi : group.rhythm.interval.nanoseconds ≠ 0) : (d.step (.start g h)).2 =
      ({ d with
        groups := d.groups.erase g
        tasks := d.tasks.insert h ⟨group.members, group.rhythm.interval.nanoseconds,
          d.now + group.rhythm.first.nanoseconds, 0, true⟩
        log := #[]
        dropped := #[] }.report [.upkeepStarted group.members.length]).serveUntil d.now := by
  simp [step, perform?, hg, hfresh, start, hi]

/-- A look at a task tells its ticks and whether it runs. -/
theorem step_lookTask (hget : d.tasks.get? h = some t) :
    (d.step (.lookTask h)).1 = .running t.ticks t.running := by
  simp [step, perform?, hget]

/-- Stopping a task and dropping it come to the same. -/
theorem step_ending (hget : d.tasks.get? h = some t) (hrunning : t.running = true) {c : Command}
    (hc : c = .stop h ∨ c = .dropTask h) : (d.step c).2 =
      ({ d with tasks := d.tasks.erase h, log := #[], dropped := #[] }.report
        [.upkeepStopped t.ticks]).letGoMembers t.members := by
  rcases hc with rfl | rfl <;> simp [step, perform?, hget, stop, hrunning]

/-- A group of the pools `ps` that can be started, at the beginning of time,
under a name that is not in use. -/
structure Startable (d : Depot) (g h : String) (first interval : Nat) (ps : List PoolId) :
    Prop where
  group : d.groups.get? g =
    some ⟨⟨.ofMilliseconds first, .ofMilliseconds interval⟩, ps.map .pool⟩
  interval_pos : 0 < interval
  fresh : d.tasks.get? h = none
  /-- Nothing else keeps up its pools. -/
  apart : d.Apart h ps
  clock : d.now = 0

/-- What has come of the group `g` of the depot `d` in the depot `after`, since it
was started as the task `h` and `span` milliseconds passed. -/
structure Upheld (d : Depot) (g h : String) (first interval : Nat) (ps : List PoolId) (span : Nat)
    (after : Depot) (ticks : Nat) (served : List Nat) : Prop where
  /-- The task is running and tells how often it was served. -/
  answered : (after.step (.lookTask h)).1 = .running ticks true
  clock : after.now = span * Duration.perMillisecond
  /-- The pools are as after so many ticks by hand. -/
  pools : ∀ p ∈ ps, after.shelf p = (d.run (List.replicate ticks (.tick g))).2.shelf p
  bounded : ticks ≤ gridPoints first interval span
  /-- The deadlines served, one for each tick. -/
  trace : Serves h d served after
  length : served.length = ticks
  /-- No deadline is served twice. -/
  increasing : served.Pairwise (· < ·)
  grid : ∀ x ∈ served, ∃ k, x = (first + k * interval) * Duration.perMillisecond
  /-- A pool that outlasts the end of the task is left as it is, and from then
  on time changes none of them. -/
  ended : ∀ c, c = .stop h ∨ c = .dropTask h → ∀ p ∈ ps,
    ((after.step c).2.holdsPool p = true → (after.step c).2.shelf p = after.shelf p) ∧
      ∀ ls : List Lapse, ((after.step c).2.run (ls.map Lapse.command)).2.shelf p =
        (after.step c).2.shelf p

/-- A task that is ended leaves the pools to the others who hold them. -/
theorem Apart.ended (ha : d.Apart h ps) (hget : d.tasks.get? h = some t)
    (hrunning : t.running = true) {c : Command} (hc : c = .stop h ∨ c = .dropTask h) :
    (d.step c).2.Untended ps ∧ ∀ p ∈ ps, (d.step c).2.holdsPool p = true →
      (d.step c).2.shelves[p]? = d.shelves[p]? := by
  rw [step_ending hget hrunning hc]
  have honly := letGoMembers_only ({ d with
    tasks := d.tasks.erase h, log := #[], dropped := #[] }.report [.upkeepStopped t.ticks])
    t.members
  refine ⟨fun h' t' hget' hrunning' => ?_, fun p _ hp => ?_⟩
  · rw [honly.tasks] at hget'
    have hne : h ≠ h' := by
      rintro rfl
      simp [report, Keyed.get?_erase] at hget'
    have hold : d.tasks.get? h' = some t' := by
      simpa [report, Keyed.get?_erase, hne] using hget'
    exact (ha h' t' hold hrunning' hne.symm).2
  · exact shelves_letGoMembers_of_holds (honly.holdsPool p ▸ hp) t.members

/-- Points of a grid of whole milliseconds are at whole milliseconds. -/
theorem onGrid_milliseconds (x : Nat)
    (hx : OnGrid (first * Duration.perMillisecond) (interval * Duration.perMillisecond) x) :
    ∃ k, x = (first + k * interval) * Duration.perMillisecond := by
  obtain ⟨k, rfl⟩ := hx
  exact ⟨k, by rw [Nat.add_mul, Nat.mul_assoc]⟩

/-- The plan of a group that can be started. -/
def Startable.plan (hs : d.Startable g h first interval ps) : Plan where
  origin := d
  group := g
  task := h
  first := first * Duration.perMillisecond
  interval := interval * Duration.perMillisecond
  pools := ps
  formed := hs.group
  interval_pos := Nat.mul_pos hs.interval_pos (by decide)
  whole x hx := by
    obtain ⟨k, rfl⟩ := onGrid_milliseconds x hx
    exact Pool.wakeTime_of_dvd (Nat.dvd_mul_left ..)

/-- What is due at once when a group is started is served, and the group is
kept up from then on. -/
theorem Startable.tended (hs : d.Startable g h first interval ps) :
    ∃ ds next, Tended hs.plan (d.step (.start g h)).2 ds next ∧
      (d.step (.start g h)).2.now = 0 ∧ 0 < next ∧
      Punctual hs.plan (d.step (.start g h)).2 ds next := by
  have htask : ∀ h', (d.tasks.insert h (⟨ps.map .pool, hs.plan.interval,
      d.now + hs.plan.first, 0, true⟩ : Task)).get? h' =
        if h = h' then some ⟨ps.map .pool, hs.plan.interval, hs.plan.first, 0, true⟩
        else d.tasks.get? h' := by
    intro h'
    rw [Keyed.get?_insert, hs.clock, Nat.zero_add]
  rw [step_start hs.group hs.fresh hs.plan.interval_pos.ne']
  set d₁ : Depot := { d with
    groups := d.groups.erase g
    tasks := d.tasks.insert h ⟨ps.map .pool, hs.plan.interval, d.now + hs.plan.first, 0, true⟩
    log := #[]
    dropped := #[] }.report [.upkeepStarted (ps.map Member.pool).length]
  have hget : d₁.tasks.get? h = some ⟨ps.map .pool, hs.plan.interval, hs.plan.first, 0, true⟩ :=
    (htask h).trans (if_pos rfl)
  -- right after the start no deadline was served
  have hk : Tended hs.plan d₁ [] hs.plan.first := by
    refine ⟨hget, .begins hs.fresh hget rfl, ⟨0, by simp⟩, by simp, .nil, by simp, .inl rfl,
      fun _ _ => rfl, fun h' t hget' hrunning hne => ?_⟩
    exact hs.apart h' t (((htask h').trans (if_neg hne.symm)).symm.trans hget') hrunning hne
  have hu : Underway hs.plan d.now d.now True d₁ [] hs.plan.first :=
    ⟨hk, le_rfl, le_rfl, fun _ => ⟨by simp, hs.clock.trans_le (Nat.zero_le _)⟩⟩
  -- what is due at once is served before the command ends
  obtain ⟨ds, next, hu', hlater⟩ := hu.serveUntil
  have hnow := (le_antisymm hu'.high hu'.low).trans hs.clock
  exact ⟨ds, next, hu'.tended, hnow, hs.clock ▸ hlater, hu'.punctual trivial⟩

end Startable

end Depot
end Telemetry
