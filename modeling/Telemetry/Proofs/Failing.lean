/-
# Upkeep that fails

The upkeep of a group goes through its members in order, and a faulty member
breaks it off.  By then the pools in front of the first faulty member were kept
up, each as often as it stands there, and the others were not
(`tickMembers_of_faulty`, `shelves_tickEach`).

A group with such a member that is started in the background waits for its
first deadline (`Doomed.Waiting`), and the service of this deadline ends it
(`Doomed.Failed`).  The pools are then as after a single tick by hand, and they
stay so whatever time passes.  `Doomed.breaks_off` says this of every run that
starts the group and then only lets time pass.
-/

import Telemetry.Proofs.Upkeep

namespace Telemetry
namespace Depot

variable {d d' e : Depot} {h : String} {t : Task} {p q : PoolId} {qs : List PoolId}
  {limit w : Nat}

/-! ### The members in front -/

/-- A depot after the ends of the windows of some pools, in order. -/
def tickEach (d : Depot) (ps : List PoolId) : Depot := ps.foldl (fun d p => (d.tickPool p).2) d

/-- **A faulty member breaks the upkeep off** behind the pools in front of it. -/
theorem tickMembers_of_faulty (d : Depot) (ps : List PoolId) (text : String) (rest : List Member) :
    (d.tickMembers (ps.map .pool ++ .faulty text :: rest)).2 = (some text, d.tickEach ps) := by
  induction ps generalizing d with
  | nil => rfl
  | cons p ps ih => exact ih (d.tickPool p).2

/-- **A pool is kept up as often as it is named.** -/
theorem shelves_tickEach (d : Depot) (ps : List PoolId) (q : PoolId) :
    (d.tickEach ps).shelves[q]? = d.shelves[q]?.map Shelf.ticked^[ps.count q] := by
  induction ps generalizing d with
  | nil => simp [tickEach]
  | cons p ps ih =>
    have hrest : (d.tickEach (p :: ps)).shelves[q]? =
        (d.tickPool p).2.shelves[q]?.map Shelf.ticked^[ps.count q] := ih _
    rw [hrest, shelves_tickPool]
    split_ifs with hp
    · rw [hp, List.count_cons_self, Option.map_map]
      rfl
    · rw [List.count_cons_of_ne hp]

/-! ### Holds that service leaves -/

/-- Serving a deadline renames no pool. -/
theorem serve_pools (d : Depot) (h : String) (t : Task) : (d.serve h t).pools = d.pools := by
  have hticked := tickMembers_only d t.members
  cases hm : (d.tickMembers t.members).2.1 with
  | none => rw [serve_of_sound hm, ← hticked.pools]
  | some text => rw [serve_of_failed hm, (letGoMembers_only _ _).pools, ← hticked.pools]

/-- Serving a deadline renames no group. -/
theorem serve_groups (d : Depot) (h : String) (t : Task) : (d.serve h t).groups = d.groups := by
  have hticked := tickMembers_only d t.members
  cases hm : (d.tickMembers t.members).2.1 with
  | none => rw [serve_of_sound hm, ← hticked.groups]
  | some text => rw [serve_of_failed hm, (letGoMembers_only _ _).groups, ← hticked.groups]

/-- Where no running task keeps up a pool, names and groups alone hold it. -/
theorem Untended.holdsPool_congr (hd : d.Untended qs) (hd' : d'.Untended qs)
    (hpools : d'.pools = d.pools) (hgroups : d'.groups = d.groups) (hq : q ∈ qs) :
    d'.holdsPool q = d.holdsPool q := by
  have hnone : ∀ {e : Depot}, e.Untended qs →
      (e.tasks.values.any fun t => t.running && t.members.contains (.pool q)) = false := by
    intro e he
    rw [List.any_eq_false]
    intro t ht hkept
    rw [Bool.and_eq_true, List.contains_iff_mem] at hkept
    obtain ⟨⟨h, t'⟩, hmem, rfl⟩ := List.mem_map.1 ht
    exact he h t' (Keyed.get?_eq_some_iff.2 hmem) hkept.1 q hq hkept.2
  unfold holdsPool
  rw [hpools, hgroups, hnone hd, hnone hd']

/-! ### The clock -/

/-- Serving up to a moment moves the clock no further than this moment. -/
theorem serveUntil_now (hlimit : d.now ≤ limit) :
    d.now ≤ (d.serveUntil limit).now ∧ (d.serveUntil limit).now ≤ limit := by
  refine serveWithin_induction (P := fun e => d.now ≤ e.now ∧ e.now ≤ limit)
    (fun e h t w ⟨hlow, hhigh⟩ _ hdue => ?_) ⟨le_rfl, hlimit⟩ _
  rw [serve_now]
  exact ⟨hlow.trans (le_max_left _ _), max_le hhigh (due?_eq_some hdue).2.1⟩

/-- Time passes as it is told to. -/
theorem lapse_now (d : Depot) (l : Lapse) :
    (d.step l.command).2.now = d.now + l.milliseconds * Duration.perMillisecond := by
  cases l with
  | sleep n => rfl
  | leap n =>
    rw [Lapse.command, step_leap]
    have hnow := serveUntil_now (d := { d with
      now := d.now + n * Duration.perMillisecond, log := #[], dropped := #[] }) le_rfl
    exact le_antisymm hnow.2 hnow.1

/-! ### A group that is to fail -/

/-- A group with a faulty member that is to be started from a depot on, under a
name that is not in use, and some pools that no other task keeps up. -/
structure Doomed where
  origin : Depot
  group : String
  task : String
  rhythm : Pool.Rhythm
  /-- The pools in front of the first faulty member, in order. -/
  front : List PoolId
  /-- What the first faulty member says. -/
  text : String
  /-- The members behind it. -/
  rest : List Member
  watched : List PoolId
  formed : origin.groups.get? group = some ⟨rhythm, front.map .pool ++ .faulty text :: rest⟩
  interval_pos : 0 < rhythm.interval.nanoseconds
  fresh : origin.tasks.get? task = none
  apart : origin.Apart task watched

namespace Doomed

variable {s : Doomed}

/-- The task as which the group is started. -/
def begun (s : Doomed) : Task where
  members := s.front.map .pool ++ .faulty s.text :: s.rest
  interval := s.rhythm.interval.nanoseconds
  deadline := s.origin.now + s.rhythm.first.nanoseconds

/-- The moment, in nanoseconds, at which the first deadline is to be served. -/
def moment (s : Doomed) : Nat := Pool.wakeTime (s.origin.now + s.rhythm.first.nanoseconds)

/-- The group was started and nothing was served. -/
structure Waiting (s : Doomed) (e : Depot) : Prop where
  task : e.tasks.get? s.task = some s.begun
  shelves : ∀ q ∈ s.watched, e.shelves[q]? = s.origin.shelves[q]?
  apart : e.Apart s.task s.watched

/-- The upkeep of the group has failed.  Whoever still holds a pool finds it
kept up as often as it stands in front. -/
structure Failed (s : Doomed) (e : Depot) : Prop where
  task : ∃ t, e.tasks.get? s.task = some t ∧ t.running = false ∧ t.ticks = 0
  shelves : ∀ q ∈ s.watched, e.holdsPool q = true →
    e.shelves[q]? = s.origin.shelves[q]?.map Shelf.ticked^[s.front.count q]
  untended : e.Untended s.watched

/-- Waiting depends on tasks and shelves only. -/
theorem Waiting.of_same (hw : s.Waiting e) (htasks : d.tasks = e.tasks)
    (hshelves : d.shelves = e.shelves) : s.Waiting d where
  task := htasks ▸ hw.task
  shelves q hq := hshelves ▸ hw.shelves q hq
  apart := hw.apart.of_tasks htasks

/-- While the group waits, running tasks have intervals. -/
theorem Waiting.paced (hw : s.Waiting e) : e.Paced := by
  intro h t hget hrunning
  by_cases hne : h = s.task
  · rw [hne, hw.task, Option.some.injEq] at hget
    rw [← hget]
    exact s.interval_pos
  · exact (hw.apart h t hget hrunning hne).1

/-- **The first service ends the task**, and what it has done by then is done. -/
theorem Waiting.serve (hw : s.Waiting e) (hget : e.tasks.get? s.task = some t) :
    s.Failed (e.serve s.task t) := by
  obtain rfl := Option.some.inj (hget.symm.trans hw.task)
  -- the members in front of the faulty one are ticked, and the tick fails there
  have hticked := tickMembers_of_faulty e s.front s.text s.rest
  have hfailed : (e.tickMembers s.begun.members).2.1 = some s.text := congrArg Prod.fst hticked
  have hfront : (e.tickMembers s.begun.members).2.2 = e.tickEach s.front :=
    congrArg Prod.snd hticked
  have hserved := serve_of_failed (h := s.task) hfailed
  rw [hfront] at hserved
  -- then the task ends and lets go of its pools, which changes no shelf that somebody holds
  have hleft := letGoMembers_only
    { e.tickEach s.front with tasks := e.tasks.insert s.task s.begun.ended } s.begun.members
  rw [← hserved] at hleft
  refine ⟨⟨s.begun.ended, ?_, rfl, rfl⟩, fun q hq hheld => ?_, fun h' t' hget' hrunning => ?_⟩
  · rw [hleft.tasks]
    exact (Keyed.get?_insert _ _ _ _).trans (if_pos rfl)
  · -- who still holds a pool finds it ticked as often as it stands in front
    rw [hleft.holdsPool] at hheld
    rw [hserved, shelves_letGoMembers_of_holds hheld, ← hw.shelves q hq]
    exact shelves_tickEach e s.front q
  · -- the task of the group does not run any more, so any running one is another
    rw [hleft.tasks] at hget'
    have hentry := (Keyed.get?_insert _ _ _ _).symm.trans hget'
    split_ifs at hentry with hsame
    · rw [← Option.some.inj hentry] at hrunning
      cases hrunning
    · exact (hw.apart h' t' hentry hrunning (Ne.symm hsame)).2

/-- The service of another task keeps the group waiting. -/
theorem Waiting.serve_other (hw : s.Waiting e) (hne : h ≠ s.task) (hget : e.tasks.get? h = some t)
    (hrunning : t.running = true) : s.Waiting (e.serve h t) where
  task := (serve_get?_of_ne e t hne).trans hw.task
  shelves q hq := by
    rw [shelves_serve_of_notMem ((hw.apart h t hget hrunning hne).2 q hq)]
    exact hw.shelves q hq
  apart := hw.apart.serve hget fun _ hq => hq

/-- Having failed depends on tasks, shelves and the names of pools and groups only. -/
theorem Failed.of_same (hf : s.Failed e) (htasks : d.tasks = e.tasks)
    (hshelves : d.shelves = e.shelves) (hpools : d.pools = e.pools)
    (hgroups : d.groups = e.groups) : s.Failed d := by
  have huntended : d.Untended s.watched := hf.untended.of_tasks htasks
  refine ⟨htasks ▸ hf.task, fun q hq hheld => ?_, huntended⟩
  rw [hf.untended.holdsPool_congr huntended hpools hgroups hq] at hheld
  exact hshelves ▸ hf.shelves q hq hheld

/-- A task that has ended is not served, and the others leave its pools alone. -/
theorem Failed.serve (hf : s.Failed e) (hget : e.tasks.get? h = some t)
    (hrunning : t.running = true) : s.Failed (e.serve h t) := by
  have huntended : Untended (e.serve h t) s.watched := hf.untended.serve hget fun _ hq => hq
  refine ⟨?_, fun q hq hheld => ?_, huntended⟩
  · obtain ⟨t', hget', hended, hticks⟩ := hf.task
    have hne : h ≠ s.task := by
      rintro rfl
      rw [Option.some.inj (hget.symm.trans hget'), hended] at hrunning
      cases hrunning
    exact ⟨t', (serve_get?_of_ne e t hne).trans hget', hended, hticks⟩
  · rw [hf.untended.holdsPool_congr huntended (serve_pools _ _ _) (serve_groups _ _ _) hq] at hheld
    rw [shelves_serve_of_notMem (hf.untended h t hget hrunning q hq)]
    exact hf.shelves q hq hheld

/-! ### Time that passes -/

/-- A group that failed stays so, whatever is served. -/
theorem Failed.serveUntil (hf : s.Failed e) (limit : Nat) : s.Failed (e.serveUntil limit) := by
  refine serveWithin_induction (P := s.Failed) (fun e h t w hf hget hdue => ?_) hf _
  have hclock : s.Failed { e with now := max e.now w } := hf.of_same rfl rfl rfl rfl
  exact hclock.serve hget (Task.wake?_eq_some.1 (due?_eq_some hdue).1).1

/-- What has become of the group at a moment: before its first deadline is
due it waits, and then it has failed. -/
def Stands (s : Doomed) (now : Nat) (e : Depot) : Prop :=
  s.Waiting e ∧ now < s.moment ∨ s.Failed e ∧ s.moment ≤ now

/-- **Service up to a limit decides** whether the group has failed. -/
theorem Waiting.serveUntil (hw : s.Waiting e) (limit : Nat) :
    s.Stands limit (e.serveUntil limit) := by
  have hstands : s.Waiting (e.serveUntil limit) ∨
      s.Failed (e.serveUntil limit) ∧ s.moment ≤ limit := by
    refine serveWithin_induction (P := fun e => s.Waiting e ∨ s.Failed e ∧ s.moment ≤ limit)
      (fun e h t w he hget hdue => ?_) (.inl hw) _
    obtain ⟨hwake, hlimit, -⟩ := due?_eq_some hdue
    obtain ⟨hrunning, hmoment⟩ := Task.wake?_eq_some.1 hwake
    rcases he with hw | ⟨hf, hpassed⟩
    · have hclock : s.Waiting { e with now := max e.now w } := hw.of_same rfl rfl
      by_cases hne : h = s.task
      · subst hne
        obtain rfl := Option.some.inj (hget.symm.trans hw.task)
        exact .inr ⟨hclock.serve hget, hmoment.trans_le hlimit⟩
      · exact .inl (hclock.serve_other hne hget hrunning)
    · have hclock : s.Failed { e with now := max e.now w } := hf.of_same rfl rfl rfl rfl
      exact .inr ⟨hclock.serve hget hrunning, hpassed⟩
  refine hstands.imp_left fun hw' => ⟨hw', ?_⟩
  -- nothing due is left, and so the first deadline is still to come
  exact lt_of_due?_eq_none (due?_serveUntil hw.paced limit) _ (Keyed.get?_eq_some_iff.1 hw'.task)
    s.moment rfl

/-- A lapse of time leaves the group waiting, makes it fail, or leaves it failed. -/
theorem Stands.lapse (hs : s.Stands e.now e) (l : Lapse) :
    s.Stands (e.step l.command).2.now (e.step l.command).2 := by
  rw [lapse_now]
  rcases hs with ⟨hw, -⟩ | ⟨hf, hpassed⟩
  · -- while it waits the clock decides, and the time passes before or after what is served
    cases l with
    | sleep n =>
      rw [Lapse.command, step_sleep]
      have hcleared : s.Waiting { e with log := #[], dropped := #[] } := hw.of_same rfl rfl
      exact (hcleared.serveUntil _).imp (And.imp_left fun h => h.of_same rfl rfl)
        (And.imp_left fun h => h.of_same rfl rfl rfl rfl)
    | leap n =>
      rw [Lapse.command, step_leap]
      have hleapt : s.Waiting { e with
        now := e.now + n * Duration.perMillisecond, log := #[], dropped := #[] } :=
          hw.of_same rfl rfl
      exact hleapt.serveUntil _
  · -- once it failed it stays failed
    refine .inr ⟨?_, hpassed.trans (Nat.le_add_right _ _)⟩
    cases l with
    | sleep n =>
      rw [Lapse.command, step_sleep]
      have hcleared : s.Failed { e with log := #[], dropped := #[] } := hf.of_same rfl rfl rfl rfl
      exact (hcleared.serveUntil _).of_same rfl rfl rfl rfl
    | leap n =>
      rw [Lapse.command, step_leap]
      have hleapt : s.Failed { e with
        now := e.now + n * Duration.perMillisecond, log := #[], dropped := #[] } :=
          hf.of_same rfl rfl rfl rfl
      exact hleapt.serveUntil _

/-- Lapses in turn leave the group as the clock says, which adds them up. -/
theorem Stands.lapses (hs : s.Stands e.now e) (ls : List Lapse) :
    s.Stands (e.run (ls.map Lapse.command)).2.now (e.run (ls.map Lapse.command)).2 ∧
      (e.run (ls.map Lapse.command)).2.now =
        e.now + (ls.map Lapse.milliseconds).sum * Duration.perMillisecond := by
  induction ls generalizing e with
  | nil => exact ⟨hs, by simp [run]⟩
  | cons l ls ih =>
    obtain ⟨hafter, hnow⟩ := ih (hs.lapse l)
    refine ⟨hafter, hnow.trans ?_⟩
    rw [lapse_now, List.map_cons, List.sum_cons, Nat.add_mul, Nat.add_assoc]

/-- The group waits from its start on, unless its first deadline is due at once. -/
theorem stands_start (s : Doomed) :
    (s.origin.step (.start s.group s.task)).2.now = s.origin.now ∧
      s.Stands s.origin.now (s.origin.step (.start s.group s.task)).2 := by
  set d : Depot := { s.origin with
    groups := s.origin.groups.erase s.group
    tasks := s.origin.tasks.insert s.task s.begun
    log := #[]
    dropped := #[] }.report [.upkeepStarted s.begun.members.length]
  have hstep : (s.origin.step (.start s.group s.task)).2 = d.serveUntil s.origin.now :=
    step_start s.formed s.fresh s.interval_pos.ne'
  have hget : ∀ h', d.tasks.get? h' =
      if s.task = h' then some s.begun else s.origin.tasks.get? h' :=
    fun h' => Keyed.get?_insert _ _ _ _
  have hw : s.Waiting d := by
    refine ⟨(hget _).trans (if_pos rfl), fun _ _ => rfl, fun h' t hget' hrunning hne => ?_⟩
    exact s.apart h' t (((hget h').trans (if_neg hne.symm)).symm.trans hget') hrunning hne
  have hnow : s.origin.now ≤ (d.serveUntil s.origin.now).now ∧
      (d.serveUntil s.origin.now).now ≤ s.origin.now := serveUntil_now (d := d) le_rfl
  rw [hstep]
  exact ⟨le_antisymm hnow.2 hnow.1, hw.serveUntil _⟩

/-! ### What the user finds -/

/-- The answer to a start is the number of ticks so far. -/
theorem step_start_answer (s : Doomed) : (s.origin.step (.start s.group s.task)).1 =
    .ticks (((s.origin.step (.start s.group s.task)).2.tasks.get? s.task).elim 0 (·.ticks)) := by
  simp [step, perform?, s.formed]

/-- The answer to a stop tells whether the task was running. -/
theorem step_stop (hget : e.tasks.get? h = some t) :
    (e.step (.stop h)).1 = .stopped t.running := by
  cases hrunning : t.running <;> simp [step, perform?, hget, stop, hrunning]

/-- A task that has ended leaves nothing to stop. -/
theorem step_stop_ended (hget : e.tasks.get? h = some t) (hended : t.running = false) :
    (e.step (.stop h)).2 = { e with tasks := e.tasks.erase h, log := #[], dropped := #[] } := by
  simp [step, perform?, hget, stop, hended]

/-- What the user finds before the first deadline is due. -/
structure Pends (s : Doomed) (e : Depot) : Prop where
  answered : (e.step (.lookTask s.task)).1 = .running 0 true
  untouched : ∀ q ∈ s.watched, e.shelves[q]? = s.origin.shelves[q]?
  stopped : (e.step (.stop s.task)).1 = .stopped true
  /-- Stopped in time, the task has never touched a pool, and it never will. -/
  kept : ∀ q ∈ s.watched, (e.step (.stop s.task)).2.holdsPool q = true → ∀ ls : List Lapse,
    ((e.step (.stop s.task)).2.run (ls.map Lapse.command)).2.shelves[q]? =
      s.origin.shelves[q]?

/-- What the user finds from then on. -/
structure Fails (s : Doomed) (e : Depot) : Prop where
  answered : (e.step (.lookTask s.task)).1 = .running 0 false
  /-- A pool that is still held is as after one tick by hand. -/
  effect : ∀ q ∈ s.watched, e.holdsPool q = true →
    e.shelves[q]? = (s.origin.step (.tick s.group)).2.shelves[q]?
  /-- No time changes it any more. -/
  final : ∀ q ∈ s.watched, ∀ ls : List Lapse,
    (e.run (ls.map Lapse.command)).2.shelves[q]? = e.shelves[q]?
  stopped : (e.step (.stop s.task)).1 = .stopped false
  /-- Stopping changes no pool. -/
  kept : (e.step (.stop s.task)).2.shelves = e.shelves

/-- A tick by hand is broken off. -/
theorem step_tick_eq (s : Doomed) : s.origin.step (.tick s.group) =
    (.fault s.text, { s.origin with log := #[], dropped := #[] }.tickEach s.front) := by
  have hticked := tickMembers_of_faulty { s.origin with log := #[], dropped := #[] }
    s.front s.text s.rest
  simp [step, perform?, s.formed, hticked]

/-- A tick by hand ends the windows of the members in front of the faulty one, and none
behind it. -/
theorem shelves_step_tick (s : Doomed) (q : PoolId) :
    (s.origin.step (.tick s.group)).2.shelves[q]? =
      s.origin.shelves[q]?.map Shelf.ticked^[s.front.count q] := by
  rw [step_tick_eq]
  exact shelves_tickEach _ _ _

/-- While the group waits, the user finds its pools as they were. -/
theorem Waiting.pends (hw : s.Waiting e) : s.Pends e where
  answered := step_lookTask hw.task
  untouched := hw.shelves
  stopped := step_stop hw.task
  kept q hq hheld ls := by
    obtain ⟨huntended, hsame⟩ := hw.apart.ended hw.task rfl (.inl rfl)
    rw [huntended.lapses ls q hq, hsame q hq hheld]
    exact hw.shelves q hq

/-- Once it failed, the user finds what one broken tick made of the pools. -/
theorem Failed.fails (hf : s.Failed e) : s.Fails e := by
  obtain ⟨t, hget, hended, hticks⟩ := hf.task
  refine ⟨?_, fun q hq hheld => ?_, fun q hq ls => hf.untended.lapses ls q hq, ?_, ?_⟩
  · rw [step_lookTask hget, hended, hticks]
  · rw [shelves_step_tick]
    exact hf.shelves q hq hheld
  · rw [step_stop hget, hended]
  · rw [step_stop_ended hget hended]

/-- The task counts no tick: the first one is the one that fails. -/
theorem Stands.ticks (hs : s.Stands limit e) :
    (e.tasks.get? s.task).elim 0 (·.ticks) = 0 := by
  rcases hs with ⟨hw, -⟩ | ⟨hf, -⟩
  · rw [hw.task]
    rfl
  · obtain ⟨t, hget, -, hticks⟩ := hf.task
    rw [hget]
    exact hticks

/-- The depot after the start and some lapses of time. -/
def after (s : Doomed) (ls : List Lapse) : Depot :=
  (s.origin.run (.start s.group s.task :: ls.map Lapse.command)).2

/-- From the start on, the group stands as the clock says. -/
theorem stands_after (s : Doomed) (ls : List Lapse) : s.Stands (s.after ls).now (s.after ls) ∧
    (s.after ls).now =
      s.origin.now + (ls.map Lapse.milliseconds).sum * Duration.perMillisecond := by
  obtain ⟨hnow, hstands⟩ := s.stands_start
  rw [← hnow] at hstands ⊢
  exact hstands.lapses ls

/-- **A faulty member ends the upkeep of its group with an exact effect.**  A tick
by hand ends the windows of the pools in front of the first faulty member, in
order, each as often as it stands there, and breaks off.  In the background
nothing happens before the first deadline is due; then the same is done once,
the task has ended without a tick, and no time changes the pools any more. -/
theorem breaks_off (s : Doomed) :
    s.origin.step (.tick s.group) =
        (.fault s.text, { s.origin with log := #[], dropped := #[] }.tickEach s.front) ∧
      (∀ q, (s.origin.step (.tick s.group)).2.shelves[q]? =
        s.origin.shelves[q]?.map Shelf.ticked^[s.front.count q]) ∧
      (s.origin.step (.start s.group s.task)).1 = .ticks 0 ∧
      ∀ ls : List Lapse,
        (s.after ls).now =
            s.origin.now + (ls.map Lapse.milliseconds).sum * Duration.perMillisecond ∧
          ((s.after ls).now < s.moment → s.Pends (s.after ls)) ∧
          (s.moment ≤ (s.after ls).now → s.Fails (s.after ls)) := by
  refine ⟨s.step_tick_eq, s.shelves_step_tick, ?_, fun ls => ?_⟩
  · rw [step_start_answer, s.stands_start.2.ticks]
  · obtain ⟨hstands, hnow⟩ := s.stands_after ls
    refine ⟨hnow, fun hbefore => ?_, fun hpassed => ?_⟩
    · rcases hstands with ⟨hw, -⟩ | ⟨-, hpassed⟩
      · exact hw.pends
      · exact absurd hbefore (Nat.not_lt.2 hpassed)
    · rcases hstands with ⟨-, hbefore⟩ | ⟨hf, -⟩
      · exact absurd hbefore (Nat.not_lt.2 hpassed)
      · exact hf.fails

/-- Three pools of the capacity 16, of which the first one stands twice in front
of a faulty member and the last one behind it; the first deadline is after 5
milliseconds. -/
def faltering : Doomed where
  origin := (({} : Depot).run [.setUp "a" "item" (.ofCapacity 16),
    .setUp "b" "item" (.ofCapacity 16), .setUp "c" "item" (.ofCapacity 16),
    .form "g" ⟨.ofMilliseconds 5, .ofMilliseconds 30⟩
      [.inl "a", .inl "b", .inl "a", .inr "broken", .inl "c", .inl "b"]]).2
  group := "g"
  task := "h"
  rhythm := ⟨.ofMilliseconds 5, .ofMilliseconds 30⟩
  front := [0, 1, 0]
  text := "broken"
  rest := [.pool 2, .pool 1]
  watched := [0, 1, 2]
  formed := rfl
  interval_pos := by decide
  fresh := rfl
  apart h t hget _ _ := by cases hget

/-- After 4 milliseconds it waits.  After 5 it has failed with a quarter of the
first pool's capacity left, half of the second one's, and all of the third
one's, and so it stays. -/
theorem breaks_off_faltering : faltering.Pends (faltering.after [.sleep 4]) ∧
    faltering.Fails (faltering.after [.sleep 4, .leap 1]) ∧
    ([0, 1, 2].map fun q => ((faltering.after [.sleep 4, .leap 1]).shelf q).pool.capacity) =
      [4, 8, 16] := by
  obtain ⟨-, -, -, hruns⟩ := faltering.breaks_off
  exact ⟨(hruns [.sleep 4]).2.1 (by decide +kernel),
    (hruns [.sleep 4, .leap 1]).2.2 (by decide +kernel), by decide +kernel⟩

end Doomed

end Depot
end Telemetry
