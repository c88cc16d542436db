/-
# Deadlines and their service

The deadlines of a task lie on a grid.  Service in time goes on to the next
point, late service leaves some out, and both stay on the grid
(`OnGrid.nextDeadline`).  The clock of a depot serves whatever is due, always
the task that is to be woken first; since each service uses up a deadline,
nothing is due any more when it is done (`due?_serveWithin`).
-/

import Telemetry.Depot.Command
import Telemetry.Proofs.Courses
import Telemetry.Proofs.Keyed

namespace Telemetry
namespace Pool

/-! ### The grid -/

/-- The points of a grid. -/
def OnGrid (first interval x : Nat) : Prop := ∃ k, x = first + k * interval

/-- How many points of a grid there are up to a moment. -/
def gridPoints (first interval now : Nat) : Nat :=
  if now < first then 0 else 1 + (now - first) / interval

variable {first interval deadline now n : Nat}

/-- A deadline is followed by one a whole interval later, or even later. -/
theorem add_le_nextDeadline : deadline + interval ≤ nextDeadline interval deadline now := by
  unfold nextDeadline
  split_ifs with h
  · have hmod := Nat.mod_le (now - deadline) interval
    omega
  · exact le_rfl

/-- A deadline that is served in time is followed by the next grid point. -/
theorem nextDeadline_of_le (h : now ≤ deadline) :
    nextDeadline interval deadline now = deadline + interval :=
  if_neg (by omega)

/-- **Deadlines stay on the grid**, served in time or not. -/
theorem OnGrid.nextDeadline (h : OnGrid first interval deadline) :
    OnGrid first interval (nextDeadline interval deadline now) := by
  obtain ⟨k, rfl⟩ := h
  unfold Pool.nextDeadline
  split_ifs with hlate
  · set late := now - (first + k * interval) with hlate'
    refine ⟨k + late / interval + 1, ?_⟩
    have hdiv := Nat.div_add_mod' late interval
    rw [Nat.add_mul, Nat.add_mul, Nat.one_mul]
    omega
  · exact ⟨k + 1, by rw [Nat.add_mul, Nat.one_mul, Nat.add_assoc]⟩

/-- A sleeper never wakes before its deadline. -/
theorem le_wakeTime (deadline : Nat) : deadline ≤ wakeTime deadline := by
  simp only [wakeTime, Duration.ceilMilliseconds, Duration.perMillisecond]
  omega

/-- A deadline at a whole millisecond is served at its moment. -/
theorem wakeTime_of_dvd (h : Duration.perMillisecond ∣ deadline) :
    wakeTime deadline = deadline := by
  simp only [wakeTime, Duration.ceilMilliseconds, Duration.perMillisecond] at *
  omega

end Pool

namespace Depot

variable {d : Depot} {h h' : String} {t t' : Task} {limit w n : Nat}

/-! ### What is due -/

/-- A task wakes for its deadline as long as it runs. -/
theorem Task.wake?_eq_some :
    t.wake? = some w ↔ t.running = true ∧ Pool.wakeTime t.deadline = w := by
  simp [wake?]

/-- What is not due is to be woken later. -/
theorem lt_of_due?_eq_none {l : List (String × Task)} (hdue : due? limit l = none) :
    ∀ e ∈ l, ∀ w, e.2.wake? = some w → limit < w := by
  induction l with
  | nil => simp
  | cons x l ih =>
    obtain ⟨m, u⟩ := x
    rw [due?] at hdue
    rw [List.forall_mem_cons]
    cases hu : u.wake? with
    | none =>
      rw [hu] at hdue
      exact ⟨fun w hw => (by cases hw), ih hdue⟩
    | some v =>
      cases hrest : due? limit l with
      | none =>
        simp only [hu, hrest, ite_eq_left_iff, reduceCtorEq, imp_false, not_not] at hdue
        exact ⟨fun w hw => by cases hw; exact hdue, ih hrest⟩
      | some r =>
        simp only [hu, hrest] at hdue
        split_ifs at hdue

/-- What is served first is due, and nothing is to be woken before it. -/
theorem due?_eq_some {l : List (String × Task)} (hdue : due? limit l = some (h, t, w)) :
    t.wake? = some w ∧ w ≤ limit ∧ ∀ e ∈ l, ∀ v, e.2.wake? = some v → w ≤ v := by
  induction l generalizing h t w with
  | nil => cases hdue
  | cons x l ih =>
    obtain ⟨m, u⟩ := x
    rw [due?] at hdue
    rw [List.forall_mem_cons]
    -- a task that does not wake is passed over
    cases hu : u.wake? with
    | none =>
      rw [hu] at hdue
      obtain ⟨hwake, hle, hfirst⟩ := ih hdue
      exact ⟨hwake, hle, fun v hv => (by cases hv), hfirst⟩
    | some v =>
      cases hrest : due? limit l with
      | none =>
        simp only [hu, hrest] at hdue
        split_ifs at hdue with hlimit
        cases hdue
        exact ⟨hu, Nat.not_lt.1 hlimit, fun v' hv => by cases hv; exact le_rfl, fun e he v' hv =>
          (Nat.not_lt.1 hlimit).trans (lt_of_due?_eq_none hrest e he v' hv).le⟩
      | some r =>
        obtain ⟨m', u', v'⟩ := r
        obtain ⟨hwake, hle, hfirst⟩ := ih hrest
        simp only [hu, hrest] at hdue
        -- the earlier one of the first task and of those behind it is served
        split_ifs at hdue with hlater
        · cases hdue
          exact ⟨hwake, hle, fun v hv => by cases hv; omega, hfirst⟩
        · cases hdue
          exact ⟨hu, by omega, fun v hv => by cases hv; exact le_rfl, fun e he v hv =>
            le_trans (by omega) (hfirst e he v hv)⟩

/-! ### What service changes -/

/-- A task after the service of a deadline, with the next one. -/
def Task.advanced (t : Task) (next : Nat) : Task :=
  { t with ticks := t.ticks + 1, deadline := next }

/-- A task that was served still runs. -/
@[simp] theorem Task.advanced_running (t : Task) (next : Nat) :
    (t.advanced next).running = t.running := rfl

/-- The deadline of a task after the one that is served now. -/
def Task.next (t : Task) (now : Nat) : Nat := Pool.nextDeadline t.interval t.deadline now

/-- A task after the upkeep of a member failed. -/
def Task.ended (t : Task) : Task := { t with running := false, members := [] }

/-- The depots differ in pools and reports at most. -/
structure OnlyPools (d d' : Depot) : Prop where
  pools : d'.pools = d.pools
  groups : d'.groups = d.groups
  tasks : d'.tasks = d.tasks
  now : d'.now = d.now

namespace OnlyPools

variable {d d' d'' : Depot}

/-- A depot differs from itself in nothing. -/
theorem refl (d : Depot) : OnlyPools d d := ⟨rfl, rfl, rfl, rfl⟩

/-- Differences in pools alone add up to such. -/
theorem trans (h : OnlyPools d d') (h' : OnlyPools d' d'') : OnlyPools d d'' :=
  ⟨h'.pools.trans h.pools, h'.groups.trans h.groups, h'.tasks.trans h.tasks, h'.now.trans h.now⟩

/-- The same names, groups and tasks hold pools. -/
theorem holdsPool (h : OnlyPools d d') (p : PoolId) : d'.holdsPool p = d.holdsPool p := by
  unfold Depot.holdsPool
  rw [h.pools, h.groups, h.tasks]

end OnlyPools

/-- The end of a window changes pools only. -/
theorem tickPool_only (d : Depot) (p : PoolId) : OnlyPools d (d.tickPool p).2 :=
  ⟨rfl, rfl, rfl, rfl⟩

/-- The ends of the windows of members change pools only. -/
theorem tickMembers_only (d : Depot) (ms : List Member) : OnlyPools d (d.tickMembers ms).2.2 := by
  induction ms generalizing d with
  | nil => exact .refl d
  | cons m ms ih =>
    cases m with
    | faulty text => exact .refl d
    | pool p => exact (tickPool_only d p).trans (ih _)

/-- Letting go of a pool changes pools only. -/
theorem letGoPool_only (d : Depot) (p : PoolId) : OnlyPools d (d.letGoPool p) := by
  unfold letGoPool
  split
  · exact .refl d
  · exact ⟨rfl, rfl, rfl, rfl⟩

/-- Letting go of the pools of members changes pools only. -/
theorem letGoMembers_only (d : Depot) (ms : List Member) : OnlyPools d (d.letGoMembers ms) := by
  induction ms generalizing d with
  | nil => exact .refl d
  | cons m ms ih =>
    cases m with
    | faulty text => exact ih d
    | pool p =>
      refine OnlyPools.trans ?_ (ih _)
      split
      · exact .refl d
      · exact letGoPool_only d p

/-- A service without failure sets the next deadline of its task. -/
theorem serve_of_sound (hm : (d.tickMembers t.members).2.1 = none) : d.serve h t =
    { (d.tickMembers t.members).2.2 with
      tasks := (d.tasks.erase h).insert h (t.advanced (t.next d.now)) } := by
  have hticked := tickMembers_only d t.members
  unfold serve
  rcases htick : d.tickMembers t.members with ⟨us, failure, d₁⟩
  rw [htick] at hm hticked
  dsimp only at hm hticked
  subst hm
  dsimp only
  rw [hticked.tasks, hticked.now]
  rfl

/-- A service in which a member fails ends its task, and the pools are let go. -/
theorem serve_of_failed {text : String} (hm : (d.tickMembers t.members).2.1 = some text) :
    d.serve h t =
      { (d.tickMembers t.members).2.2 with
        tasks := d.tasks.insert h t.ended }.letGoMembers t.members := by
  have hticked := tickMembers_only d t.members
  unfold serve
  rcases htick : d.tickMembers t.members with ⟨us, failure, d₁⟩
  rw [htick] at hm hticked
  dsimp only at hm hticked
  subst hm
  dsimp only
  rw [hticked.tasks]
  rfl

/-- Service moves the deadline of a task on, or it ends the task. -/
theorem serve_tasks (d : Depot) (h : String) (t : Task) :
    (d.serve h t).tasks = (d.tasks.erase h).insert h (t.advanced (t.next d.now)) ∨
      (d.serve h t).tasks = d.tasks.insert h t.ended := by
  cases hm : (d.tickMembers t.members).2.1 with
  | none => exact .inl (by rw [serve_of_sound hm])
  | some text => exact .inr (by rw [serve_of_failed hm, (letGoMembers_only _ _).tasks])

/-- Service takes no time. -/
theorem serve_now (d : Depot) (h : String) (t : Task) : (d.serve h t).now = d.now := by
  have hticked := tickMembers_only d t.members
  cases hm : (d.tickMembers t.members).2.1 with
  | none => rw [serve_of_sound hm, ← hticked.now]
  | some text => rw [serve_of_failed hm, (letGoMembers_only _ _).now, ← hticked.now]

/-- Service changes no other task. -/
theorem serve_get?_of_ne (d : Depot) (t : Task) (hne : h ≠ h') :
    (d.serve h t).tasks.get? h' = d.tasks.get? h' := by
  rcases serve_tasks d h t with htasks | htasks <;>
    simp [htasks, Keyed.get?_insert, Keyed.get?_erase, hne]

/-- Every running task has a property. -/
def EachRunning (d : Depot) (Q : String → Task → Prop) : Prop :=
  ∀ h t, d.tasks.get? h = some t → t.running = true → Q h t

section EachRunning

variable {Q : String → Task → Prop}

/-- What holds of each running task is a matter of the tasks. -/
theorem EachRunning.of_tasks {d' : Depot} (hd : d.EachRunning Q) (htasks : d'.tasks = d.tasks) :
    d'.EachRunning Q := by
  unfold EachRunning
  rw [htasks]
  exact hd

/-- Service keeps what does not depend on the deadline. -/
theorem EachRunning.serve (hd : d.EachRunning Q) (hget : d.tasks.get? h = some t)
    (hadvanced : ∀ next, Q h t → Q h (t.advanced next)) : (d.serve h t).EachRunning Q := by
  intro h' t' hget' hrunning
  by_cases hne : h = h'
  · subst hne
    rcases serve_tasks d h t with htasks | htasks <;>
      rw [htasks, Keyed.get?_insert, if_pos rfl, Option.some.injEq] at hget' <;>
      rw [← hget'] at hrunning ⊢
    · rw [Task.advanced_running] at hrunning
      exact hadvanced _ (hd h t hget hrunning)
    · cases hrunning
  · exact hd h' t' (serve_get?_of_ne d t hne ▸ hget') hrunning

end EachRunning

/-! ### Nothing due is left -/

/-- How many services there can be up to a limit. -/
def pending (d : Depot) (limit : Nat) : Nat :=
  d.tasks.values.foldr (fun t n => t.deadlinesUpTo limit + n) 0

/-- What a task still awaits, as many units as deadlines. -/
def Task.awaited (limit : Nat) (t : Task) : Multiset Unit :=
  .replicate (t.deadlinesUpTo limit) ()

/-- The services that there can be are counted task by task. -/
theorem pending_eq_card (d : Depot) (limit : Nat) :
    d.pending limit = Multiset.card (Keyed.total (Task.awaited limit) d.tasks) := by
  unfold pending Keyed.total Keyed.values
  induction d.tasks.entries with
  | nil => rfl
  | cons e l ih => simp [ih, Task.awaited]

/-- A deadline that was served is not awaited any more. -/
theorem Task.advanced_deadlines (hrunning : t.running = true) (hinterval : 0 < t.interval)
    (hlimit : t.deadline ≤ limit) {next : Nat} (hnext : t.deadline + t.interval ≤ next) :
    (t.advanced next).deadlinesUpTo limit + 1 ≤ t.deadlinesUpTo limit := by
  have hbefore : t.deadlinesUpTo limit = (limit - t.deadline) / t.interval + 1 := by
    simp [deadlinesUpTo, hrunning, hlimit]
  rw [hbefore, Nat.add_le_add_iff_right]
  by_cases hdue : next ≤ limit
  · have hafter : (t.advanced next).deadlinesUpTo limit =
        (limit - next + t.interval) / t.interval := by
      rw [Nat.add_div_right _ hinterval]
      simp [deadlinesUpTo, advanced, hrunning, hdue]
    rw [hafter]
    exact Nat.div_le_div_right (by omega)
  · have hafter : (t.advanced next).deadlinesUpTo limit = 0 := by
      simp [deadlinesUpTo, advanced, hdue]
    rw [hafter]
    exact Nat.zero_le _

/-- Running tasks have an interval. -/
def Paced (d : Depot) : Prop := d.EachRunning fun _ t => 0 < t.interval

/-- **Each service uses up a deadline.** -/
theorem pending_serve (hd : d.Paced) (hget : d.tasks.get? h = some t) (hwake : t.wake? = some w)
    (hlimit : w ≤ limit) : (d.serve h t).pending limit + 1 ≤ d.pending limit := by
  obtain ⟨hrunning, rfl⟩ := Task.wake?_eq_some.1 hwake
  have hdeadline : t.deadline ≤ limit := (Pool.le_wakeTime _).trans hlimit
  -- it is enough that the task has less deadlines ahead after its service than before
  have hused : ∀ t', (Keyed.total (Task.awaited limit) (d.serve h t).tasks) + Task.awaited limit t =
      Keyed.total (Task.awaited limit) d.tasks + Task.awaited limit t' →
      t'.deadlinesUpTo limit + 1 ≤ t.deadlinesUpTo limit →
      (d.serve h t).pending limit + 1 ≤ d.pending limit := by
    intro t' htotal hless
    have hcard := congrArg Multiset.card htotal
    rw [Multiset.card_add, Multiset.card_add, ← pending_eq_card, ← pending_eq_card, Task.awaited,
      Task.awaited, Multiset.card_replicate, Multiset.card_replicate] at hcard
    omega
  have hnext : t.deadline + t.interval ≤ t.next d.now := Pool.add_le_nextDeadline
  have hadvanced := Task.advanced_deadlines hrunning (hd h t hget hrunning) hdeadline hnext
  rcases serve_tasks d h t with htasks | htasks <;> rw [htasks] at hused
  · -- a task that goes on has its next deadline an interval later at least
    refine hused (t.advanced (t.next d.now)) ?_ hadvanced
    have hinsert := Keyed.total_insert (Task.awaited limit) (d.tasks.erase h) h
      (t.advanced (t.next d.now))
    have herase := Keyed.total_erase (Task.awaited limit) d.tasks h
    rw [Keyed.get?_erase, if_pos rfl, Option.elim_none, add_zero] at hinsert
    rw [hget, Option.elim_some] at herase
    rw [hinsert, ← herase, add_right_comm]
  · -- a task that ended has none
    refine hused t.ended ?_ ?_
    · have hinsert := Keyed.total_insert (Task.awaited limit) d.tasks h t.ended
      rwa [hget, Option.elim_some] at hinsert
    · have hnone : t.ended.deadlinesUpTo limit = 0 := by simp [Task.deadlinesUpTo, Task.ended]
      omega

/-- A depot that serves what is due keeps what each service keeps. -/
theorem serveWithin_induction {P : Depot → Prop}
    (hserve : ∀ d h t w, P d → d.tasks.get? h = some t →
      due? limit d.tasks.entries = some (h, t, w) → P ({ d with now := max d.now w }.serve h t))
    (hd : P d) (n : Nat) : P (d.serveWithin limit n) := by
  induction n generalizing d with
  | zero => exact hd
  | succ n ih =>
    rw [serveWithin]
    split
    · exact hd
    · rename_i h t w hdue
      exact ih (hserve d h t w hd (Keyed.get?_eq_some_iff.2 (due?_mem hdue)) hdue)

/-- With fuel for all pending services, nothing is due afterwards. -/
theorem due?_serveWithin (hd : d.Paced) (hn : d.pending limit ≤ n) :
    due? limit (d.serveWithin limit n).tasks.entries = none := by
  induction n generalizing d with
  | zero =>
    rw [serveWithin]
    -- without fuel, a task that is due would still be pending
    cases hdue : due? limit d.tasks.entries with
    | none => rfl
    | some r =>
      obtain ⟨h, t, w⟩ := r
      obtain ⟨hwake, hlimit, -⟩ := due?_eq_some hdue
      have hless := pending_serve hd (Keyed.get?_eq_some_iff.2 (due?_mem hdue)) hwake hlimit
      omega
  | succ n ih =>
    rw [serveWithin]
    split
    · assumption
    · rename_i h t w hdue
      obtain ⟨hwake, hlimit, -⟩ := due?_eq_some hdue
      have hget : d.tasks.get? h = some t := Keyed.get?_eq_some_iff.2 (due?_mem hdue)
      -- the clock is moved first, which changes neither tasks nor what is pending
      have hclock : Paced { d with now := max d.now w } := hd.of_tasks rfl
      have hless := pending_serve hclock hget hwake hlimit
      have hsame : pending { d with now := max d.now w } limit = d.pending limit := rfl
      exact ih (hclock.serve hget fun _ hpos => hpos) (by omega)

/-- **Service leaves nothing due.** -/
theorem due?_serveUntil (hd : d.Paced) (limit : Nat) :
    due? limit (d.serveUntil limit).tasks.entries = none :=
  due?_serveWithin hd le_rfl

end Depot
end Telemetry
