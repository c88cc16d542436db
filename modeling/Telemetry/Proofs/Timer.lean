/-
# The flush timer

A batcher is due for a flush when it has waited long enough since its timer was
restarted.  Two things restart the timer: that a batch is formed, and that a flush
ends well (`Batcher.flush_timed`).  So after a flush that does either the batcher
is not due before its timeout is over, whatever is done to it
(`Tracer.flush_restarts`).

A flush that finds nothing but refused batches and is refused does neither; its
batcher stays due (`Tracer.due_stillRefused`).
-/

import Telemetry.Proofs.Rounds
import Telemetry.Proofs.Sweep

namespace Telemetry

open Trace

namespace Batcher

variable {b b' : Batcher} {s s' : Store} {since now : Nat}

/-! ### What restarts the timer -/

/-- Taking the pending records restarts the timer, unless there are none. -/
theorem lastFlush_takeBatch (b : Batcher) (now : Nat) :
    (b.takeBatch now).2.lastFlush = if b.pending = [] then b.lastFlush else now := by
  rw [takeBatch]
  by_cases hp : b.pending = []
  · rw [if_pos (List.isEmpty_iff.2 hp), if_pos hp]
  · rw [if_neg (mt List.isEmpty_iff.1 hp), if_neg hp]

/-- Dropping batches does not restart the timer. -/
theorem lastFlush_dropOldest (n : Nat) :
    ∀ (b : Batcher) (s : Store), (b.dropOldest s n).2.1.lastFlush = b.lastFlush := by
  induction n with
  | zero => exact fun _ _ => rfl
  | succ n ih =>
    intro b s
    unfold dropOldest
    cases b.queue with
    | nil => rfl
    | cons oldest rest =>
      dsimp only
      cases releaseRecords oldest
        (s.report [.batchDropped oldest.length b.limits.retryBatches]) with
      | ok _ s' => exact ih _ s'
      | error _ _ => rfl

/-- What sending batches makes of the timer. -/
structure Timed (b : Batcher) (out : Flushed × Batcher × Exporter × Store) : Prop where
  done : out.1 = .done → out.2.1.lastFlush = out.2.2.2.now
  failed : out.1 ≠ .done → out.2.1.lastFlush = b.lastFlush

/-- Sending batches does not restart the timer unless all of them are done, by induction on
the batches. -/
theorem sendAll_timed (batches : List (List RecordId)) :
    ∀ (b : Batcher) e s, Timed b (b.sendAll e s batches) := by
  induction batches with
  | nil => exact fun _ _ _ => ⟨fun _ => rfl, fun h => absurd rfl h⟩
  | cons batch rest ih =>
    intro b e s
    unfold sendAll
    rcases e.send batch s with ⟨_ | reason | f, e₁, s₁⟩ <;> dsimp only
    · have hrest := ih { b with metrics := b.metrics.success batch.length } e₁ s₁
      exact ⟨hrest.done, hrest.failed⟩
    · set b₁ : Batcher := { b with queue := batch :: rest, metrics := b.metrics.failure }
      have hdrop : (b₁.trim s₁).2.1.lastFlush = b.lastFlush := lastFlush_dropOldest _ b₁ s₁
      rcases htrim : b₁.trim s₁ with ⟨_ | f, b₂, s₂⟩ <;> rw [htrim] at hdrop <;>
        exact ⟨fun h => (by cases h), fun _ => hdrop⟩
    · exact ⟨fun h => (by cases h), fun _ => rfl⟩

/-- **A flush restarts the timer** if it ends well, and else if it forms a batch. -/
theorem flush_timed (b : Batcher) (e : Exporter) (s : Store) :
    Timed { b with lastFlush := if b.pending = [] then b.lastFlush else s.now } (b.flush e s) := by
  have h := sendAll_timed (b.queue ++ (b.takeBatch s.now).1.toList) (b.takeBatch s.now).2 e s
  rw [← (b.takeBatch_eq s.now).1] at h
  exact ⟨h.done, fun hfailed => (h.failed hfailed).trans (lastFlush_takeBatch b s.now)⟩

/-! ### What the timer is good for -/

/-- Before the timeout is over a few records are not worth a flush. -/
theorem shouldFlush_eq_false (hsince : since ≤ b.lastFlush)
    (htime : (Duration.ofMilliseconds (now - since)).nanoseconds < b.limits.timeout.nanoseconds)
    (hsize : b.totalPending < b.limits.size) : b.shouldFlush now = false := by
  have helapsed : (Duration.ofMilliseconds (now - b.lastFlush)).nanoseconds ≤
      (Duration.ofMilliseconds (now - since)).nanoseconds :=
    Nat.mul_le_mul_right _ (Nat.sub_le_sub_left hsince now)
  rw [shouldFlush, decide_eq_false hsize.not_ge, decide_eq_false (helapsed.trans_lt htime).not_ge,
    Bool.or_self, Bool.and_false]

/-- The timer of a batcher goes on, and its limits stay. -/
structure Ticks (s' : Store) (b b' : Batcher) : Prop where
  limits : b'.limits = b.limits
  later : b.lastFlush ≤ b'.lastFlush
  now : b'.lastFlush ≤ s'.now

/-- A timer that ticks through two changes ticks through both. -/
theorem Ticks.trans {s'' : Store} {b'' : Batcher} (h : Ticks s' b b') (h' : Ticks s'' b' b'') :
    Ticks s'' b b'' :=
  ⟨h'.limits.trans h.limits, h.later.trans h'.later, h'.now⟩

/-- A call of the batcher lets its timer go on, or restarts it at the time of the call. -/
theorem Called.ticks (h : Called s s' b b') (hb : b.lastFlush ≤ s.now) (hs : s.now ≤ s'.now) :
    Ticks s' b b' := by
  obtain ⟨-, hlimits, -⟩ := b.takeBatch_eq s.now
  -- records that are formed into a batch restart the timer at the time of the call
  have hformed : b.lastFlush ≤ (if b.pending = [] then b.lastFlush else s.now) ∧
      (if b.pending = [] then b.lastFlush else s.now) ≤ s.now := by
    split_ifs
    · exact ⟨le_rfl, hb⟩
    · exact ⟨hb, le_rfl⟩
  cases h with
  | spared | add | recount => exact ⟨rfl, le_rfl, hb.trans hs⟩
  | takeBatch =>
    rw [← lastFlush_takeBatch] at hformed
    exact ⟨hlimits, hformed.1, hformed.2.trans hs⟩
  | flush e hs' =>
    have htimed := flush_timed b e s
    have hkept := (flush_sending b e s).limits.trans hlimits
    -- a flush that ends well restarts the timer at its end
    by_cases hdone : (b.flush e s).1 = .done
    · have hlast := htimed.done hdone
      rw [← hs'] at hlast
      exact ⟨hkept, hlast ▸ hb.trans hs, hlast.le⟩
    · have hlast := htimed.failed hdone
      exact ⟨hkept, hlast ▸ hformed.1, hlast ▸ hformed.2.trans hs⟩

end Batcher

namespace Tracer

open Batcher (Ticks)

variable {t : Tracer} {q en : String} {b : Batcher} {c : Command}

/-! ### Runs -/

/-- No timer was restarted later than now. -/
def Punctual (t : Tracer) : Prop :=
  ∀ q b, t.batchers.get? q = some b → b.lastFlush ≤ t.store.now

/-- A step lets the timer of every batcher go on that it does not set up anew. -/
theorem step_ticks (hb : t.batchers.get? q = some b) (hnow : b.lastFlush ≤ t.store.now)
    (hnew : ∀ limits, c ≠ .batcher q limits) :
    ∃ b', (t.step c).2.batchers.get? q = some b' ∧ Ticks (t.step c).2.store b b' := by
  have hcalled := step_called t hnew
  rw [hb] at hcalled
  cases hq : (t.step c).2.batchers.get? q with
  | none =>
    rw [hq] at hcalled
    cases hcalled
  | some b' =>
    rw [hq] at hcalled
    cases hcalled with
    | some h => exact ⟨b', rfl, h.ticks hnow (step_follows t c).now_le⟩

/-- No step restarts a timer later than now. -/
theorem Punctual.step (h : t.Punctual) (c : Command) : (t.step c).2.Punctual := by
  intro q b' hb'
  by_cases hnew : ∃ limits, c = .batcher q limits
  · obtain ⟨limits, rfl⟩ := hnew
    have hstart : (t.step (.batcher q limits)).2.batchers.get? q =
        some (.start limits t.store.now) := (Keyed.get?_insert ..).trans (if_pos rfl)
    obtain rfl := Option.some.inj (hstart.symm.trans hb')
    exact le_rfl
  · have hother : ∀ limits, c ≠ .batcher q limits := fun limits hc => hnew ⟨limits, hc⟩
    cases hb : t.batchers.get? q with
    | none =>
      have hcalled := step_called t hother
      rw [hb, hb'] at hcalled
      cases hcalled
    | some b =>
      obtain ⟨b₁, hb₁, hticks⟩ := step_ticks hb (h q b hb) hother
      obtain rfl := Option.some.inj (hb₁.symm.trans hb')
      exact hticks.now

/-- No run restarts a timer later than now. -/
theorem Punctual.run (cs : List Command) : ∀ t : Tracer, t.Punctual → (t.run cs).2.Punctual := by
  induction cs with
  | nil => exact fun _ h => h
  | cons c cs ih => exact fun t h => ih _ (h.step c)

/-- The timer goes on through a run in which the batcher is not set up anew. -/
theorem run_ticks (cs : List Command) : ∀ {t : Tracer} {b : Batcher},
    t.batchers.get? q = some b → b.lastFlush ≤ t.store.now → (∀ limits, .batcher q limits ∉ cs) →
    ∃ b', (t.run cs).2.batchers.get? q = some b' ∧ Ticks (t.run cs).2.store b b' := by
  induction cs with
  | nil => exact fun hb hnow _ => ⟨_, hb, rfl, le_rfl, hnow⟩
  | cons c cs ih =>
    intro t b hb hnow hnew
    obtain ⟨b₁, hb₁, h₁⟩ := step_ticks hb hnow
      fun limits hc => hnew limits (hc ▸ List.mem_cons_self)
    obtain ⟨b', hb', h'⟩ := ih hb₁ h₁.now
      fun limits hmem => hnew limits (List.mem_cons_of_mem _ hmem)
    exact ⟨b', hb', h₁.trans h'⟩

/-- The moment from which the timer of a batcher counts after a flush with that
answer. -/
def timerAfter (t : Tracer) (b : Batcher) : Reply → Nat
  | .done => t.store.now
  | _ => if b.pending = [] then b.lastFlush else t.store.now

/-- A flush leaves a timer that is no earlier than what its answer tells. -/
theorem timerAfter_le (t : Tracer) (b : Batcher) (e : Exporter)
    (hnow : t.store.now ≤ (b.flush e t.store).2.2.2.now) :
    t.timerAfter b (flushReply (b.flush e t.store).1) ≤ (b.flush e t.store).2.1.lastFlush := by
  have htimed := b.flush_timed e t.store
  rcases hflush : b.flush e t.store with ⟨_ | _ | _, b₁, e₁, s₁⟩ <;> rw [hflush] at htimed hnow
  · exact (htimed.done rfl).symm ▸ hnow
  · exact (htimed.failed nofun).ge
  · exact (htimed.failed nofun).ge

/-- **A flush that ends well or forms a batch restarts the timer**, whatever was done
before.  Through all that is done afterwards short of setting the batcher up anew, it
is not due at any moment before its timeout is over, counted from the begin of the
flush, as long as too few records wait in it.  After any other flush this counts from
the moment at which the timer was restarted last. -/
theorem flush_restarts (before after : List Command) (q en : String) (b : Batcher)
    (e : Exporter) :
    let t := (({} : Tracer).run before).2
    let out := t.step (.flush q en)
    let t' := (out.2.run after).2
    t.batchers.get? q = some b → t.exporters.get? en = some e →
      (∀ limits, .batcher q limits ∉ after) →
      ∃ b', t'.batchers.get? q = some b' ∧ b'.limits = b.limits ∧
        t.timerAfter b out.1 ≤ b'.lastFlush ∧ b'.lastFlush ≤ t'.store.now ∧
        ((Duration.ofMilliseconds (t'.store.now - t.timerAfter b out.1)).nanoseconds <
            b.limits.timeout.nanoseconds →
          b'.totalPending < b.limits.size → b'.shouldFlush t'.store.now = false) := by
  intro t out t' hb he hnew
  have hpast : b.lastFlush ≤ t.store.now := Punctual.run before {} nofun q b hb
  have hout : out = (flushReply (b.flush e t.cleared.store).1, { t.cleared with
      store := (b.flush e t.cleared.store).2.2.2
      batchers := t.batchers.insert q (b.flush e t.cleared.store).2.1
      exporters := t.exporters.insert en (b.flush e t.cleared.store).2.2.1 }) :=
    answer_flush (t := t.cleared) hb he
  have hnow : t.store.now ≤ out.2.store.now := (step_follows t (.flush q en)).now_le
  rw [hout] at hnow
  -- the batcher as the flush leaves it
  have hb₁ : out.2.batchers.get? q = some (b.flush e t.cleared.store).2.1 := by
    rw [hout]
    exact (Keyed.get?_insert ..).trans (if_pos rfl)
  have hticks : Ticks out.2.store b (b.flush e t.cleared.store).2.1 := by
    rw [hout]
    exact (Batcher.Called.flush (s := t.cleared.store) e rfl).ticks hpast hnow
  have htimer : t.timerAfter b out.1 ≤ (b.flush e t.cleared.store).2.1.lastFlush := by
    rw [hout]
    exact timerAfter_le t.cleared b e hnow
  -- and what it is later
  obtain ⟨b', hb', hlater⟩ := run_ticks after hb₁ hticks.now hnew
  have hlimits := hlater.limits.trans hticks.limits
  have hsince := htimer.trans hlater.later
  refine ⟨b', hb', hlimits, hsince, hlater.now, fun htime hsize => ?_⟩
  rw [← hlimits] at htime hsize
  exact Batcher.shouldFlush_eq_false hsince htime hsize

/-- A record, an exporter that refuses twice, and a batcher with a timeout of a
second. -/
def refusingTwice : List Command :=
  [.setUp "p" .small .small, .lease "p" "r",
    .exporter "e" (.script [some .timeout, some .timeout] 0 []) none,
    .batcher "q" { timeout := .ofSeconds 1 }, .enqueue "q" "r"]

/-- The first refusal restarts the timer, so that the batcher is not due in the
second after it. -/
theorem flush_restarts_refusingTwice :
    let t := (({} : Tracer).run (refusingTwice ++ [.advance 700])).2
    let out := t.step (.flush "q" "e")
    let t' := (out.2.run [.advance 999]).2
    ∃ b e, t.batchers.get? "q" = some b ∧ t.exporters.get? "e" = some e ∧
      (∀ limits, .batcher "q" limits ∉ [Command.advance 999]) ∧ t.timerAfter b out.1 = 700 ∧
      ∃ b', t'.batchers.get? "q" = some b' ∧ b'.totalPending = 1 ∧
        b'.shouldFlush t'.store.now = false := by
  intro t out t'
  obtain ⟨b', hb', hlimits, hsince, hnow, hrests⟩ :=
    flush_restarts (refusingTwice ++ [.advance 700]) [.advance 999] "q" "e" _ _ rfl rfl (by simp)
  obtain rfl := Option.some.inj (hb'.symm.trans rfl)
  exact ⟨_, _, rfl, rfl, by simp, by decide +kernel, _, rfl, by decide +kernel,
    hrests (by decide +kernel) (by decide +kernel)⟩

/-- A flush that is refused a second after another one leaves the batcher due. -/
theorem due_stillRefused :
    let out := ({} : Tracer).run (refusingTwice ++
      [.flush "q" "e", .advance 1000, .flush "q" "e"])
    ∃ b, out.2.batchers.get? "q" = some b ∧ out.1.getLast? = some (.failure .timeout) ∧
      0 < b.limits.timeout.nanoseconds ∧ b.totalPending < b.limits.size ∧
      b.shouldFlush out.2.store.now = true :=
  ⟨_, rfl, rfl, by decide +kernel, by decide +kernel, by decide +kernel⟩

end Tracer
end Telemetry
