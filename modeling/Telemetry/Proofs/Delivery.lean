/-
# What a flush does

A flush offers batches in order up to the first one that is refused.  Those
that were accepted are delivered; of those that are left after a refusal the
oldest are dropped as far as the queue is too long, and the others are the new
queue.  So a queue of batches falls into three parts, in order: delivered,
dropped, kept (`Sends`).

The records of the first two parts are released, each once and in order, and
this is all that happens to the store besides its clock and its log.
-/

import Telemetry.Delivery.Batcher
import Telemetry.Proofs.Quiet

namespace Telemetry

open Trace

/-! ### Exports -/

namespace Sink

open Store

/-- Offering records to a sink is no change but in the log and the clock. -/
theorem offer_quiet (k : Sink) (rs : List RecordId) (s : Store) : Quiet s (k.offer rs s).2.2 := by
  unfold offer
  split
  · exact Quiet.refl s
  · exact Quiet.report s _
  all_goals exact Quiet.refl s

/-- **Whether a sink accepts does not depend on what is offered,** and where it
refuses it gets on in the same way. -/
theorem offer_cases (k : Sink) (rs : List RecordId) (s t : Store) :
    (∃ k₁ k₂ s' t', k.offer rs s = (none, k₁, s') ∧ k.offer rs t = (none, k₂, t')) ∨
      ∃ f k' s' t', k.offer rs s = (some f, k', s') ∧ k.offer rs t = (some f, k', t') := by
  cases k with
  | nowhere | log | file => exact Or.inl ⟨_, _, _, _, rfl, rfl⟩
  | missingDirectory | directory => exact Or.inr ⟨_, _, _, _, rfl, rfl⟩
  | script outcomes attempts names =>
    rcases outcomes with _ | ⟨_ | f, rest⟩
    · exact Or.inl ⟨_, _, _, _, rfl, rfl⟩
    · exact Or.inl ⟨_, _, _, _, rfl, rfl⟩
    · exact Or.inr ⟨_, _, _, _, rfl, rfl⟩

end Sink

namespace Exporter

open Store

variable {s s' : Store} {L : Ledger} {H : Multiset RecordId} {W : SlotId → Prop}

/-- Waiting is no change but in the log and the clock. -/
theorem await_quiet (e : Exporter) (d : Duration) (s : Store) : Quiet s (e.await d s).2 := by
  unfold await
  split_ifs
  · exact Quiet.refl s
  · exact ⟨_, s.log, rfl⟩

/-- The attempts of a policy change nothing but the log and the clock, by induction on those
that are left. -/
theorem attemptFrom_quiet (p : Retry.Policy) (rs : List RecordId) (left : Nat) :
    ∀ attempt e s, Quiet s (attemptFrom p rs attempt left e s).2.2 := by
  induction left with
  | zero => exact fun _ _ s => Quiet.refl s
  | succ left ih =>
    intro attempt e s
    have hawait := await_quiet e (p.delay attempt) s
    rcases hw : e.await (p.delay attempt) s with ⟨e₁, s₁⟩
    rw [hw] at hawait
    have hoffer := e₁.sink.offer_quiet rs s₁
    rcases hr : e₁.sink.offer rs s₁ with ⟨_ | f, sink, s₂⟩ <;> rw [hr] at hoffer <;>
      simp only [attemptFrom, hw, hr]
    · exact hawait.trans hoffer
    · exact ((hawait.trans hoffer).trans (Quiet.report s₂ _)).trans (ih _ _ _)

/-- **An export does nothing to a store but to its clock and its log.** -/
theorem exportBatch_quiet (e : Exporter) (rs : List RecordId) (s : Store) :
    Quiet s (e.exportBatch rs s).2.2 := by
  unfold exportBatch
  split
  · exact attemptFrom_quiet ..
  · exact Sink.offer_quiet ..

/-- What a wait makes of an exporter does not depend on the store. -/
theorem await_exporter (e : Exporter) (d : Duration) (s t : Store) :
    (e.await d t).1 = (e.await d s).1 := by
  unfold await
  split_ifs <;> rfl

/-- What comes of the attempts does not depend on the store. -/
theorem attemptFrom_failure (p : Retry.Policy) (rs : List RecordId) (left : Nat) :
    ∀ attempt e s t,
      (attemptFrom p rs attempt left e t).1 = (attemptFrom p rs attempt left e s).1 := by
  induction left with
  | zero => exact fun _ _ _ _ => rfl
  | succ left ih =>
    intro attempt e s t
    have hawait := await_exporter e (p.delay attempt) s t
    rcases hs : e.await (p.delay attempt) s with ⟨e₁, s₁⟩
    rcases ht : e.await (p.delay attempt) t with ⟨e₂, t₁⟩
    obtain rfl : e₂ = e₁ := by rwa [hs, ht] at hawait
    rcases e₂.sink.offer_cases rs s₁ t₁ with
      ⟨k₁, k₂, s', t', hoffer, hoffer'⟩ | ⟨f, k', s', t', hoffer, hoffer'⟩ <;>
      simp only [attemptFrom, hs, ht, hoffer, hoffer']
    exact ih _ _ _ _

/-- **Whether a batch is accepted depends on the exporter alone.** -/
theorem exportBatch_failure (e : Exporter) (rs : List RecordId) (s t : Store) :
    (e.exportBatch rs t).1 = (e.exportBatch rs s).1 := by
  unfold exportBatch
  split
  · exact attemptFrom_failure ..
  · rcases e.sink.offer_cases rs s t with
      ⟨k₁, k₂, s', t', hoffer, hoffer'⟩ | ⟨f, k', s', t', hoffer, hoffer'⟩ <;>
      rw [hoffer, hoffer']

/-- A batch in hand that is accepted is released. -/
theorem send_accepted {e : Exporter} {rs : List RecordId} (h : Balanced s L (↑rs + H))
    (hr : (e.exportBatch rs s).1 = none) :
    ∃ e' s₁ s', e.send rs s = (.accepted, e', s') ∧ Quiet s s₁ ∧
      releaseRecords rs s₁ = .ok () s' ∧ Frees L H rs s₁ s' := by
  have hquiet := e.exportBatch_quiet rs s
  rcases hx : e.exportBatch rs s with ⟨_ | f, e₁, s₁⟩ <;> rw [hx] at hr hquiet
  · obtain ⟨s₂, hrelease, hf⟩ := releaseRecords_frees rs s₁ (h.of_quiet hquiet)
    refine ⟨e₁, s₁, s₂, ?_, hquiet, hrelease, hf⟩
    simp only [send, hx, hrelease]
  · cases hr

/-- Nothing happens to a batch that is refused. -/
theorem send_refused {e : Exporter} {rs : List RecordId} {f : ExportFailure}
    (hr : (e.exportBatch rs s).1 = some f) :
    ∃ e' s', e.send rs s = (.refused f, e', s') ∧ Quiet s s' := by
  have hquiet := e.exportBatch_quiet rs s
  rcases hx : e.exportBatch rs s with ⟨_ | f', e₁, s₁⟩ <;> rw [hx] at hr hquiet <;> cases hr
  refine ⟨e₁, s₁.report [.batchKept e₁.name rs.length f.message], ?_,
    hquiet.trans (Quiet.report s₁ _)⟩
  simp only [send, hx]

/-- **A batch in hand is accepted, and its records are released, or it is
refused**, and nothing happens to them. -/
theorem send_cases (e : Exporter) {rs : List RecordId} (h : Books s L (↑rs + H)) :
    (∃ e' s', e.send rs s = (.accepted, e', s') ∧ Released rs s s' ∧ Moves (· ∉ rs) W s L H s') ∨
      ∃ f e' s', e.send rs s = (.refused f, e', s') ∧ Quiet s s' := by
  cases hr : (e.exportBatch rs s).1 with
  | none =>
    obtain ⟨e', s₁, s', hsend, hquiet, hrelease, hf⟩ := send_accepted h.balanced hr
    have hm : Moves (· ∉ rs) W s L (↑rs + H) s₁ := h.moves_of_quiet hquiet
    exact Or.inl ⟨e', s', hsend, (released_nil hquiet).trans (released_of_ok hrelease),
      hm.trans (hm.books.moves_of_frees hf)⟩
  | some f => exact Or.inr ⟨f, send_refused hr⟩

/-- An exporter, and the store, after some batches were sent in order. -/
def sendEach (e : Exporter) (s : Store) : List (List RecordId) → Exporter × Store
  | [] => (e, s)
  | rs :: rest => sendEach (e.send rs s).2.1 (e.send rs s).2.2 rest

/-- How many batches are accepted when they are sent in order up to the first
one that is not. -/
def accepted (e : Exporter) (s : Store) : List (List RecordId) → Nat
  | [] => 0
  | rs :: rest =>
    match (e.send rs s).1 with
    | .accepted => accepted (e.send rs s).2.1 (e.send rs s).2.2 rest + 1
    | _ => 0

end Exporter

/-! ### Queues -/

namespace BatchMetrics

/-- The counts after some batches were delivered, some were dropped and so many
flushes failed. -/
def after (m : BatchMetrics) (delivered dropped : List (List RecordId)) (failures : Nat) :
    BatchMetrics where
  recordsExported := m.recordsExported + delivered.flatten.length
  batchesExported := m.batchesExported + delivered.length
  exportErrors := m.exportErrors + failures
  droppedBatches := m.droppedBatches + dropped.length
  droppedRecords := m.droppedRecords + dropped.flatten.length

variable (m : BatchMetrics) (rs : List RecordId) (delivered dropped : List (List RecordId))
  (n : Nat)

/-- Nothing done, nothing counted. -/
theorem after_nil : m.after [] [] 0 = m := rfl

/-- A failure is counted before or after what is dropped. -/
theorem after_failure : m.failure.after [] dropped n = m.after [] dropped (n + 1) := by
  simp only [after, failure, BatchMetrics.mk.injEq, and_true, true_and]
  omega

/-- A dropped batch is counted with those dropped later. -/
theorem after_drop : (m.drop rs.length).after [] dropped n = m.after [] (rs :: dropped) n := by
  simp only [after, drop, List.flatten_cons, List.length_append, List.length_cons,
    BatchMetrics.mk.injEq, true_and]
  omega

/-- A delivered batch is counted with those delivered later. -/
theorem after_success :
    (m.success rs.length).after delivered dropped n = m.after (rs :: delivered) dropped n := by
  simp only [after, success, List.flatten_cons, List.length_append, List.length_cons,
    BatchMetrics.mk.injEq, and_true]
  omega

end BatchMetrics

namespace Batcher

open Store

variable {s s' : Store} {L : Ledger} {H : Multiset RecordId} {W : SlotId → Prop} {b : Batcher}
  {e : Exporter}

/-- **The oldest batches are dropped and their records released.** -/
theorem dropOldest_spec (n : Nat) :
    ∀ (b : Batcher) (s : Store), Books s L (↑b.queue.flatten + H) →
      ∃ s', b.dropOldest s n = (none, { b with
          queue := b.queue.drop n
          metrics := b.metrics.after [] (b.queue.take n) 0 }, s') ∧
        Released (b.queue.take n).flatten s s' := by
  induction n with
  | zero => exact fun b s _ => ⟨s, rfl, released_nil (Quiet.refl s)⟩
  | succ n ih =>
    intro b s h
    cases hq : b.queue with
    | nil =>
      refine ⟨s, ?_, released_nil (Quiet.refl s)⟩
      simp only [dropOldest, hq, List.drop_nil, List.take_nil, BatchMetrics.after_nil]
      rw [← hq]
    | cons oldest rest =>
      -- the oldest batch waits in front, so its records are in hand
      rw [hq, List.flatten_cons, ← Multiset.coe_add, add_assoc] at h
      have hreport : Quiet s (s.report [.batchDropped oldest.length b.limits.retryBatches]) :=
        Quiet.report s _
      -- it is released, and the others are dropped from the batcher that is left
      obtain ⟨s₁, hrelease, hm⟩ := releaseRecords_moves (W := fun _ => False) oldest _
        (h.moves_of_quiet (P := fun _ => True) (W := fun _ => False) hreport).books
      obtain ⟨s₂, hrest, hreleased⟩ := ih
        { b with queue := rest, metrics := b.metrics.drop oldest.length } s₁ hm.books
      refine ⟨s₂, ?_, ?_⟩
      · rw [dropOldest, hq]
        simp only [hrelease, hrest, List.drop_succ_cons, List.take_succ_cons,
          BatchMetrics.after_drop]
      · rw [List.take_succ_cons, List.flatten_cons]
        exact ((released_nil hreport).trans (released_of_ok hrelease)).trans hreleased

/-- What comes of sending batches in order: the queue falls into those that
are delivered, those that are dropped and those that are kept. -/
structure Sends (b : Batcher) (e : Exporter) (s : Store)
    (batches delivered dropped : List (List RecordId))
    (out : Flushed × Batcher × Exporter × Store) : Prop where
  split : batches = delivered ++ (dropped ++ out.2.1.queue)
  /-- The delivered batches are those that the exporter accepts in order. -/
  accepted : e.accepted s batches = delivered.length
  /-- Nothing is offered behind a batch that is refused. -/
  offered : out.2.2.1 = (e.sendEach s (batches.take (delivered.length + 1))).1
  /-- Without a refusal nothing is left; after one the queue is cut to its
  bound from its old end. -/
  outcome : out.1 = .done ∧ dropped = [] ∧ out.2.1.queue = [] ∨
    (∃ reason, out.1 = .refused reason) ∧ delivered.length < batches.length ∧
      dropped.length = batches.length - delivered.length - b.limits.retryBatches
  metrics : out.2.1.metrics = b.metrics.after delivered dropped
    (if delivered.length = batches.length then 0 else 1)
  pending : out.2.1.pending = b.pending
  limits : out.2.1.limits = b.limits
  released : Released (delivered ++ dropped).flatten s out.2.2.2

/-- **Batches that are in hand can be sent.**  The induction is on the batches
that were not offered yet. -/
theorem sendAll_spec (batches : List (List RecordId)) :
    ∀ (b : Batcher) e s, Books s L (↑batches.flatten + H) →
      ∃ delivered dropped, Sends b e s batches delivered dropped (b.sendAll e s batches) := by
  induction batches with
  | nil =>
    intro b e s _
    exact ⟨[], [], rfl, rfl, rfl, Or.inl ⟨rfl, rfl, rfl⟩, rfl, rfl, rfl,
      released_nil (Quiet.refl s)⟩
  | cons batch rest ih =>
    intro b e s h
    have hcons : ((batch :: rest).flatten : Multiset RecordId) = ↑batch + ↑rest.flatten := by
      rw [List.flatten_cons, Multiset.coe_add]
    rw [hcons, add_assoc] at h
    rcases e.send_cases (W := fun _ => False) h with
      ⟨e₁, s₁, hsend, hreleased, hm⟩ | ⟨reason, e₁, s₁, hsend, hquiet⟩
    · -- the batch is accepted: the rest goes on as before
      obtain ⟨delivered, dropped, hs⟩ :=
        ih { b with metrics := b.metrics.success batch.length } e₁ s₁ hm.books
      have hrun : b.sendAll e s (batch :: rest) =
          sendAll { b with metrics := b.metrics.success batch.length } e₁ s₁ rest := by
        rw [sendAll, hsend]
      refine ⟨batch :: delivered, dropped, ?_⟩
      rw [hrun]
      refine ⟨?_, ?_, ?_, ?_, ?_, hs.pending, hs.limits, ?_⟩
      · rw [List.cons_append, ← hs.split]
      · rw [Exporter.accepted, hsend]
        exact congrArg (· + 1) hs.accepted
      · rw [List.length_cons, List.take_succ_cons, Exporter.sendEach, hsend]
        exact hs.offered
      · refine hs.outcome.imp_right fun hs => ⟨hs.1, Nat.succ_lt_succ hs.2.1, ?_⟩
        rw [hs.2.2, List.length_cons, List.length_cons, Nat.add_sub_add_right]
      · rw [hs.metrics, BatchMetrics.after_success]
        simp only [List.length_cons, Nat.add_right_cancel_iff]
      · rw [List.cons_append, List.flatten_cons]
        exact hreleased.trans hs.released
    · -- it is refused: what is left is the queue, cut to its bound
      set b₁ : Batcher := { b with queue := batch :: rest, metrics := b.metrics.failure } with hb₁
      set n := (batch :: rest).length - b.limits.retryBatches with hn
      have hm : Moves (fun _ => True) (fun _ => False) s L (↑b₁.queue.flatten + H) s₁ := by
        rw [hb₁, hcons, add_assoc]
        exact h.moves_of_quiet hquiet
      obtain ⟨s₂, hdrop, hreleased⟩ := dropOldest_spec n b₁ s₁ hm.books
      have hrun : b.sendAll e s (batch :: rest) = (.refused reason, { b₁ with
          queue := b₁.queue.drop n
          metrics := b₁.metrics.after [] (b₁.queue.take n) 0 }, e₁, s₂) := by
        simp only [sendAll, hsend, ← hb₁, trim, ← hn, hdrop]
      refine ⟨[], (batch :: rest).take n, ?_⟩
      rw [hrun]
      refine ⟨?_, ?_, ?_, Or.inr ⟨⟨reason, rfl⟩, Nat.succ_pos _, ?_⟩, ?_, rfl, rfl, ?_⟩
      · exact (List.take_append_drop n _).symm
      · rw [Exporter.accepted, hsend]
        rfl
      · rw [List.length_nil, List.take_succ_cons, List.take_zero, Exporter.sendEach, hsend]
        rfl
      · rw [List.length_take, List.length_nil, hn]
        omega
      · show b.metrics.failure.after [] _ 0 = _
        rw [BatchMetrics.after_failure, if_neg (by simp)]
      · exact (released_nil hquiet).trans hreleased

/-- The records of a batcher that were not sent yet, the oldest first. -/
def waiting (b : Batcher) : List RecordId := b.queue.flatten ++ b.pending

/-- What a batcher reports as pending are the records that wait. -/
theorem totalPending_eq (b : Batcher) : b.totalPending = b.waiting.length := by
  rw [totalPending, waiting, List.length_append, Nat.add_comm]

/-- The batches that a flush has to send. -/
def due (b : Batcher) : List (List RecordId) :=
  b.queue ++ if b.pending.isEmpty then [] else [b.pending]

/-- What is due is all that waits. -/
theorem flatten_due (b : Batcher) : b.due.flatten = b.waiting := by
  rw [due, waiting, List.flatten_append]
  cases h : b.pending <;> simp

/-- A flush sends all that is due, and nothing is pending meanwhile. -/
theorem flush_eq_sendAll (b : Batcher) (e : Exporter) (s : Store) :
    ∃ b₁ : Batcher, b.flush e s = b₁.sendAll e s b.due ∧ b₁.metrics = b.metrics ∧
      b₁.limits = b.limits ∧ b₁.pending = [] := by
  cases hp : b.pending with
  | nil => exact ⟨b, by simp [flush, takeBatch, due, hp], rfl, rfl, hp⟩
  | cons r rs =>
    exact ⟨{ b with pending := [], lastFlush := s.now }, by simp [flush, takeBatch, due, hp],
      rfl, rfl, rfl⟩

/-- **What a flush does** when the records of the batcher are in hand. -/
theorem flush_spec (h : Books s L (↑b.waiting + H)) (e : Exporter) :
    ∃ delivered dropped,
      Sends { b with pending := [] } e s b.due delivered dropped (b.flush e s) := by
  rw [← flatten_due] at h
  obtain ⟨b₁, hrun, hmetrics, hlimits, hpending⟩ := flush_eq_sendAll b e s
  obtain ⟨delivered, dropped, hs⟩ := sendAll_spec b.due b₁ e s h
  rw [hrun]
  refine ⟨delivered, dropped, hs.split, hs.accepted, hs.offered, ?_, ?_, ?_, ?_, hs.released⟩
  · rw [← hlimits]
    exact hs.outcome
  · rw [hs.metrics, hmetrics]
  · rw [hs.pending, hpending]
  · rw [hs.limits, hlimits]

/-- What left a batcher in a flush is out of its hands, and everything else is
left alone. -/
theorem Sends.moves {batches delivered dropped : List (List RecordId)}
    {out : Flushed × Batcher × Exporter × Store} (hs : Sends b e s batches delivered dropped out)
    (h : Books s L (↑batches.flatten + H)) :
    Moves (· ∉ (delivered ++ dropped).flatten) W s L (↑out.2.1.queue.flatten + H) out.2.2.2 := by
  rw [hs.split, ← List.append_assoc, List.flatten_append, ← Multiset.coe_add, add_assoc] at h
  obtain ⟨t, hrelease, hquiet⟩ := hs.released
  obtain ⟨t', hrelease', hm⟩ := releaseRecords_moves (W := W) _ s h
  rw [hrelease] at hrelease'
  cases hrelease'
  exact hm.trans (hm.books.moves_of_quiet hquiet)

end Batcher
end Telemetry
