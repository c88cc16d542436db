/-
# A batcher loses nothing

Every record that is put into a batcher leaves it once: it is handed out with a
batch, delivered, or dropped; until then it waits, and the records wait and
leave in the order in which they came.  A journal beside the batcher says what
went through it (`Journal`), and after every call the batcher agrees with its
journal (`Journal.Agrees`).

The exporters may accept and refuse as they like, and between the calls
anything may be done to the rest of the tracer (`Tracer.Batching`).
-/

import Telemetry.Proofs.Frozen
import Telemetry.Proofs.Names

namespace Telemetry

open Trace Store

/-! ### The journal -/

namespace Batcher

/-- The batches that a flush drops if the first `k` batches are accepted: of
those that are left behind, the oldest as far as they are too many. -/
def overdue (b : Batcher) (k : Nat) : List (List RecordId) :=
  (b.due.drop k).take (b.due.length - k - b.limits.retryBatches)

end Batcher

/-- What went through a batcher. -/
structure Journal where
  /-- The records that were put in, in order, without those that were handed
  out. -/
  entered : List RecordId := []
  /-- The records that were delivered or dropped, in the order in which they
  left. -/
  left : List RecordId := []
  delivered : List (List RecordId) := []
  dropped : List (List RecordId) := []
  /-- How many flushes failed. -/
  failures : Nat := 0

namespace Journal

/-- Records are put in. -/
def enter (J : Journal) (rs : List RecordId) : Journal := { J with entered := J.entered ++ rs }

/-- The last records are handed out. -/
def handOut (J : Journal) (rs : List RecordId) : Journal :=
  { J with entered := J.entered.take (J.entered.length - rs.length) }

/-- A flush of which the first `k` batches are accepted. -/
def flush (J : Journal) (b : Batcher) (k : Nat) : Journal where
  entered := J.entered
  left := J.left ++ (b.due.take k ++ b.overdue k).flatten
  delivered := J.delivered ++ b.due.take k
  dropped := J.dropped ++ b.overdue k
  failures := J.failures + if k = b.due.length then 0 else 1

/-- A batcher is as its journal says. -/
structure Agrees (J : Journal) (b : Batcher) : Prop where
  order : J.entered = J.left ++ b.queue.flatten ++ b.pending
  gone : J.left.Perm (J.delivered.flatten ++ J.dropped.flatten)
  metrics : b.metrics = {
    recordsExported := J.delivered.flatten.length
    batchesExported := J.delivered.length
    exportErrors := J.failures
    droppedBatches := J.dropped.length
    droppedRecords := J.dropped.flatten.length }
  totalPending : b.totalPending = J.entered.length - J.left.length

end Journal

section Journal

variable {J : Journal} {b : Batcher} {e : Exporter} {s : Store} {L : Ledger}
  {H : Multiset RecordId} {rs : List RecordId}

/-- What was put into a batcher either left it or waits there. -/
theorem Journal.Agrees.entered_eq (h : J.Agrees b) : J.entered = J.left ++ b.waiting := by
  rw [h.order, Batcher.waiting, List.append_assoc]

/-- What was put in and did not leave is pending. -/
theorem Journal.totalPending_eq (h : J.entered = J.left ++ b.queue.flatten ++ b.pending) :
    b.totalPending = J.entered.length - J.left.length := by
  rw [List.append_assoc] at h
  rw [Batcher.totalPending_eq, Batcher.waiting, h, List.length_append, List.length_append,
    List.length_append, Nat.add_sub_cancel_left]

/-- Records that are put in come last. -/
theorem Journal.Agrees.enter (h : J.Agrees b) {b' : Batcher} (hq : b'.queue = b.queue)
    (hp : b'.pending = b.pending ++ rs) (hm : b'.metrics = b.metrics) : (J.enter rs).Agrees b' := by
  have horder : (J.enter rs).entered = J.left ++ b'.queue.flatten ++ b'.pending := by
    rw [Journal.enter, h.order, hq, hp, List.append_assoc _ b.pending]
  exact ⟨horder, h.gone, hm.trans h.metrics, Journal.totalPending_eq horder⟩

/-- What is handed out is the end of what was put in. -/
theorem Journal.Agrees.entered_handOut (h : J.Agrees b) :
    J.entered = (J.handOut b.pending).entered ++ b.pending := by
  rw [Journal.handOut, h.order, List.length_append, Nat.add_sub_cancel]
  exact congrArg (· ++ b.pending) (List.take_left ..).symm

/-- Handing out empties the pending records and leaves the queue and the counts, as the
journal does. -/
theorem Journal.Agrees.handOut (h : J.Agrees b) {b' : Batcher} (hq : b'.queue = b.queue)
    (hp : b'.pending = []) (hm : b'.metrics = b.metrics) : (J.handOut b.pending).Agrees b' := by
  have horder : (J.handOut b.pending).entered = J.left ++ b'.queue.flatten ++ b'.pending := by
    refine List.append_cancel_right (h.entered_handOut.symm.trans (h.order.trans ?_))
    rw [hq, hp, List.append_nil]
  exact ⟨horder, h.gone, hm.trans h.metrics, Journal.totalPending_eq horder⟩

/-- What a flush delivers and drops is a matter of how many batches are
accepted. -/
theorem Batcher.Sends.eq {delivered dropped : List (List RecordId)}
    {out : Batcher.Flushed × Batcher × Exporter × Store}
    (hs : Batcher.Sends { b with pending := [] } e s b.due delivered dropped out) :
    delivered = b.due.take (e.accepted s b.due) ∧ dropped = b.overdue (e.accepted s b.due) := by
  have hsplit := hs.split
  rw [hs.accepted]
  have hdelivered : delivered = b.due.take delivered.length := by
    conv_rhs => rw [hsplit]
    exact (List.take_left ..).symm
  have hrest : b.due.drop delivered.length = dropped ++ out.2.1.queue := by
    conv_lhs => rw [hsplit]
    exact List.drop_left ..
  refine ⟨hdelivered, ?_⟩
  rw [Batcher.overdue, hrest]
  rcases hs.outcome with ⟨-, hd, hq⟩ | ⟨-, -, hd⟩
  · rw [hd, hq, List.append_nil, List.take_nil]
  · rw [show b.due.length - delivered.length - b.limits.retryBatches = dropped.length from hd.symm]
    exact (List.take_left ..).symm

/-- **A flush keeps batcher and journal in agreement.** -/
theorem Journal.Agrees.flush (h : J.Agrees b) {delivered dropped : List (List RecordId)}
    {out : Batcher.Flushed × Batcher × Exporter × Store}
    (hs : Batcher.Sends { b with pending := [] } e s b.due delivered dropped out) :
    (J.flush b (e.accepted s b.due)).Agrees out.2.1 := by
  obtain ⟨hdelivered, hdropped⟩ := hs.eq
  -- the journal of a flush in the terms of what the flush did
  have hjournal : J.flush b (e.accepted s b.due) = {
      entered := J.entered
      left := J.left ++ (delivered ++ dropped).flatten
      delivered := J.delivered ++ delivered
      dropped := J.dropped ++ dropped
      failures := J.failures + if delivered.length = b.due.length then 0 else 1 } := by
    rw [Journal.flush, ← hdelivered, ← hdropped, hs.accepted]
  have hpending : out.2.1.pending = [] := hs.pending
  have horder : J.entered =
      J.left ++ (delivered ++ dropped).flatten ++ out.2.1.queue.flatten ++ out.2.1.pending := by
    rw [h.entered_eq, ← Batcher.flatten_due, hs.split, hpending, List.append_nil,
      List.append_assoc J.left, ← List.flatten_append, ← List.append_assoc delivered]
  rw [hjournal]
  refine ⟨horder, ?_, ?_, Journal.totalPending_eq horder⟩
  · -- the order of what left is no matter of the journal's counts, so it is enough to
    -- permute
    rw [List.flatten_append, List.flatten_append, List.flatten_append]
    exact (h.gone.append_right _).trans (by
      rw [List.append_assoc, List.append_assoc]
      refine List.Perm.append_left _ ?_
      rw [← List.append_assoc, ← List.append_assoc]
      exact List.perm_append_comm.append_right _)
  · have hmetrics : out.2.1.metrics = b.metrics.after delivered dropped
        (if delivered.length = b.due.length then 0 else 1) := hs.metrics
    rw [hmetrics, h.metrics, BatchMetrics.after]
    simp only [List.flatten_append, List.length_append]

end Journal

namespace Tracer

variable {t t' : Tracer} {L L' : Ledger} {J : Journal} {b : Batcher} {e : Exporter}
  {q en n : String} {r : RecordId}

/-- Runs in which a batcher is set up and records are put in, handed out and
flushed, while anything that keeps to the rules is done besides; with the
journal of the batcher. -/
inductive Batching (q : String) : Tracer → Ledger → Journal → Prop
  | start {t : Tracer} {L : Ledger} {limits : BatchLimits} : Reachable t L →
    Batching q (t.step (.batcher q limits)).2 L {}
  | enqueue {t : Tracer} {L : Ledger} {J : Journal} {n : String} {r : RecordId} :
    Batching q t L J → t.records.get? n = some r →
    Batching q (t.step (.enqueue q n)).2 L (J.enter [r])
  | enqueueNumbered {t : Tracer} {L : Ledger} {J : Journal} {n trace : String} {count : Nat}
    {p : SetId} {rs : List RecordId} {s : Store} :
    Batching q t L J → t.sets.get? n = some p →
    numberedRecords p trace count t.cleared.store = .ok rs s →
    Batching q (t.step (.enqueueNumbered q n trace count)).2 L (J.enter rs)
  | takeBatch {t : Tracer} {L : Ledger} {J : Journal} {n : String} {b : Batcher} :
    Batching q t L J → t.batchers.get? q = some b →
    Batching q (t.step (.takeBatch q n)).2 L (J.handOut b.pending)
  | flush {t : Tracer} {L : Ledger} {J : Journal} {en : String} {b : Batcher} {e : Exporter} :
    Batching q t L J → t.batchers.get? q = some b → t.exporters.get? en = some e →
    Batching q (t.step (.flush q en)).2 L (J.flush b (e.accepted t.cleared.store b.due))
  | other {t : Tracer} {L L' : Ledger} {J : Journal} {c : Command} :
    Batching q t L J → t.ledgerAfter L c = some L' → ¬ c.Serves q →
    Batching q (t.step c).2 L' J

/-- A run with a batcher is a run that keeps to the rules. -/
theorem Batching.reachable (h : Batching q t L J) : Reachable t L := by
  induction h with
  | start ht => exact ht.step rfl
  | enqueue _ _ ih => exact ih.step rfl
  | enqueueNumbered _ _ _ ih => exact ih.step rfl
  | takeBatch _ _ ih => exact ih.step rfl
  | flush _ _ _ ih => exact ih.step rfl
  | other _ hL _ ih => exact ih.step hL

/-- What it comes to when the pending records are taken as a batch. -/
structure Takes (t : Tracer) (n : String) (b : Batcher) (J : Journal) (out : Reply × Tracer) :
    Prop where
  /-- The pending records were put in last. -/
  last : J.entered = (J.handOut b.pending).entered ++ b.pending
  batch : b.pending ≠ [] →
    out.1 = .count? (some b.pending.length) ∧ out.2.batches.get? n = some b.pending
  nothing : b.pending = [] → out.1 = .count? none ∧ out.2.batches = t.batches
  /-- Nothing is done to the store. -/
  store : out.2.store = t.cleared.store

/-- **What is taken are the pending records**, all of them and in order. -/
theorem takes (h : J.Agrees b) (hb : t.batchers.get? q = some b) :
    Takes t n b J (t.step (.takeBatch q n)) := by
  rw [step_eq_answer, takeBatch_answer (t := t.cleared) hb, Batcher.takeBatch]
  by_cases hp : b.pending = []
  · rw [if_pos (List.isEmpty_iff.2 hp)]
    exact ⟨h.entered_handOut, fun hn => absurd hp hn, fun _ => ⟨rfl, rfl⟩, rfl⟩
  · rw [if_neg (mt List.isEmpty_iff.1 hp)]
    exact ⟨h.entered_handOut, fun _ => ⟨rfl, (Keyed.get?_insert ..).trans (if_pos rfl)⟩,
      fun hn => absurd hn hp, rfl⟩

end Tracer
end Telemetry
