/-
# Batches stay whole and in order

A batcher is called to add records, to hand its pending records out as a batch,
and to flush (`Batcher.Call`).  Each flush is a round: it may form a batch, it
offers batches to its exporter, and it may drop some (`Batcher.Round`).

The batches that were formed, in order, less those that are gone are the queue
(`Batcher.Minded`).  So a batch is offered as it was formed each time until it
is gone, and none of those formed later comes before it.  No exporter and no
store is left out, and a round may also be broken off: all that counts is that
the queue was within its bound before, so that at most one batch is too many
(`Batcher.serve_orderly`).
-/

import Telemetry.Proofs.Names
import Telemetry.Proofs.Dispatch

namespace Telemetry

open Trace

/-! ### Offers -/

namespace Exporter

/-- Whether a batch was accepted and its records were released. -/
def Sent.isAccepted : Sent → Bool
  | .accepted => true
  | _ => false

/-- Whether a batch was refused. -/
def Sent.isRefused : Sent → Bool
  | .refused _ => true
  | _ => false

/-- A batch that was sent, and what came of it. -/
structure Offer where
  batch : List RecordId
  sent : Sent

/-- The offers when batches are sent in order up to the first one that does not
end well. -/
def offers (e : Exporter) (s : Store) : List (List RecordId) → List Offer
  | [] => []
  | batch :: rest =>
    match e.send batch s with
    | (.accepted, e, s) => ⟨batch, .accepted⟩ :: offers e s rest
    | (sent, _, _) => [⟨batch, sent⟩]

/-- How many batches were taken off by some offers. -/
def settled (os : List Offer) : Nat := os.countP (!·.sent.isRefused)

/-- Whether the last one of some offers was refused. -/
def refused (os : List Offer) : Bool := os.any (·.sent.isRefused)

variable {os : List Offer} {o : Offer}

/-- No more batches are settled than offered. -/
theorem settled_le_length (os : List Offer) : settled os ≤ os.length := List.countP_le_length

/-- If the last one was not refused, all of them are settled. -/
theorem settled_of_not_refused (h : refused os = false) : settled os = os.length := by
  rw [settled, List.countP_eq_length]
  intro o ho
  rw [refused, List.any_eq_false] at h
  simpa using h o ho

/-- An accepted batch is settled. -/
theorem settled_cons_accepted (batch : List RecordId) :
    settled (⟨batch, .accepted⟩ :: os) = settled os + 1 := List.countP_cons_of_pos rfl

/-- An accepted batch at the front does not decide whether the last one was refused. -/
theorem refused_cons_accepted (batch : List RecordId) :
    refused (⟨batch, .accepted⟩ :: os) = refused os := rfl

end Exporter

/-! ### What a round does -/

namespace Batcher

open Exporter (Offer settled refused)

/-- How many batches are too many after some of them were offered. -/
def excess (most : Nat) (batches : List (List RecordId)) (os : List Offer) : Nat :=
  if refused os then batches.length - settled os - most else 0

/-- What dropping the `n` oldest batches does to a batcher, also if releasing a
record is broken off. -/
structure Drops (b : Batcher) (n : Nat) (out : Option Fault × Batcher × Store) : Prop where
  pending : out.2.1.pending = b.pending
  limits : out.2.1.limits = b.limits
  dropped : ∃ d ≤ n, out.2.1.queue = b.queue.drop d ∧
    out.2.1.metrics.droppedBatches = b.metrics.droppedBatches + d ∧
    (n ≤ 1 ∨ out.1 = none → d = n)

/-- **Some of the oldest batches are dropped**, and all that should be unless
the first release is broken off too early. -/
theorem dropOldest_drops (n : Nat) :
    ∀ (b : Batcher) (s : Store), n ≤ b.queue.length → Drops b n (b.dropOldest s n) := by
  induction n with
  | zero => exact fun b s _ => ⟨rfl, rfl, 0, le_rfl, rfl, rfl, fun _ => rfl⟩
  | succ n ih =>
    intro b s hn
    obtain ⟨oldest, rest, hq⟩ := List.exists_cons_of_length_pos (Nat.zero_lt_of_lt hn)
    rw [hq, List.length_cons, Nat.add_le_add_iff_right] at hn
    rw [dropOldest, hq]
    cases hr : releaseRecords oldest
        (s.report [.batchDropped oldest.length b.limits.retryBatches]) with
    | error f s' =>
      -- the release of the oldest batch broke off: just this one is dropped
      simp only [hr]
      refine ⟨rfl, rfl, 1, n.succ_pos, by rw [hq]; rfl, rfl, ?_⟩
      rintro (h | h)
      · exact (Nat.le_antisymm h n.succ_pos).symm
      · cases h
    | ok _ s' =>
      simp only [hr]
      -- the others are dropped from the batcher that is left
      have hrest := ih { b with queue := rest, metrics := b.metrics.drop oldest.length } s' hn
      obtain ⟨d, hd, hqueue, hmetrics, hall⟩ := hrest.dropped
      refine ⟨hrest.pending, hrest.limits, d + 1, Nat.succ_le_succ hd, ?_, ?_, fun h => ?_⟩
      · rw [hqueue, hq, List.drop_succ_cons]
      · rw [hmetrics]
        show b.metrics.droppedBatches + 1 + d = _
        omega
      · exact congrArg (· + 1)
          (hall (h.imp_left fun h => (Nat.le_of_succ_le_succ h).trans zero_le_one))

/-- What sending batches does to a batcher, in terms of the offers made. -/
structure Sending (b : Batcher) (e : Exporter) (s : Store) (batches : List (List RecordId))
    (os : List Offer) (out : Flushed × Batcher × Exporter × Store) : Prop where
  pending : out.2.1.pending = b.pending
  limits : out.2.1.limits = b.limits
  /-- The exporter has been sent these batches, in this order. -/
  told : out.2.2.1 = (e.sendEach s (os.map Offer.batch)).1
  offered : os.map Offer.batch <+: batches
  some : batches ≠ [] → os ≠ []
  accepted : ∀ o ∈ os.dropLast, o.sent.isAccepted
  done : out.1 = .done ↔ os.map Offer.batch = batches ∧ ∀ o ∈ os, o.sent.isAccepted
  reason : ∀ f, out.1 = .refused f → ∃ o ∈ os, o.sent = .refused f
  /-- The queue is what is left behind the batches that were taken off and
  those that were dropped. -/
  dropped : ∃ d ≤ excess b.limits.retryBatches batches os,
    out.2.1.queue = batches.drop (settled os + d) ∧
    out.2.1.metrics.droppedBatches = b.metrics.droppedBatches + d ∧
    (excess b.limits.retryBatches batches os ≤ 1 ∨ (∃ f, out.1 = .refused f) →
      d = excess b.limits.retryBatches batches os)

section Sending

variable {b : Batcher} {e e₁ : Exporter} {s s₁ : Store} {batch : List RecordId}

/-- Nothing to be sent. -/
theorem Sending.nil (b : Batcher) (e : Exporter) (s : Store) :
    Sending b e s [] (e.offers s []) (b.sendAll e s []) := by
  have hnone : ∀ o ∈ ([] : List Offer), o.sent.isAccepted := fun _ ho =>
    absurd ho List.not_mem_nil
  exact ⟨rfl, rfl, rfl, List.prefix_rfl, absurd rfl, hnone, iff_of_true rfl ⟨rfl, hnone⟩,
    by rintro _ ⟨⟩, 0, le_rfl, rfl, rfl, fun _ => rfl⟩

/-- A batch that is accepted is taken off, and the next one is sent. -/
theorem sending_accepted (hsend : e.send batch s = (.accepted, e₁, s₁))
    {rest : List (List RecordId)}
    (hrest : Sending { b with metrics := b.metrics.success batch.length } e₁ s₁ rest
      (e₁.offers s₁ rest)
      (sendAll { b with metrics := b.metrics.success batch.length } e₁ s₁ rest)) :
    Sending b e s (batch :: rest) (e.offers s (batch :: rest)) (b.sendAll e s (batch :: rest)) := by
  -- the accepted batch stands before whatever comes of the rest
  have hoffers : e.offers s (batch :: rest) = ⟨batch, .accepted⟩ :: e₁.offers s₁ rest := by
    simp only [Exporter.offers, hsend]
  have hrun : b.sendAll e s (batch :: rest) =
      sendAll { b with metrics := b.metrics.success batch.length } e₁ s₁ rest := by
    simp only [sendAll, hsend]
  have hexcess : excess b.limits.retryBatches (batch :: rest)
      (⟨batch, .accepted⟩ :: e₁.offers s₁ rest) =
        excess b.limits.retryBatches rest (e₁.offers s₁ rest) := by
    rw [excess, excess, Exporter.settled_cons_accepted, Exporter.refused_cons_accepted,
      List.length_cons, Nat.add_sub_add_right]
  -- what the rest drops is dropped here, too
  obtain ⟨d, hd, hqueue, hmetrics, hall⟩ := hrest.dropped
  rw [hoffers, hrun]
  refine ⟨hrest.pending, hrest.limits, ?sent, ?first, fun _ => List.cons_ne_nil _ _,
    ?before, ?whole, fun f hf => ?why, ?queue⟩
  case sent =>
    rw [List.map_cons, Exporter.sendEach, hsend]
    exact hrest.told
  case first =>
    rw [List.map_cons, List.prefix_cons_inj]
    exact hrest.offered
  case before =>
    cases hos : e₁.offers s₁ rest with
    | nil => exact fun _ ho => absurd ho List.not_mem_nil
    | cons o os =>
      rw [List.dropLast_cons_cons, ← hos, List.forall_mem_cons]
      exact ⟨rfl, hrest.accepted⟩
  case whole =>
    rw [hrest.done, List.map_cons, List.cons.injEq, List.forall_mem_cons]
    exact ⟨fun h => ⟨⟨rfl, h.1⟩, rfl, h.2⟩, fun h => ⟨h.1.2, h.2.2⟩⟩
  case why =>
    obtain ⟨o, ho, hreason⟩ := hrest.reason f hf
    exact ⟨o, List.mem_cons_of_mem _ ho, hreason⟩
  case queue =>
    rw [hexcess, Exporter.settled_cons_accepted]
    refine ⟨d, hd, ?_, hmetrics, hall⟩
    rw [hqueue, Nat.add_right_comm, List.drop_succ_cons]

/-- A batch that is refused stays, and the oldest ones are dropped where there are
too many. -/
theorem sending_refused {reason : ExportFailure}
    (hsend : e.send batch s = (.refused reason, e₁, s₁)) (rest : List (List RecordId)) :
    Sending b e s (batch :: rest) (e.offers s (batch :: rest)) (b.sendAll e s (batch :: rest)) := by
  have hoffers : e.offers s (batch :: rest) = [⟨batch, .refused reason⟩] := by
    simp only [Exporter.offers, hsend]
  -- the batcher that gets its batch back, before it is trimmed
  set b₁ : Batcher := { b with queue := batch :: rest, metrics := b.metrics.failure } with hb₁
  rcases htrim : b₁.trim s₁ with ⟨fault, b₂, s₂⟩
  have hdrops : Drops b₁ (b₁.queue.length - b₁.limits.retryBatches) (fault, b₂, s₂) :=
    htrim ▸ dropOldest_drops _ b₁ s₁ (Nat.sub_le _ _)
  have hrun : b.sendAll e s (batch :: rest) =
      (fault.elim (.refused reason) .broken, b₂, e₁, s₂) := by
    simp only [sendAll, hsend, ← hb₁, htrim]
    cases fault <;> rfl
  obtain ⟨d, hd, hqueue, hmetrics, hall⟩ := hdrops.dropped
  rw [hoffers, hrun]
  refine ⟨hdrops.pending, hdrops.limits, ?sent, List.prefix_append [batch] rest,
    fun _ => List.cons_ne_nil _ _, fun _ ho => absurd ho List.not_mem_nil,
    iff_of_false ?ends fun h => ?whole,
    fun f hf => ⟨_, List.mem_singleton_self _, ?why⟩, d, hd, ?queue, hmetrics,
    fun h => hall (h.imp_right fun hf => ?fault)⟩
  case sent =>
    rw [List.map_cons, Exporter.sendEach, hsend]
    rfl
  -- only a refusal is left, or a fault on the way; the run never ends well
  case ends => cases fault <;> rintro ⟨⟩
  case whole => exact absurd (h.2 _ (List.mem_singleton_self _)) Bool.false_ne_true
  case why =>
    cases fault with
    | none => cases hf; rfl
    | some => cases hf
  case queue => rw [hqueue, show settled [⟨batch, .refused reason⟩] = 0 from rfl, Nat.zero_add]
  case fault =>
    obtain ⟨f, hf⟩ := hf
    cases fault with
    | none => rfl
    | some => cases hf

/-- A batch whose records were not all released is taken off, and sending is broken
off. -/
theorem sending_broken {f : Fault} (hsend : e.send batch s = (.broken f, e₁, s₁))
    (rest : List (List RecordId)) :
    Sending b e s (batch :: rest) (e.offers s (batch :: rest)) (b.sendAll e s (batch :: rest)) := by
  have hoffers : e.offers s (batch :: rest) = [⟨batch, .broken f⟩] := by
    simp only [Exporter.offers, hsend]
  have hrun :
      b.sendAll e s (batch :: rest) = (.broken f, { b with queue := rest }, e₁, s₁) := by
    simp only [sendAll, hsend]
  rw [hoffers, hrun]
  refine ⟨rfl, rfl, ?sent, List.prefix_append [batch] rest, fun _ => List.cons_ne_nil _ _,
    fun _ ho => absurd ho List.not_mem_nil, iff_of_false (by rintro ⟨⟩) fun h => ?whole,
    by rintro _ ⟨⟩, 0, le_rfl, rfl, rfl, fun _ => rfl⟩
  case sent =>
    rw [List.map_cons, Exporter.sendEach, hsend]
    rfl
  case whole => exact absurd (h.2 _ (List.mem_singleton_self _)) Bool.false_ne_true

/-- **What sending batches does**, by induction on those that were not offered
yet. -/
theorem sendAll_sending (batches : List (List RecordId)) :
    ∀ (b : Batcher) e s, Sending b e s batches (e.offers s batches) (b.sendAll e s batches) := by
  induction batches with
  | nil => exact Sending.nil
  | cons batch rest ih =>
    intro b e s
    rcases hsend : e.send batch s with ⟨_ | _ | _, e₁, s₁⟩
    case accepted => exact sending_accepted hsend (ih _ e₁ s₁)
    case refused => exact sending_refused hsend rest
    case broken => exact sending_broken hsend rest

end Sending

/-- The batch that is formed comes last. -/
theorem due_eq (b : Batcher) (now : Nat) : b.due = b.queue ++ (b.takeBatch now).1.toList := by
  rw [due, takeBatch]
  split_ifs <;> rfl

/-- No empty batch is formed. -/
theorem takeBatch_ne_nil {b : Batcher} {now : Nat} {batch : List RecordId}
    (h : (b.takeBatch now).1 = some batch) : batch ≠ [] := by
  rw [takeBatch] at h
  split_ifs at h with hp
  cases h
  exact mt List.isEmpty_iff.2 hp

/-- One flush of a batcher. -/
structure Round where
  /-- The batch that was formed of the pending records, if there were any. -/
  formed : Option (List RecordId)
  offers : List Offer
  /-- By how much the count of dropped batches went up. -/
  dropped : Nat
  outcome : Flushed

/-- The flush of a batcher as a round. -/
def round (b : Batcher) (e : Exporter) (s : Store) : Round where
  formed := (b.takeBatch s.now).1
  offers := e.offers s b.due
  dropped := (b.flush e s).2.1.metrics.droppedBatches - b.metrics.droppedBatches
  outcome := (b.flush e s).1

/-- How many batches are gone with a round: delivered, lost in the delivery, or
dropped. -/
def Round.gone (r : Round) : Nat := settled r.offers + r.dropped

/-- The batches that were formed, in order. -/
def formed (rounds : List Round) : List (List RecordId) := rounds.filterMap Round.formed

/-- How many batches are gone. -/
def gone (rounds : List Round) : Nat := (rounds.map Round.gone).sum

/-- The batches that a round finds: those that were formed up to now less those
that are gone. -/
def inLine (before : List Round) (r : Round) : List (List RecordId) :=
  (formed (before ++ [r])).drop (gone before)

/-- What the last round formed comes behind all else. -/
theorem formed_concat (rounds : List Round) (r : Round) :
    formed (rounds ++ [r]) = formed rounds ++ r.formed.toList := by
  rw [formed, List.filterMap_append, ← formed]
  cases h : r.formed <;> simp [h]

/-- What is gone with the last round is added. -/
theorem gone_concat (rounds : List Round) (r : Round) :
    gone (rounds ++ [r]) = gone rounds + r.gone := by
  rw [gone, List.map_append, List.sum_append, ← gone, List.map_singleton, List.sum_singleton]

/-- What a round has to be like where at most `most` batches may wait. -/
structure Orderly (most : Nat) (before : List Round) (r : Round) : Prop where
  /-- The batches that are offered are those in line, as they were formed. -/
  offered : r.offers.map Offer.batch <+: inLine before r
  begun : inLine before r ≠ [] → r.offers ≠ []
  /-- After an offer that does not end well there is no other. -/
  accepted : ∀ o ∈ r.offers.dropLast, o.sent.isAccepted
  done : r.outcome = .done ↔
    r.offers.map Offer.batch = inLine before r ∧ ∀ o ∈ r.offers, o.sent.isAccepted
  reason : ∀ f, r.outcome = .refused f → ∃ o ∈ r.offers, o.sent = .refused f
  /-- Batches are dropped only after a refusal, and then those that are too
  many, the refused one counted. -/
  dropped : r.dropped =
    if refused r.offers then (inLine before r).length - settled r.offers - most else 0

/-- A round that is done left no batch behind, and so dropped none. -/
theorem Orderly.none_dropped {most : Nat} {before : List Round} {r : Round}
    (h : Orderly most before r) (hdone : r.outcome = .done) : r.dropped = 0 := by
  rw [h.dropped, if_neg]
  intro hr
  obtain ⟨o, ho, hrefused⟩ := List.any_eq_true.1 hr
  have haccepted := (h.done.1 hdone).2 o ho
  cases hsent : o.sent <;> rw [hsent] at haccepted hrefused <;> contradiction

/-! ### Calls -/

/-- What a batcher is called for. -/
inductive Call where
  | add (r : RecordId)
  | takeBatch (now : Nat)
  | flush (e : Exporter) (s : Store)
  /-- The counts are changed from outside. -/
  | recount (m : BatchMetrics)

/-- A batcher and the rounds it has been through. -/
structure History where
  batcher : Batcher
  rounds : List Round := []

/-- A call of the batcher. -/
def History.call (h : History) : Call → History
  | .add r => { h with batcher := h.batcher.add r }
  | .takeBatch now => { h with batcher := (h.batcher.takeBatch now).2 }
  | .flush e s =>
    { batcher := (h.batcher.flush e s).2.1, rounds := h.rounds ++ [h.batcher.round e s] }
  | .recount m => { h with batcher := { h.batcher with metrics := m } }

/-- A new batcher after some calls. -/
def serve (limits : BatchLimits) (now : Nat) (calls : List Call) : History :=
  calls.foldl History.call { batcher := start limits now }

/-- The queue is what is left of the batches that were formed. -/
structure Minded (limits : BatchLimits) (h : History) : Prop where
  bound : h.batcher.queue.length ≤ limits.retryBatches
  queue : h.batcher.queue = (formed h.rounds).drop (gone h.rounds)
  most : gone h.rounds ≤ (formed h.rounds).length
  whole : ∀ batch ∈ formed h.rounds, batch ≠ []
  orderly : ∀ before r after, h.rounds = before ++ r :: after →
    Orderly limits.retryBatches before r
  limits : h.batcher.limits = limits

variable {limits : BatchLimits} {h : History} {b : Batcher}

/-- Taking the pending records leaves the queue, the limits and the counts. -/
theorem takeBatch_eq (b : Batcher) (now : Nat) : (b.takeBatch now).2.queue = b.queue ∧
    (b.takeBatch now).2.limits = b.limits ∧ (b.takeBatch now).2.metrics = b.metrics := by
  rw [takeBatch]
  split_ifs <;> exact ⟨rfl, rfl, rfl⟩

/-- A flush takes the pending records as a batch and sends what is due. -/
theorem flush_sending (b : Batcher) (e : Exporter) (s : Store) :
    Sending (b.takeBatch s.now).2 e s b.due (e.offers s b.due) (b.flush e s) := by
  rw [b.due_eq s.now, ← (b.takeBatch_eq s.now).1]
  exact sendAll_sending _ _ e s

/-- One batch too many at most can be left behind. -/
theorem length_due_le (hm : Minded limits h) : h.batcher.due.length ≤ limits.retryBatches + 1 := by
  have hone : (h.batcher.takeBatch 0).1.toList.length ≤ 1 := by
    cases (h.batcher.takeBatch 0).1 <;> simp
  rw [h.batcher.due_eq 0, List.length_append]
  exact Nat.add_le_add hm.bound hone

/-- The round of a flush finds what the batcher has to send, and drops what is
too many. -/
theorem Minded.flush_round (hm : Minded limits h) (e : Exporter) (s : Store) :
    inLine h.rounds (h.batcher.round e s) = h.batcher.due ∧
      Orderly limits.retryBatches h.rounds (h.batcher.round e s) ∧
      (h.batcher.flush e s).2.1.queue = h.batcher.due.drop (h.batcher.round e s).gone := by
  obtain ⟨-, hlimits, hmetrics⟩ := h.batcher.takeBatch_eq s.now
  have hs := flush_sending h.batcher e s
  obtain ⟨d, -, hleft, hdropped, hall⟩ := hs.dropped
  rw [hlimits, hm.limits] at hall
  rw [hmetrics] at hdropped
  -- what waits in line and what the flush has to send are the same batches
  have hline : inLine h.rounds (h.batcher.round e s) = h.batcher.due := by
    rw [inLine, formed_concat, List.drop_append_of_le_length hm.most, ← hm.queue]
    exact (h.batcher.due_eq s.now).symm
  have hround : (h.batcher.round e s).dropped = d := by
    show (h.batcher.flush e s).2.1.metrics.droppedBatches - _ = d
    rw [hdropped, Nat.add_sub_cancel_left]
  -- at most one batch is too many, since the line was within its bound before
  have hexcess : excess limits.retryBatches h.batcher.due (e.offers s h.batcher.due) ≤ 1 := by
    have hlong := length_due_le hm
    unfold excess
    split_ifs
    · omega
    · exact zero_le_one
  refine ⟨hline, ⟨?_, ?_, hs.accepted, ?_, hs.reason, ?_⟩, ?_⟩
  · rw [hline]
    exact hs.offered
  · rw [hline]
    exact hs.some
  · rw [hline]
    exact hs.done
  · rw [hline, hround]
    exact hall (Or.inl hexcess)
  · rw [hleft, ← hround]
    rfl

/-- A round leaves no more batches than may wait. -/
theorem Orderly.bound {most : Nat} {before : List Round} {r : Round} (h : Orderly most before r)
    (hlong : (inLine before r).length ≤ most + 1) :
    r.gone ≤ (inLine before r).length ∧ ((inLine before r).drop r.gone).length ≤ most := by
  have hoffered := h.offered.length_le
  have hsettled := Exporter.settled_le_length r.offers
  have hdropped := h.dropped
  rw [List.length_map] at hoffered
  rw [List.length_drop, Round.gone]
  cases hr : refused r.offers with
  | true =>
    rw [hr, if_pos rfl] at hdropped
    omega
  | false =>
    rw [hr, if_neg Bool.false_ne_true] at hdropped
    rw [Exporter.settled_of_not_refused hr]
    by_cases hnil : inLine before r = []
    · rw [hnil] at hoffered ⊢
      simp only [List.length_nil] at hoffered ⊢
      omega
    · have hpos : 0 < r.offers.length := List.length_pos_of_ne_nil (h.begun hnil)
      omega

/-- **A flush keeps batches whole and in order.** -/
theorem Minded.flush (hm : Minded limits h) (e : Exporter) (s : Store) :
    Minded limits (h.call (.flush e s)) := by
  obtain ⟨hline, horderly, hleft⟩ := hm.flush_round e s
  have hlong := length_due_le hm
  rw [← hline] at hleft hlong
  obtain ⟨hgone, hbound⟩ := horderly.bound hlong
  refine ⟨?bound, ?queue, ?most, ?whole, ?orderly, ?limits⟩
  case bound =>
    show (h.batcher.flush e s).2.1.queue.length ≤ _
    rw [hleft]
    exact hbound
  case queue =>
    show (h.batcher.flush e s).2.1.queue = (formed (h.rounds ++ [_])).drop (gone (h.rounds ++ [_]))
    rw [hleft, gone_concat, ← List.drop_drop, ← inLine]
  case most =>
    show gone (h.rounds ++ [_]) ≤ (formed (h.rounds ++ [_])).length
    -- what is gone was in line, and the line is what is left of the formed batches
    rw [inLine, List.length_drop] at hgone
    have hmost := hm.most
    rw [gone_concat]
    rw [formed_concat, List.length_append] at hgone ⊢
    omega
  case whole =>
    intro batch hbatch
    rw [show (h.call (.flush e s)).rounds = h.rounds ++ [h.batcher.round e s] from rfl,
      formed_concat, List.mem_append, Option.mem_toList] at hbatch
    exact hbatch.elim (hm.whole batch) takeBatch_ne_nil
  case orderly =>
    intro before r after hsplit
    -- the last round is this one, and the earlier ones were orderly before
    rcases after.eq_nil_or_concat with rfl | ⟨after, last, rfl⟩
    · obtain ⟨rfl, hlast⟩ := List.append_inj' hsplit rfl
      cases hlast
      exact horderly
    · rw [List.concat_eq_append, ← List.cons_append, ← List.append_assoc] at hsplit
      exact hm.orderly before r after (List.append_inj' hsplit rfl).1
  case limits =>
    exact (flush_sending h.batcher e s).limits.trans
      ((h.batcher.takeBatch_eq s.now).2.1.trans hm.limits)

/-- **Each call keeps the queue as what is left of the batches that were formed.** -/
theorem Minded.call (hm : Minded limits h) (c : Call) : Minded limits (h.call c) := by
  cases c with
  | add r => exact ⟨hm.bound, hm.queue, hm.most, hm.whole, hm.orderly, hm.limits⟩
  | takeBatch now =>
    obtain ⟨hqueue, hlimits, -⟩ := h.batcher.takeBatch_eq now
    exact ⟨hqueue ▸ hm.bound, hqueue.trans hm.queue, hm.most, hm.whole, hm.orderly,
      hlimits.trans hm.limits⟩
  | flush e s => exact hm.flush e s
  | recount m => exact ⟨hm.bound, hm.queue, hm.most, hm.whole, hm.orderly, hm.limits⟩

/-- The queue of a batcher that was called since it was new is what is left of the batches
that were formed. -/
theorem serve_minded (limits : BatchLimits) (now : Nat) (calls : List Call) :
    Minded limits (serve limits now calls) := by
  induction calls using List.reverseRecOn with
  | nil => exact ⟨Nat.zero_le _, rfl, le_rfl, nofun, by simp [serve], rfl⟩
  | append_singleton calls c ih =>
    rw [serve, List.foldl_concat]
    exact ih.call c

/-- With no empty batch in the queue, nothing waits only if nothing is queued. -/
theorem totalPending_eq_zero (hwhole : ∀ batch ∈ b.queue, batch ≠ []) :
    b.totalPending = 0 ↔ b.queue = [] ∧ b.pending = [] := by
  rw [totalPending_eq, List.length_eq_zero_iff, waiting, List.append_eq_nil_iff,
    List.flatten_eq_nil_iff]
  refine and_congr_left fun _ => ⟨fun h => ?_, fun h batch hb => ?_⟩
  · exact List.eq_nil_iff_forall_not_mem.2 fun batch hb => hwhole batch hb (h batch hb)
  · exact absurd (h ▸ hb) List.not_mem_nil

/-- **Batches are bounded in number, whole and in order**, whatever the batcher
is called for and whatever becomes of the batches.  The queue keeps within its
bound and has no empty batch; it is what is left of the batches that were
formed, in order; and each round offers what is in line as it was formed, and
drops what is too many after a refusal and nothing else. -/
theorem serve_orderly (limits : BatchLimits) (now : Nat) (calls : List Call) :
    ∃ b rounds, serve limits now calls = ⟨b, rounds⟩ ∧
      b.queue.length ≤ limits.retryBatches ∧
      (∀ batch ∈ b.queue, batch ≠ []) ∧
      (b.totalPending = 0 ↔ b.queue = [] ∧ b.pending = []) ∧
      b.queue = (formed rounds).drop (gone rounds) ∧
      (∀ before r after, rounds = before ++ r :: after →
        Orderly limits.retryBatches before r ∧ (r.outcome = .done → r.dropped = 0)) ∧
      ∀ e s, (b.flush e s).2.2.1 = (e.sendEach s ((b.round e s).offers.map Offer.batch)).1 := by
  have hm := serve_minded limits now calls
  have hwhole : ∀ batch ∈ (serve limits now calls).batcher.queue, batch ≠ [] := fun batch hb =>
    hm.whole batch (List.mem_of_mem_drop (hm.queue ▸ hb))
  refine ⟨_, _, rfl, hm.bound, hwhole, totalPending_eq_zero hwhole, hm.queue,
    fun before r after hsplit => ?_, fun e s => ?_⟩
  · have horderly := hm.orderly before r after hsplit
    exact ⟨horderly, horderly.none_dropped⟩
  · exact (flush_sending _ e s).told

/-- With room for one batch, the older one of two refused batches is dropped. -/
example : (serve { retryBatches := 1 } 0 [.add 0, .flush { sink := .directory } {}, .add 1,
    .flush { sink := .directory } {}]).batcher.queue = [[1]] := by
  decide

/-- What a command makes of a batcher that is there, between the store that it
finds and the one that it leaves. -/
inductive Called (s s' : Store) (b : Batcher) : Batcher → Prop
  | spared : Called s s' b b
  | add (rs : List RecordId) : Called s s' b { b with pending := b.pending ++ rs }
  | takeBatch : Called s s' b (b.takeBatch s.now).2
  | flush (e : Exporter) (h : s' = (b.flush e s).2.2.2) : Called s s' b (b.flush e s).2.1
  | recount (m : BatchMetrics) : Called s s' b { b with metrics := m }

/-- The batcher is what some calls made of a new one. -/
def Served (b : Batcher) : Prop := ∃ limits now calls, (serve limits now calls).batcher = b

/-- A batcher that was served and is called was served. -/
theorem Served.call (h : b.Served) (c : Call) :
    (History.call { batcher := b } c).batcher.Served := by
  obtain ⟨limits, now, calls, rfl⟩ := h
  refine ⟨limits, now, calls ++ [c], ?_⟩
  rw [serve, List.foldl_concat, ← serve]
  cases c <;> rfl

/-- Records are put in by calls. -/
theorem Served.addAll (rs : List RecordId) : ∀ b : Batcher, b.Served → (rs.foldl add b).Served := by
  induction rs with
  | nil => exact fun _ h => h
  | cons r rs ih => exact fun b h => ih _ (h.call (.add r))

/-- What a command makes of a batcher that was served was served. -/
theorem Called.served {s s' : Store} {b' : Batcher} (h : Called s s' b b') (hb : b.Served) :
    b'.Served := by
  cases h with
  | spared => exact hb
  | add rs => exact foldl_add rs b ▸ hb.addAll rs
  | takeBatch => exact hb.call (.takeBatch s.now)
  | flush e => exact hb.call (.flush e s)
  | recount m => exact hb.call (.recount m)

end Batcher

namespace Tracer

open Batcher (Called)

variable {t : Tracer} {q : String} {c : Command} {s' : Store}

/-- The batcher that is put back under its name is the one that was called. -/
theorem called_insert {m : Keyed Batcher} {s : Store} {b b' : Batcher} (h : Called s s' b b') :
    Option.Rel (Called s s') (some b) ((m.insert q b').get? q) := by
  rw [Keyed.get?_insert, if_pos rfl]
  exact .some h

/-- **The commands that work on a batcher call it.** -/
theorem answer_called (hc : c.Serves q) (hnew : ∀ limits, c ≠ .batcher q limits) :
    Option.Rel (Called t.store (t.answer c).2.store) (t.batchers.get? q)
      ((t.answer c).2.batchers.get? q) := by
  -- a batcher that is not there makes the command unknown
  cases hb : t.batchers.get? q with
  | none =>
    have hanswer : t.answer c = (.unknown, t) := by
      cases c
      case batcher n limits => exact absurd (congrArg (Command.batcher · limits) hc) (hnew limits)
      case enqueue | enqueueNumbered | flush | takeBatch | count =>
        obtain rfl := hc
        exact answer_unknown rfl rfl (fails hb)
      all_goals exact hc.elim
    rw [hanswer, hb]
    exact .none
  | some b =>
    -- a command that fails to look something else up leaves the batcher alone
    have hunknown : t.answer c = (.unknown, t) →
        Option.Rel (Called t.store (t.answer c).2.store) (some b)
          ((t.answer c).2.batchers.get? q) := by
      intro h
      rw [h, hb]
      exact .some .spared
    cases c
    case batcher n limits => exact absurd (congrArg (Command.batcher · limits) hc) (hnew limits)
    case enqueue n r =>
      obtain rfl := hc
      cases hr : t.records.get? r with
      | none => exact hunknown (answer_unknown rfl rfl (performs hb (fails hr)))
      | some r' =>
        rw [answer_delivery rfl rfl (performs hb (performs hr rfl))]
        exact called_insert (.add [r'])
    case enqueueNumbered n p trace count =>
      obtain rfl := hc
      cases hp : t.sets.get? p with
      | none => exact hunknown (answer_unknown rfl rfl (performs hb (fails hp)))
      | some p' =>
        rw [answer_delivery rfl rfl (performs hb (performs hp rfl))]
        cases hrun : numberedRecords p' trace count t.store with
        | ok rs s =>
          rw [after_ok hrun, Batcher.foldl_add]
          exact called_insert (.add rs)
        | error f s =>
          rw [after_error hrun, hb]
          exact .some .spared
    case flush n en =>
      obtain rfl := hc
      cases he : t.exporters.get? en with
      | none => exact hunknown (answer_unknown rfl rfl (performs hb (fails he)))
      | some e =>
        rw [answer_flush hb he]
        exact called_insert (.flush e rfl)
    case takeBatch n batch =>
      obtain rfl := hc
      rw [takeBatch_answer hb]
      cases (b.takeBatch t.store.now).1 <;> exact called_insert .takeBatch
    case count n success dropped error =>
      obtain rfl := hc
      rw [answer_delivery rfl rfl (performs hb rfl)]
      exact called_insert (.recount _)
    all_goals exact hc.elim

/-- A batcher that is there stays, unless the name is given to a new one. -/
theorem step_called (t : Tracer) (hnew : ∀ limits, c ≠ .batcher q limits) :
    Option.Rel (Called t.cleared.store (t.step c).2.store) (t.batchers.get? q)
      ((t.step c).2.batchers.get? q) := by
  by_cases hc : c.Serves q
  · exact answer_called (t := t.cleared) hc hnew
  · rw [(retains_step t c).batchers q hc]
    cases t.batchers.get? q with
    | none => exact .none
    | some b => exact .some .spared

/-- A step leaves every batcher served, including one that it sets up anew. -/
theorem step_served (h : ∀ q b, t.batchers.get? q = some b → b.Served) (c : Command) (q : String)
    (b : Batcher) (hb : (t.step c).2.batchers.get? q = some b) : b.Served := by
  by_cases hnew : ∃ limits, c = .batcher q limits
  · obtain ⟨limits, rfl⟩ := hnew
    have hstart : (t.step (.batcher q limits)).2.batchers.get? q =
        some (.start limits t.store.now) := (Keyed.get?_insert ..).trans (if_pos rfl)
    obtain rfl := Option.some.inj (hstart.symm.trans hb)
    exact ⟨limits, t.store.now, [], rfl⟩
  · have hcalled := step_called (c := c) (q := q) t fun limits hc => hnew ⟨limits, hc⟩
    rw [hb] at hcalled
    cases hq : t.batchers.get? q with
    | none =>
      rw [hq] at hcalled
      cases hcalled
    | some b₀ =>
      rw [hq] at hcalled
      cases hcalled with
      | some hb₀ => exact hb₀.served (h q b₀ hq)

/-- **Every batcher of a tracer is what calls made of a new one.** -/
theorem run_served (cs : List Command) : ∀ t : Tracer,
    (∀ q b, t.batchers.get? q = some b → b.Served) →
      ∀ q b, (t.run cs).2.batchers.get? q = some b → b.Served := by
  induction cs with
  | nil => exact fun _ h => h
  | cons c cs ih => exact fun t h => ih _ (step_served h c)

/-- So no batcher of a tracer keeps more batches than it may, or an empty one. -/
theorem run_bounded (cs : List Command) {q : String} {b : Batcher}
    (hb : (({} : Tracer).run cs).2.batchers.get? q = some b) :
    b.queue.length ≤ b.limits.retryBatches ∧ ∀ batch ∈ b.queue, batch ≠ [] := by
  obtain ⟨limits, now, calls, rfl⟩ := run_served cs {} nofun q b hb
  have hm := Batcher.serve_minded limits now calls
  refine ⟨?_, fun batch h => hm.whole batch (List.mem_of_mem_drop (hm.queue ▸ h))⟩
  rw [hm.limits]
  exact hm.bound

end Tracer
end Telemetry
