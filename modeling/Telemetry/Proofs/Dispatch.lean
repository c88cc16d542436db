/-
# What every command keeps

The commands on batches, exporters and batchers, and with them all commands:
`step_outcome` says what a step keeps, whatever the command is.
-/

import Telemetry.Proofs.Steps

namespace Telemetry

open Trace Store

namespace Batcher

variable (b : Batcher)

/-- Records are appended to the pending ones. -/
theorem foldl_add (rs : List RecordId) (b : Batcher) :
    rs.foldl add b = { b with pending := b.pending ++ rs } := by
  induction rs generalizing b with
  | nil => rw [List.foldl_nil, List.append_nil]
  | cons r rs ih => rw [List.foldl_cons, ih, add, List.append_assoc, List.singleton_append]

/-- Records that are added wait behind those that waited before. -/
theorem waiting_foldl_add (rs : List RecordId) : (rs.foldl add b).waiting = b.waiting ++ rs := by
  rw [foldl_add]
  exact (List.append_assoc ..).symm

/-- A batch that is formed takes what is pending with it. -/
theorem takeBatch_waiting (now : Nat) :
    (b.takeBatch now).2.waiting ++ (b.takeBatch now).1.getD [] = b.waiting := by
  rw [takeBatch]
  split_ifs
  · exact List.append_nil _
  · rw [Option.getD_some, waiting, waiting, List.append_nil]

end Batcher

namespace Tracer

variable {t : Tracer} {L L' : Ledger} {H : Multiset RecordId} {W : SlotId → Prop}
  {written : Option RecordId} {s s' : Store} {n q en : String} {c : Command}

/-! ### Batches -/

/-- A batch under a name brings no other records into the hand than its own. -/
theorem inHand_insertBatch_le (t : Tracer) (n : String) (rs : List RecordId) :
    ({ t with batches := t.batches.insert n rs } : Tracer).inHand ≤ t.inHand + rs := by
  rw [← inHand_insertBatch]
  exact Multiset.le_add_right _ _

/-- A batch that is replaced. -/
theorem inHand_replaceBatch {rs : List RecordId} (hb : t.batches.get? n = some rs)
    (rs' : List RecordId) :
    ({ t with batches := t.batches.insert n rs' } : Tracer).inHand + rs = t.inHand + rs' := by
  have h := inHand_insertBatch t n rs'
  rwa [hb, Option.elim_some] at h

/-- A batch that is emptied. -/
theorem inHand_emptyBatch {rs : List RecordId} (hb : t.batches.get? n = some rs) :
    t.inHand = ↑rs + ({ t with batches := t.batches.insert n [] } : Tracer).inHand := by
  have hin := inHand_replaceBatch hb []
  rw [Multiset.coe_nil, add_zero, add_comm] at hin
  exact hin.symm

/-- Records are put together as a batch. -/
theorem batch_outcome (h : Books t.store L t.inHand) (names : List String) :
    Outcome W t written L (t.answer (.batch n names)) := by
  cases hrs : t.takeRecords names with
  | none => exact unknown_outcome h (answer_unknown rfl rfl (fails hrs))
  | some p =>
    obtain ⟨rs, t₁⟩ := p
    obtain ⟨hstore, -, -, -, hin⟩ := takeRecords_spec names t rs t₁ hrs
    have hanswer : t.answer (.batch n names) =
        (.count rs.length, { t₁ with batches := t₁.batches.insert n rs }) :=
      answer_delivery rfl rfl (performs hrs rfl)
    rw [hanswer]
    have hm : Moves (fun _ => True) W t.store L t.inHand t₁.store := by
      rw [hstore]
      exact Moves.refl h
    refine Outcome.of_moves hm ?_ (fun _ _ _ _ => trivial) rfl
    rw [hin, add_comm]
    exact inHand_insertBatch_le t₁ n rs

/-- A record is added to a batch. -/
theorem batchAdd_outcome (h : Books t.store L t.inHand) (name : String) :
    Outcome W t written L (t.answer (.batchAdd n name)) := by
  cases hb : t.batches.get? n with
  | none => exact unknown_outcome h (answer_unknown rfl rfl (fails hb))
  | some rs =>
    cases hrs : t.takeRecords [name] with
    | none => exact unknown_outcome h (answer_unknown rfl rfl (performs hb (fails hrs)))
    | some p =>
      obtain ⟨more, t₁⟩ := p
      obtain ⟨hstore, hbatches, -, -, hin⟩ := takeRecords_spec [name] t more t₁ hrs
      have hanswer : t.answer (.batchAdd n name) = (.count (rs ++ more).length,
          { t₁ with batches := t₁.batches.insert n (rs ++ more) }) :=
        answer_delivery rfl rfl (performs hb (performs hrs rfl))
      rw [hanswer]
      have hm : Moves (fun _ => True) W t.store L t.inHand t₁.store := by
        rw [hstore]
        exact Moves.refl h
      refine Outcome.of_all hm (add_right_cancel (b := ↑rs) ?_) rfl
      rw [inHand_replaceBatch (hbatches ▸ hb), hin, ← Multiset.coe_add]
      abel

/-- What a sink was sent is looked up. -/
theorem sent_outcome (h : Books t.store L t.inHand) :
    Outcome W t written L (t.answer (.sent n)) := by
  cases hb : t.batches.get? n with
  | none => exact unknown_outcome h (answer_unknown rfl rfl (fails hb))
  | some rs =>
    rw [inHand_emptyBatch hb] at h
    obtain ⟨s', hrun, hm⟩ := releaseRecords_moves (W := W) rs t.store h
    have hanswer : t.answer (.sent n) =
        (.count 0, { t with store := s', batches := t.batches.insert n [] }) :=
      answer_delivery rfl rfl (performs hb (by simp only [after, act, hrun]))
    rw [hanswer]
    refine Outcome.of_moves hm le_rfl (fun r _ hr' _ hrs => ?_) rfl
    exact Multiset.disjoint_left.1 (Multiset.nodup_add.1 h.housed.once).2.2 hrs hr'

/-- A batch is given up, with its records or without. -/
theorem discard_outcome (h : Books t.store L t.inHand) (release : Bool) :
    Outcome W t written L (t.answer (.discard n release)) := by
  cases hb : t.batches.get? n with
  | none => exact unknown_outcome h (answer_unknown rfl rfl (fails hb))
  | some rs =>
    rw [inHand_eraseBatch hb] at h
    set gone : List RecordId := if release then rs else [] with hgone
    have hgoneBooks : Books t.store L
        (↑gone + ({ t with batches := t.batches.erase n } : Tracer).inHand) := by
      refine h.mono (add_le_add_left ?_ _)
      cases release
      · exact Multiset.zero_le _
      · exact le_rfl
    obtain ⟨s', hrun, hm⟩ := releaseRecords_moves (W := W) gone t.store hgoneBooks
    have hanswer : t.answer (.discard n release) =
        (.done, { t with store := s', batches := t.batches.erase n }) :=
      answer_delivery rfl rfl (performs hb (by simp only [after, act, ← hgone, hrun]))
    rw [hanswer]
    refine Outcome.of_moves hm le_rfl (fun r _ hr' _ hrs => ?_) rfl
    exact Multiset.disjoint_left.1 (Multiset.nodup_add.1 hgoneBooks.housed.once).2.2 hrs hr'

/-- A batch is sent. -/
theorem send_outcome (h : Books t.store L t.inHand) :
    Outcome W t written L (t.answer (.send en n)) := by
  cases he : t.exporters.get? en with
  | none => exact unknown_outcome h (answer_unknown rfl rfl (fails he))
  | some e =>
    cases hb : t.batches.get? n with
    | none => exact unknown_outcome h (answer_unknown rfl rfl (performs he (fails hb)))
    | some rs =>
      have h' := h
      rw [inHand_emptyBatch hb] at h'
      rcases e.send_cases (W := W) h' with
        ⟨e', s', hsend, -, hm⟩ | ⟨f, e', s', hsend, hquiet⟩
      · -- it is accepted: the batch is empty afterwards, and its records are nobody else's
        have hanswer : t.answer (.send en n) = (.count 0, { t with
            store := s'
            exporters := t.exporters.insert en e'
            batches := t.batches.insert n [] }) :=
          answer_delivery rfl rfl (performs he (performs hb (by rw [hsend])))
        rw [hanswer]
        refine Outcome.of_moves hm le_rfl (fun r _ hr' _ hrs => ?_) rfl
        exact Multiset.disjoint_left.1 (Multiset.nodup_add.1 h'.housed.once).2.2 hrs hr'
      · -- it is refused: nothing moves
        have hanswer : t.answer (.send en n) =
            (.failure f, { t with store := s', exporters := t.exporters.insert en e' }) :=
          answer_delivery rfl rfl (performs he (performs hb (by rw [hsend])))
        rw [hanswer]
        exact Outcome.of_all (h.moves_of_quiet hquiet) rfl rfl

/-! ### Batchers -/

/-- A batcher that is replaced. -/
theorem inHand_replaceBatcher {b : Batcher} (hb : t.batchers.get? q = some b) (b' : Batcher) :
    ({ t with batchers := t.batchers.insert q b' } : Tracer).inHand + b.waiting =
      t.inHand + b'.waiting := by
  have h := inHand_insertBatcher t q b'
  rwa [hb, Option.elim_some] at h

/-- What a batcher has and what everybody else has. -/
theorem inHand_eraseBatcher {b : Batcher} (hb : t.batchers.get? q = some b) :
    t.inHand = ↑b.waiting + ({ t with batchers := t.batchers.erase q } : Tracer).inHand := by
  have h := inHand_exchange (n := 0) (inHand_batchers t (t.batchers.erase q))
    (by rw [Keyed.total_erase, add_zero])
  rw [hb, Option.elim_some, add_zero, add_comm] at h
  exact h.symm

/-- A batcher that is kept after some change. -/
theorem inHand_keepBatcher {b : Batcher} (hb : t.batchers.get? q = some b) (b' : Batcher) :
    ({ t with batchers := t.batchers.insert q b' } : Tracer).inHand =
      ↑b'.waiting + ({ t with batchers := t.batchers.erase q } : Tracer).inHand := by
  refine add_right_cancel (b := ↑b.waiting) ((inHand_replaceBatcher hb b').trans ?_)
  rw [inHand_eraseBatcher hb]
  abel

/-- A new batcher has nothing. -/
theorem inHand_startBatcher_le (t : Tracer) (q : String) (limits : BatchLimits) (now : Nat) :
    ({ t with batchers := t.batchers.insert q (.start limits now) } : Tracer).inHand ≤
      t.inHand := by
  have hin := inHand_insertBatcher t q (.start limits now)
  rw [show (Batcher.start limits now).waiting = [] from rfl, Multiset.coe_nil, add_zero] at hin
  exact hin ▸ Multiset.le_add_right _ _

/-- Records are added to a batcher. -/
theorem inHand_addRecords {b : Batcher} (hb : t.batchers.get? q = some b) (rs : List RecordId) :
    ({ t with batchers := t.batchers.insert q (rs.foldl Batcher.add b) } : Tracer).inHand =
      ↑rs + t.inHand := by
  rw [inHand_keepBatcher hb, inHand_eraseBatcher hb, Batcher.waiting_foldl_add, ← Multiset.coe_add]
  abel

/-- A batch is formed. -/
theorem inHand_takeBatch {b : Batcher} (hb : t.batchers.get? q = some b) (now : Nat) :
    ({ t with batchers := t.batchers.insert q (b.takeBatch now).2 } : Tracer).inHand +
        ↑((b.takeBatch now).1.getD []) = t.inHand := by
  rw [inHand_keepBatcher hb, inHand_eraseBatcher hb, ← b.takeBatch_waiting now,
    ← Multiset.coe_add]
  abel

/-- A batcher is set up. -/
theorem batcher_outcome (h : Books t.store L t.inHand) (limits : BatchLimits) :
    Outcome W t written L (t.answer (.batcher q limits)) :=
  Outcome.of_moves (P := fun _ => True) (Moves.refl h) (inHand_startBatcher_le t q limits _)
    (fun _ _ _ _ => trivial) rfl

/-- A record is put into a batcher. -/
theorem enqueue_outcome (h : Books t.store L t.inHand) :
    Outcome W t written L (t.answer (.enqueue q n)) := by
  cases hb : t.batchers.get? q with
  | none => exact unknown_outcome h (answer_unknown rfl rfl (fails hb))
  | some b =>
    cases hr : t.records.get? n with
    | none => exact unknown_outcome h (answer_unknown rfl rfl (performs hb (fails hr)))
    | some r =>
      set t₁ : Tracer := { t with records := t.records.erase n } with ht₁
      have hanswer : t.answer (.enqueue q n) = keepBatcher q (b.add r) t₁ :=
        answer_delivery rfl rfl (performs hb (performs hr rfl))
      rw [hanswer]
      refine Outcome.of_all (Moves.refl h) ?_ rfl
      rw [inHand_eraseRecord hr]
      exact inHand_addRecords (t := t₁) hb [r]

/-- **Records can be made one after the other**, each of a collection that has
only its identity.  The records in hand are left alone. -/
theorem numberedRecords_moves (h : Books s L H) (hN : Named W s) (p : SetId) (trace : String)
    (n : Nat) :
    ∃ rs s', numberedRecords p trace n s = .ok rs s' ∧ Moves (· ∈ H) W s L (↑rs + H) s' := by
  induction n with
  | zero => exact ⟨[], s, rfl, by simpa using Moves.refl h⟩
  | succ n ih =>
    obtain ⟨rs, s₁, hrun, hm₁⟩ := ih
    -- a collection is opened, gets its two attributes, and is turned into a record
    obtain ⟨r, s₂, hopen, hm₂, hblank⟩ := hm₁.books.openCollection_moves (W := W) p
    have hr : r ∉ H := fun hr => (Multiset.nodup_cons.1 hm₂.books.housed.once).1
      (Multiset.mem_add.2 (Or.inr hr))
    have hmem : r ∈ r ::ₘ (↑rs + H) := Multiset.mem_cons_self _ _
    set c : Collection := ⟨p, r⟩
    obtain ⟨i, s₃, hset₁, hm₃, hgain₁⟩ :=
      hm₂.books.setValue_moves (c := c) (W := W) hmem Definition.traceId (.text trace)
    obtain ⟨j, s₄, hset₂, hm₄, hgain₂⟩ :=
      hm₃.books.setValue_moves (c := c) (W := W) hmem Definition.guid (.ofNat n)
    -- the record starts blank, so it has the two attributes to itself, each with a value
    have hempty : ∀ k, k ∉ (s₂.record r).held := fun k hk => by
      rw [hblank.held] at hk
      exact Multiset.notMem_zero k hk
    have hvalued := hgain₂.valued (Option.some_ne_none _)
      (hgain₁.valued (Option.some_ne_none _) fun k hk => absurd hk (hempty k))
    have hsole := hgain₂.sole hm₄.books
      (hgain₁.sole hm₃.books fun k hk => absurd hk (hempty k))
    have hm := ((hm₂.trans hm₃).trans hm₄).only fun q (hq : q ∈ H) => fun hqr => hr (hqr ▸ hq)
    -- which is why the freeze computes nothing and the ledger stays
    obtain ⟨hL, s₅, hclose⟩ := closed_valued (L := L) Category.all s₄ hvalued
    rcases hm₄.books.intoRecord_moves (P := (· ∈ H)) (c := c) hL (hm.named (hm₁.named hN)) with
      ⟨s₆, hfreeze, hinto, -, hm₅⟩ | ⟨s', hinto, -⟩
    · refine ⟨rs ++ [r], _, ?_, ((hm₁.trans hm).trans (hm₅.mono (fun _ hq => hq) ?_)).release ?_⟩
      · simp only [numberedRecords, Action.bind_apply, hrun, hopen, Action.discard_apply, hset₁,
          hset₂, hinto, Action.pure_apply]
        rfl
      · exact fun q hq k hk hW => hW.elim id fun hkr =>
          absurd hk (hsole.apart hm₄.books (fun hqr : q = r => hr (hqr ▸ hq)) hkr)
      · rw [← Multiset.coe_add, Multiset.coe_singleton, ← Multiset.singleton_add]
        exact le_of_eq (by abel)
    · -- a freeze that computes nothing is not broken off
      rw [intoRecord_ok hclose] at hinto
      cases hinto

/-- Records are made and put into a batcher. -/
theorem enqueueNumbered_outcome (h : Books t.store L t.inHand) (hN : Named W t.store)
    (trace : String) (count : Nat) :
    Outcome W t written L (t.answer (.enqueueNumbered q n trace count)) := by
  cases hb : t.batchers.get? q with
  | none => exact unknown_outcome h (answer_unknown rfl rfl (fails hb))
  | some b =>
    cases hp : t.sets.get? n with
    | none => exact unknown_outcome h (answer_unknown rfl rfl (performs hb (fails hp)))
    | some p =>
      obtain ⟨rs, s', hrun, hm⟩ := numberedRecords_moves h hN p trace count
      have hanswer : t.answer (.enqueueNumbered q n trace count) =
          keepBatcher q (rs.foldl Batcher.add b) { t with store := s' } :=
        answer_delivery rfl rfl (performs hb (performs hp (by rw [after_ok hrun])))
      rw [hanswer]
      exact Outcome.of_moves hm (inHand_addRecords (t := { t with store := s' }) hb rs).le
        (fun r hr _ _ => hr) rfl

/-- What a flush answers. -/
def flushReply : Batcher.Flushed → Reply
  | .done => .done
  | .refused f => .failure f
  | .broken f => .fault f

/-- What a flush answers, and the tracer that it leaves. -/
theorem answer_flush {b : Batcher} {e : Exporter} (hb : t.batchers.get? q = some b)
    (he : t.exporters.get? en = some e) :
    t.answer (.flush q en) = (flushReply (b.flush e t.store).1, { t with
      store := (b.flush e t.store).2.2.2
      batchers := t.batchers.insert q (b.flush e t.store).2.1
      exporters := t.exporters.insert en (b.flush e t.store).2.2.1 }) := by
  refine answer_delivery rfl rfl (performs hb (performs he ?_))
  rcases b.flush e t.store with ⟨_ | _ | _, b', e', s'⟩ <;> rfl

/-- A flush, in the terms of what was delivered, dropped and kept. -/
theorem flush_answer {b : Batcher} {e : Exporter} (h : Books t.store L t.inHand)
    (hb : t.batchers.get? q = some b) (he : t.exporters.get? en = some e) :
    ∃ delivered dropped flushed b' e' s',
      Batcher.Sends { b with pending := [] } e t.store b.due delivered dropped
        (flushed, b', e', s') ∧
      t.answer (.flush q en) = (flushReply flushed, { t with
        store := s'
        batchers := t.batchers.insert q b'
        exporters := t.exporters.insert en e' }) := by
  rw [inHand_eraseBatcher hb] at h
  obtain ⟨delivered, dropped, hs⟩ := Batcher.flush_spec h e
  exact ⟨delivered, dropped, _, _, _, _, hs, answer_flush hb he⟩

/-- A batcher is flushed. -/
theorem flush_outcome (h : Books t.store L t.inHand) :
    Outcome W t written L (t.answer (.flush q en)) := by
  cases hb : t.batchers.get? q with
  | none => exact unknown_outcome h (answer_unknown rfl rfl (fails hb))
  | some b =>
    cases he : t.exporters.get? en with
    | none => exact unknown_outcome h (answer_unknown rfl rfl (performs hb (fails he)))
    | some e =>
      obtain ⟨delivered, dropped, flushed, b', e', s', hs, hanswer⟩ := flush_answer h hb he
      rw [hanswer]
      have hin := inHand_eraseBatcher hb
      set H := ({ t with batchers := t.batchers.erase q } : Tracer).inHand
      rw [hin] at h
      have hm := hs.moves (W := W) (by rw [Batcher.flatten_due]; exact h)
      have hwaiting : b'.waiting = b'.queue.flatten := by
        rw [Batcher.waiting, show b'.pending = [] from hs.pending]
        exact List.append_nil _
      have hin' : ({ t with
          store := s'
          batchers := t.batchers.insert q b'
          exporters := t.exporters.insert en e' } : Tracer).inHand = ↑b'.queue.flatten + H :=
        (inHand_keepBatcher hb b').trans (by rw [hwaiting])
      refine Outcome.of_moves hm hin'.le (fun r _ hr' _ hgone => ?_) ?_
      · -- what left the batcher is not in hand any more
        have honce := h.housed.once
        rw [← Batcher.flatten_due, hs.split, ← List.append_assoc, List.flatten_append,
          ← Multiset.coe_add, add_assoc] at honce
        exact Multiset.disjoint_left.1 (Multiset.nodup_add.1 honce).2.2 hgone (hin' ▸ hr')
      · rcases hs.outcome with ⟨hdone, -⟩ | ⟨⟨reason, hrefused⟩, -⟩
        · rw [show flushed = .done from hdone]
          rfl
        · rw [show flushed = .refused reason from hrefused]
          rfl

/-- What taking the pending records answers, and the tracer that it leaves. -/
theorem takeBatch_answer {b : Batcher} (hb : t.batchers.get? q = some b) :
    t.answer (.takeBatch q n) = (.count? ((b.takeBatch t.store.now).1.map List.length),
      let t' := { t with batchers := t.batchers.insert q (b.takeBatch t.store.now).2 }
      (b.takeBatch t.store.now).1.elim t' fun rs => { t' with batches := t.batches.insert n rs }) :=
  answer_delivery rfl rfl (performs hb rfl)

/-- The pending records are taken as a batch. -/
theorem takeBatch_outcome (h : Books t.store L t.inHand) :
    Outcome W t written L (t.answer (.takeBatch q n)) := by
  cases hb : t.batchers.get? q with
  | none => exact unknown_outcome h (answer_unknown rfl rfl (fails hb))
  | some b =>
    have hin := inHand_takeBatch hb t.store.now
    have hanswer := takeBatch_answer (n := n) hb
    rcases htake : b.takeBatch t.store.now with ⟨batch, b'⟩
    rw [htake] at hin hanswer
    rw [hanswer]
    cases batch with
    | none =>
      exact Outcome.of_all (Moves.refl h) ((add_zero _).symm.trans hin) rfl
    | some rs =>
      refine Outcome.of_moves (P := fun _ => True) (Moves.refl h) ?_ (fun _ _ _ _ => trivial) rfl
      exact (inHand_insertBatch_le { t with batchers := t.batchers.insert q b' } n rs).trans hin.le

/-- The counts of a batcher are changed by hand. -/
theorem count_outcome (h : Books t.store L t.inHand) (success dropped : Option Nat) (error : Bool) :
    Outcome W t written L (t.answer (.count q success dropped error)) := by
  cases hb : t.batchers.get? q with
  | none => exact unknown_outcome h (answer_unknown rfl rfl (fails hb))
  | some b =>
    have hanswer : t.answer (.count q success dropped error) =
        keepBatcher q { b with metrics :=
          let m := success.elim b.metrics b.metrics.success
          let m := dropped.elim m m.drop
          if error then m.failure else m } t :=
      answer_delivery rfl rfl (performs hb rfl)
    rw [hanswer]
    exact Outcome.of_all (Moves.refl h)
      (add_right_cancel (b := ↑b.waiting) (inHand_replaceBatcher hb _)) rfl

/-! ### All commands -/

/-- A command that only shows what its name stands for. -/
theorem looks_outcome {α : Type} (x : Option α) (reply : α → Reply) (h : Books t.store L t.inHand)
    (hreply : ∀ a, (reply a).sound) (hsome : ∀ a, x = some a → t.answer c = (reply a, t))
    (hnone : x = none → t.answer c = (.unknown, t)) : Outcome W t written L (t.answer c) := by
  cases hx : x with
  | none => exact unknown_outcome h (hnone hx)
  | some a =>
    rw [hsome a hx]
    exact Outcome.of_store h rfl rfl (hreply a)

/-- Two handles are compared. -/
theorem same_outcome (h : Books t.store L t.inHand) (handle other : String) :
    Outcome W t written L (t.answer (.same handle other)) := by
  cases hi : t.slot? handle with
  | none => exact unknown_outcome h (answer_unknown (fails hi) rfl rfl)
  | some i =>
    cases hj : t.slot? other with
    | none => exact unknown_outcome h (answer_unknown (performs hi (fails hj)) rfl rfl)
    | some j =>
      have hanswer : t.answer (.same handle other) = (.flag (i == j), t) :=
        answer_attribute (performs hi (performs hj rfl))
      rw [hanswer]
      exact Outcome.of_store h rfl rfl rfl

/-- **An answer keeps the books**, whatever the command, if the ledger can
follow it. -/
theorem answer_outcome (h : Books t.store L t.inHand) (hN : Named W t.store) (c : Command)
    (hW : ∀ i, t.Touches i c → W i) (hL : t.entry L c = some L') :
    Outcome W t (t.target? c) L' (t.answer c) := by
  -- most commands do nothing to the ledger
  have hplain : t.entry L c = some L → L = L' := fun hL' => Option.some.inj (hL'.symm.trans hL)
  cases c
  case force n => exact force_outcome h hN hL
  case freezeAttribute handle => exact freezeAttribute_outcome h hN handle hW hL
  case addReference handle => exact addReference_outcome h handle hW hL
  case removeReference handle => exact removeReference_outcome h handle hL
  case freeze cn => exact freeze_outcome h hN hW hL
  case intoRecord cn n => exact intoRecord_outcome h hN hW hL
  case insert => cases hL
  all_goals obtain rfl := hplain rfl
  case setUp n slots records => exact setUp_outcome h slots records
  case dropSet n => exact dropSet_outcome h
  case tick n => exact tick_outcome h
  case defer n v effects => exact defer_outcome h v effects
  case lookCell n =>
    exact looks_outcome (t.cells.get? n) (fun c => .cell (t.store.cell c).isFinished
      (t.store.cell c).result? (t.store.cell c).calls (t.store.cell c).inspect) h (fun _ => rfl)
      (fun _ hx => answer_attribute (performs hx rfl)) fun hx => answer_unknown (fails hx) rfl rfl
  case create n handle d => exact create_outcome h handle d
  case copy n handle source => exact copy_outcome h handle source
  case setValue handle v => exact setValue_outcome h handle v hW
  case setDeferred handle n => exact setDeferred_outcome h handle hW
  case look handle =>
    exact looks_outcome (t.slot? handle) (fun i => .attribute (some (t.store.viewSlot i))) h
      (fun _ => rfl) (fun _ hx => answer_attribute (performs hx rfl)) fun hx =>
        answer_unknown (fails hx) rfl rfl
  case inspect handle =>
    exact looks_outcome (t.slot? handle) (fun i => .text (t.store.inspectSlot i)) h (fun _ => rfl)
      (fun _ hx => answer_attribute (performs hx rfl)) fun hx => answer_unknown (fails hx) rfl rfl
  case same handle other => exact same_outcome h handle other
  case forget handle => exact forget_outcome h handle
  case openCollection n cn => exact openCollection_outcome h
  case put cn d v => exact put_outcome h d v
  case putDeferred cn d n => exact putDeferred_outcome h d
  case putAttribute cn handle => exact putAttribute_outcome h handle hW
  case removeMany cn handles => exact removeMany_outcome h handles
  case get cn k name handle => exact get_outcome h k name handle
  case prioritize cn x => exact prioritize_outcome h x
  case lookCollection cn =>
    exact looks_outcome (t.collections.get? cn)
      (fun c => .collection (t.store.viewRecord c.record)) h (fun _ => rfl)
      (fun _ hx => answer_record rfl (performs hx rfl))
      fun hx => answer_unknown rfl (fails hx) rfl
  case inspectCollection cn =>
    exact looks_outcome (t.collections.get? cn)
      (fun c => .text ("AttributeCollection \x7b record: " ++
        inspectOption (some (t.store.record c.record).inspect) ++ ", .. \x7d")) h (fun _ => rfl)
      (fun _ hx => answer_record rfl (performs hx rfl))
      fun hx => answer_unknown rfl (fails hx) rfl
  case dropCollection cn => exact dropCollection_outcome h
  case lease n rn => exact lease_outcome h rn
  case lookRecord n =>
    exact looks_outcome (t.records.get? n) (fun r => .record (t.store.viewRecord r)) h
      (fun _ => rfl) (fun _ hx => answer_record rfl (performs hx rfl))
      fun hx => answer_unknown rfl (fails hx) rfl
  case inspectRecord n =>
    exact looks_outcome (t.records.get? n) (fun r => .text (t.store.record r).inspect) h
      (fun _ => rfl) (fun _ hx => answer_record rfl (performs hx rfl))
      fun hx => answer_unknown rfl (fails hx) rfl
  case prioritizeRecord n x => exact prioritizeRecord_outcome h x
  case release n => exact release_outcome h
  case dropRecord n => exact dropRecord_outcome h
  case batch n names => exact batch_outcome h names
  case batchAdd n name => exact batchAdd_outcome h name
  case lookBatch n =>
    exact looks_outcome (t.batches.get? n)
      (fun rs => .batch (t.store.displayNames rs) (t.store.batchJson rs)) h (fun _ => rfl)
      (fun _ hx => answer_delivery rfl rfl (performs hx rfl))
      fun hx => answer_unknown rfl rfl (fails hx)
  case sent n => exact sent_outcome h
  case discard n release => exact discard_outcome h release
  case send en n => exact send_outcome h
  case exporter en sink policy => exact Outcome.of_store h rfl rfl rfl
  case lookExporter en =>
    exact looks_outcome (t.exporters.get? en) (.exporter) h (fun _ => rfl)
      (fun _ hx => answer_delivery rfl rfl (performs hx rfl))
      fun hx => answer_unknown rfl rfl (fails hx)
  case batcher q limits => exact batcher_outcome h limits
  case enqueue q n => exact enqueue_outcome h
  case enqueueNumbered q n trace count => exact enqueueNumbered_outcome h hN trace count
  case flush q en => exact flush_outcome h
  case takeBatch q n => exact takeBatch_outcome h
  case lookBatcher q =>
    exact looks_outcome (t.batchers.get? q) (fun b => .batcher b (b.shouldFlush t.store.now)) h
      (fun _ => rfl) (fun _ hx => answer_delivery rfl rfl (performs hx rfl))
      fun hx => answer_unknown rfl rfl (fails hx)
  case count q success dropped error => exact count_outcome h success dropped error
  case advance ms => exact Outcome.of_all (h.moves_of_quiet ⟨_, t.store.log, rfl⟩) rfl rfl

/-! ### Steps -/

/-- Emptying the log changes nothing that counts. -/
theorem cleared_quiet (t : Tracer) : Quiet t.store t.cleared.store := ⟨t.store.now, #[], rfl⟩

/-- **What a step keeps**: the books, at the ledger that the rules of the
command give, and every record that is in hand before and after and is not
written by the command. -/
theorem step_outcome (h : Books t.store L t.inHand) (hN : Named W t.store)
    (hW : ∀ i, t.Touches i c → W i) (hL : t.ledgerAfter L c = some L') :
    Outcome W t (t.target? c) L' (t.step c) := by
  have hm : Moves (fun _ => True) W t.store L t.inHand t.cleared.store :=
    h.moves_of_quiet t.cleared_quiet
  have htouches : ∀ i, t.cleared.Touches i c → W i := fun i hi => hW i (by cases c <;> exact hi)
  have houtcome := answer_outcome (t := t.cleared) hm.books (hm.named hN) c htouches hL
  have htarget : t.cleared.target? c = t.target? c := by cases c <;> rfl
  rw [htarget] at houtcome
  exact ⟨houtcome.books, (hm.spares.mono (fun _ _ => trivial) fun _ _ _ _ hi => hi).trans
    houtcome.spares, houtcome.sound⟩

end Tracer
end Telemetry
