/-
# Leased records

Whatever is done to a tracer, records in hand and records in pools are kept apart,
and those in pools are blank (`Tracer.step_stocked`): each command passes on the
records that it takes, and those that it lets go of are released or lost.

That no leased record has anything left of a span follows from that alone
(`Tracer.run_recycles`): it is not the lease that blanks a record but every way by
which one comes back.
-/

import Telemetry.Proofs.Forfeits
import Telemetry.Proofs.Reachable

namespace Telemetry

open Trace

namespace Tracer

open Store

variable {t : Tracer} {c : Command} {α : Type} {H : Multiset RecordId}

/-- The records that the tracer has are in hand, and its pools are in order. -/
def Stocked (t : Tracer) : Prop := t.store.Stocked t.inHand

/-- What a command leaves, if it is carried out at all, is stocked. -/
def Supplied (x : Option (Reply × Tracer)) : Prop := ∀ out, x = some out → out.2.Stocked

/-- A command that is not carried out owes nothing. -/
theorem supplied_none : Supplied none := fun _ h => absurd h.symm (Option.some_ne_none _)

/-- A command that is carried out is judged by what it leaves. -/
theorem supplied_some {out : Reply × Tracer} (h : out.2.Stocked) : Supplied (some out) := by
  intro _ hout
  rw [← Option.some.inj hout]
  exact h

/-- A command that looks a name up first is judged by what it does with what it finds. -/
theorem supplied_bind {x : Option α} {f : α → Option (Reply × Tracer)}
    (h : ∀ a, x = some a → Supplied (f a)) : Supplied (x >>= f) := by
  cases hx : x with
  | none => exact supplied_none
  | some a => exact h a hx

/-- What leaves the records alone leaves them in hand. -/
theorem Stocked.of_apart {t' : Tracer} (h : t.Stocked) (hs : Apart t.store t'.store)
    (hin : t'.inHand = t.inHand) : t'.Stocked := by
  rw [Stocked, hin]
  exact Store.Stocked.of_apart h hs

/-- **An operation and what follows it.**  Broken off, the operation has to leave
at least the records in hand that the tracer has. -/
theorem after_stocked {a : Action α} {k : α → Tracer → Reply × Tracer}
    {K : α → Multiset RecordId} {E : Multiset RecordId} (ha : Stocks K E (a t.store))
    (hE : t.inHand ≤ E) (hk : ∀ x s, s.Stocked (K x) → (k x { t with store := s }).2.Stocked) :
    (t.after a k).2.Stocked := by
  cases hr : a t.store with
  | ok x s =>
    rw [hr] at ha
    rw [after_ok hr]
    exact hk x s ha
  | error e s =>
    rw [hr] at ha
    rw [after_error hr]
    exact Store.Stocked.mono ha hE

/-- An operation after which the same records are in hand. -/
theorem after_leaves {a : Action α} {k : α → Tracer → Reply × Tracer}
    (ha : (a.leaves t.store).Stocked t.inHand)
    (hs : ∀ x s, Apart s (k x { t with store := s }).2.store)
    (hin : ∀ x s, (k x { t with store := s }).2.inHand = t.inHand) :
    (t.after a k).2.Stocked :=
  after_stocked (stocks_of_leaves ha) le_rfl fun x s h =>
    Stocked.of_apart (t := { t with store := s }) h (hs x s) (hin x s)

/-- An operation on attributes. -/
theorem after_apart {a : Action α} {k : α → Tracer → Reply × Tracer} (h : t.Stocked)
    (ha : ∀ m, a.Keeps (Apart m)) (hs : ∀ x s, Apart s (k x { t with store := s }).2.store)
    (hin : ∀ x s, (k x { t with store := s }).2.inHand = t.inHand) :
    (t.after a k).2.Stocked :=
  after_leaves (Store.Stocked.keeps ha t.store h) hs hin

/-- Commands on attributes leave the records alone. -/
theorem performAttribute_supplied (h : t.Stocked) (c : Command) :
    Supplied (t.performAttribute? c) := by
  have hrefl : ∀ s : Store, Apart s s := Apart.refl
  cases c
  case setUp n slots records =>
    refine supplied_some (h.of_apart ?_ rfl)
    -- a new set of pools stores no records
    have hpush : Apart t.store { t.store with
        sets := t.store.sets.push { slots := .ofConfig slots, records := .ofConfig records } } := by
      refine ⟨rfl, fun p => ?_, fun _ h => h⟩
      rw [set_push]
      split_ifs
      · exact List.nil_sublist _
      · exact List.Sublist.refl _
    dsimp only
    cases t.sets.get? n with
    | none => exact hpush
    | some p => exact hpush.trans (letGo_apart _ p)
  case dropSet n =>
    exact supplied_bind fun p _ => supplied_some (h.of_apart (letGo_apart _ p) rfl)
  case tick n =>
    exact supplied_bind fun p _ => supplied_some
      (after_apart h (fun _ => tickSet_apart p) (fun _ => hrefl) fun _ _ => rfl)
  case defer n v effects =>
    exact supplied_some (after_apart h
      (fun _ => Action.keeps_get fun _ _ => Action.keeps_bind
        (Action.keeps_modify fun _ h => h.trans (.of_same rfl rfl rfl)) fun _ =>
          Action.keeps_pure _) (fun _ => hrefl) fun _ _ => rfl)
  case force n =>
    exact supplied_bind fun x _ => supplied_some
      (after_apart h (fun _ => force_apart x) (fun _ => hrefl) fun _ _ => rfl)
  case create n handle d =>
    exact supplied_bind fun p _ => supplied_some (after_apart h
      (fun _ => createAttribute_apart p d) (fun _ _ => .of_same rfl rfl rfl) fun _ _ => rfl)
  case copy n handle source =>
    -- the copy gets the handle, if it was made
    refine supplied_bind fun p _ => supplied_bind fun i _ => supplied_some (after_apart h
      (fun _ => copyAttribute_apart p i) (fun j s => ?_) fun j s => ?_)
    · cases j with
      | none => exact hrefl s
      | some j => exact .of_same rfl rfl rfl
    · cases j <;> rfl
  case setValue handle v =>
    refine supplied_bind fun i _ => supplied_some
      (after_apart h (fun _ => ?_) (fun _ => hrefl) fun _ _ => rfl)
    cases v with
    | none => exact Action.keeps_pure ()
    | some v => exact Action.keeps_modify fun _ h => h.trans (.of_same rfl rfl rfl)
  case setDeferred handle n =>
    exact supplied_bind fun i _ => supplied_bind fun x _ => supplied_some (after_apart h
      (fun _ => Action.keeps_modify fun _ h => h.trans (.of_same rfl rfl rfl))
      (fun _ => hrefl) fun _ _ => rfl)
  case freezeAttribute handle =>
    exact supplied_bind fun i _ => supplied_some
      (after_apart h (fun _ => freezeAttribute_apart i) (fun _ => hrefl) fun _ _ => rfl)
  case addReference handle =>
    exact supplied_bind fun i _ => supplied_some
      (after_apart h (fun _ => addReference_apart i) (fun _ => hrefl) fun _ _ => rfl)
  case removeReference handle =>
    exact supplied_bind fun i _ => supplied_some
      (after_apart h (fun _ => removeReference_apart i) (fun _ => hrefl) fun _ _ => rfl)
  case forget handle => exact supplied_some (h.of_apart (.of_same rfl rfl rfl) rfl)
  case lookCell | look | inspect => exact supplied_bind fun _ _ => supplied_some h
  case same => exact supplied_bind fun _ _ => supplied_bind fun _ _ => supplied_some h
  all_goals exact supplied_none

/-! ### Records -/

/-- A collection that takes the place of another one, which is closed. -/
theorem openCollection_supplied (h : t.Stocked) (n cn : String) :
    Supplied (t.performRecord? (.openCollection n cn)) := by
  refine supplied_bind fun p _ => supplied_some ?_
  obtain ⟨r, s, hopen, -, hs⟩ := openCollection_stocked h p
  refine after_stocked (K := fun c => c.record ::ₘ t.inHand) (stocks_of_ok hopen hs) le_rfl
    fun c s hs => ?_
  set t₁ : Tracer := { t with store := s, collections := t.collections.insert cn c } with ht₁
  have hin : t₁.inHand + (t.collections.get? cn).elim 0 (fun c => {c.record}) =
      c.record ::ₘ t.inHand :=
    (inHand_insertCollection { t with store := s } cn c).trans
      ((add_comm ..).trans (Multiset.singleton_add ..))
  cases hold : t.collections.get? cn with
  | none =>
    rw [hold, Option.elim_none, add_zero] at hin
    exact after_leaves (t := t₁) (hin ▸ hs) (fun _ => Apart.refl) fun _ _ => rfl
  | some old =>
    rw [hold, Option.elim_some, add_comm, Multiset.singleton_add] at hin
    exact after_leaves (t := t₁) (close_stocked old (hin ▸ hs)) (fun _ => Apart.refl) fun _ _ => rfl

/-- A name that no longer stands for a record. -/
theorem inHand_eraseRecord_le (t : Tracer) (n : String) :
    ({ t with records := t.records.erase n } : Tracer).inHand ≤ t.inHand := by
  have h := inHand_exchange (n := 0) (inHand_records t (t.records.erase n))
    (by rw [Keyed.total_erase, add_zero])
  rw [add_zero] at h
  exact (Multiset.le_add_right _ _).trans h.le

/-- Commands on records hand out blank ones and take them back. -/
theorem performRecord_supplied (h : t.Stocked) (c : Command) :
    Supplied (t.performRecord? c) := by
  have hrefl : ∀ s : Store, Apart s s := Apart.refl
  cases c
  case openCollection n cn => exact openCollection_supplied h n cn
  case put cn d v =>
    exact supplied_bind fun co hco => supplied_some (after_leaves
      (setValue_stocked co (mem_inHand_of_collection hco) d v _ h) (fun _ => hrefl) fun _ _ => rfl)
  case putDeferred cn d n =>
    exact supplied_bind fun co hco => supplied_bind fun x _ => supplied_some (after_leaves
      (setDeferred_stocked co (mem_inHand_of_collection hco) d x _ h) (fun _ => hrefl)
      fun _ _ => rfl)
  case putAttribute cn handle =>
    exact supplied_bind fun co hco => supplied_bind fun i _ => supplied_some (after_leaves
      (install_stocked co (mem_inHand_of_collection hco) i _ h) (fun _ => hrefl) fun _ _ => rfl)
  case removeMany cn handles =>
    exact supplied_bind fun co hco => supplied_bind fun slots _ => supplied_some (after_leaves
      (removeMany_stocked co (mem_inHand_of_collection hco) slots _ h) (fun _ => hrefl)
      fun _ _ => rfl)
  case get cn k name handle =>
    -- a look at an attribute may give it a handle, and nothing more
    refine supplied_bind fun co _ => ?_
    cases ((t.store.record co.record).attributes k).get? name with
    | none => exact supplied_some h
    | some i =>
      cases handle with
      | none => exact supplied_some h
      | some handle => exact supplied_some (h.of_apart (.of_same rfl rfl rfl) rfl)
  case prioritize cn x =>
    exact supplied_bind fun co hco => supplied_some
      (Store.Stocked.modifyRecord h (mem_inHand_of_collection hco) fun _ => rfl)
  case freeze cn =>
    exact supplied_bind fun co _ => supplied_some
      (after_apart h (fun _ => freeze_apart co) (fun _ => hrefl) fun _ _ => rfl)
  case dropCollection cn =>
    -- the record leaves the hand with the name of its collection, and is closed in nobody's
    -- hand
    refine supplied_bind fun co hco => supplied_some (after_leaves
      (t := { t with collections := t.collections.erase cn }) (close_stocked co ?_)
      (fun _ => hrefl) fun _ _ => rfl)
    rw [← inHand_eraseCollection hco]
    exact h
  case intoRecord cn n =>
    refine supplied_bind fun co hco => supplied_some (after_stocked
      (t := { t with collections := t.collections.erase cn }) (intoRecord_stocks co ?_) le_rfl
      fun r s hs => Store.Stocked.mono hs (inHand_insertRecord_le _ n r))
    rw [← inHand_eraseCollection hco]
    exact h
  case lease n rn =>
    refine supplied_bind fun p _ => supplied_some ?_
    obtain ⟨r, s, hlease, -, hs⟩ := leaseRecord_stocked h p
    exact after_stocked (K := (· ::ₘ t.inHand)) (stocks_of_ok hlease hs) le_rfl
      fun r s hs => Store.Stocked.mono hs (inHand_insertRecord_le _ rn r)
  case insert n k name handle counted =>
    -- an entry past the collections writes the map of a record in hand
    refine supplied_bind fun r hr => supplied_bind fun i _ => supplied_some (after_leaves ?_
      (fun _ => hrefl) fun _ _ => rfl)
    have hwrite : ∀ m : Keyed SlotId, Action.Keeps (Store.Stocked · t.inHand)
        (modify fun s => s.modifyRecord r fun record => record.setAttributes m k) := fun m =>
      Action.keeps_modify fun s h =>
        h.modifyRecord (mem_inHand_of_record hr) fun _ => Record.marked_setAttributes ..
    cases counted with
    | false => exact hwrite _ _ h
    | true =>
      exact Action.keeps_bind (Store.Stocked.keeps fun _ => addReference_apart i)
        (fun _ => hwrite _) _ h
  case release n =>
    refine supplied_bind fun r hr => supplied_some (after_leaves
      (t := { t with records := t.records.erase n }) (releaseRecord_stocked ?_)
      (fun _ => hrefl) fun _ _ => rfl)
    rw [← inHand_eraseRecord hr]
    exact h
  case prioritizeRecord n x =>
    exact supplied_bind fun r hr => supplied_some
      (Store.Stocked.modifyRecord h (mem_inHand_of_record hr) fun _ => rfl)
  case dropRecord n =>
    exact supplied_bind fun _ _ =>
      supplied_some (Store.Stocked.mono h (inHand_eraseRecord_le t n))
  case lookCollection | inspectCollection | lookRecord | inspectRecord =>
    exact supplied_bind fun _ _ => supplied_some h
  all_goals exact supplied_none

/-! ### Deliveries -/

/-- Commands on exporters and batchers move records between hands, and release them. -/
theorem performDelivery_supplied (h : t.Stocked) (c : Command) :
    Supplied (t.performDelivery? c) := by
  have hrefl : ∀ s : Store, Apart s s := Apart.refl
  cases c
  case batch n names =>
    refine supplied_bind fun out hout => supplied_some ?_
    -- the records go from their names into the batch
    obtain ⟨hstore, -, -, -, hin⟩ := takeRecords_spec names t out.1 out.2 hout
    rw [Stocked, hin, ← hstore, add_comm] at h
    exact Store.Stocked.mono h (inHand_insertBatch_le out.2 n out.1)
  case batchAdd n name =>
    refine supplied_bind fun rs hrs => supplied_bind fun out hout => supplied_some ?_
    obtain ⟨hstore, hbatches, -, -, hin⟩ := takeRecords_spec [name] t out.1 out.2 hout
    have hreplaced := inHand_replaceBatch (hbatches ▸ hrs) (rs ++ out.1)
    rw [← Multiset.coe_add, ← add_assoc, add_right_comm] at hreplaced
    rw [Stocked, hin, ← hstore, add_comm, ← add_right_cancel hreplaced] at h
    exact h
  case sent n =>
    refine supplied_bind fun rs hrs => supplied_some (after_leaves
      (t := { t with batches := t.batches.insert n [] }) (releaseRecords_stocked rs _ ?_)
      (fun _ => hrefl) fun _ _ => rfl)
    rw [← inHand_emptyBatch hrs]
    exact h
  case discard n release =>
    refine supplied_bind fun rs hrs => supplied_some (after_leaves
      (t := { t with batches := t.batches.erase n }) (releaseRecords_stocked _ _ ?_)
      (fun _ => hrefl) fun _ _ => rfl)
    rw [Stocked, inHand_eraseBatch hrs] at h
    cases release with
    | true => exact h
    | false => exact Store.Stocked.mono h (add_le_add_left (Multiset.zero_le _) _)
  case send en n =>
    refine supplied_bind fun e _ => supplied_bind fun rs hrs => ?_
    have hin := inHand_emptyBatch hrs
    rw [Stocked, hin] at h
    have hsend := send_stocked h e
    rcases hx : e.send rs t.store with ⟨_ | _ | _, e', s'⟩ <;> rw [hx] at hsend
    · -- whatever came of it, the records are where the batch is
      exact supplied_some hsend
    · rw [← hin] at hsend
      exact supplied_some hsend
    · exact supplied_some hsend
  case flush q en =>
    refine supplied_bind fun b hb => supplied_bind fun e _ => ?_
    rw [Stocked, inHand_eraseBatcher hb] at h
    have hflush := flush_stocked h e
    rw [← inHand_keepBatcher hb] at hflush
    rcases hx : b.flush e t.store with ⟨_ | _ | _, b', e', s'⟩ <;> rw [hx] at hflush <;>
      exact supplied_some hflush
  case enqueueNumbered q n trace count =>
    refine supplied_bind fun b hb => supplied_bind fun p _ => supplied_some (after_stocked
      (numberedRecords_stocks h p trace count) le_rfl fun rs s hs => ?_)
    -- the new records wait in the batcher
    rw [Stocked, keepBatcher, showBatcher, inHand_addRecords (t := { t with store := s }) hb rs]
    exact hs
  case takeBatch q n =>
    refine supplied_bind fun b hb => ?_
    have hin := inHand_takeBatch hb t.store.now
    rw [Stocked, ← hin] at h
    rcases htake : b.takeBatch t.store.now with ⟨_ | rs, b'⟩ <;> rw [htake] at h
    · exact supplied_some (Store.Stocked.mono h (Multiset.le_add_right _ _))
    · exact supplied_some (Store.Stocked.mono h (inHand_insertBatch_le _ n rs))
  case batcher q limits =>
    exact supplied_some (Store.Stocked.mono h (inHand_startBatcher_le t q limits _))
  case enqueue q n =>
    refine supplied_bind fun b hb => supplied_bind fun r hr => supplied_some ?_
    rw [Stocked, inHand_eraseRecord hr] at h
    exact Store.Stocked.mono h
      (inHand_addRecords (t := { t with records := t.records.erase n }) hb [r]).le
  case count q success dropped error =>
    refine supplied_bind fun b hb => supplied_some (Store.Stocked.mono h ?_)
    rw [inHand_eraseBatcher hb]
    exact (inHand_keepBatcher hb _).le
  case exporter => exact supplied_some h
  case advance ms => exact supplied_some (h.of_apart (.of_same rfl rfl rfl) rfl)
  case lookBatch | lookExporter | lookBatcher =>
    exact supplied_bind fun _ _ => supplied_some h
  all_goals exact supplied_none

/-! ### All commands -/

/-- Whatever is commanded, the records are in hand or blank in a pool afterwards. -/
theorem answer_stocked (h : t.Stocked) (c : Command) : (t.answer c).2.Stocked := by
  cases ha : t.performAttribute? c with
  | some out =>
    rw [answer_attribute ha]
    exact performAttribute_supplied h c out ha
  | none =>
    cases hr : t.performRecord? c with
    | some out =>
      rw [answer_record ha hr]
      exact performRecord_supplied h c out hr
    | none =>
      cases hd : t.performDelivery? c with
      | some out =>
        rw [answer_delivery ha hr hd]
        exact performDelivery_supplied h c out hd
      | none =>
        rw [answer_unknown ha hr hd]
        exact h

/-- **Every command keeps the records in order,** and no pool turns one away. -/
theorem step_stocked (h : t.store.Housed t.inHand) (c : Command) : (t.step c).2.Stocked := by
  rw [step_eq_answer]
  exact answer_stocked (t := t.cleared)
    ⟨h.of_stock rfl fun _ => List.Sublist.refl _, fun _ => Array.not_mem_empty _⟩ c

/-- Whatever was commanded, records are in hand or blank in a pool after every run; no rules
have to be kept. -/
theorem run_stocked (cs : List Command) : ∀ t : Tracer, t.Stocked → (t.run cs).2.Stocked := by
  induction cs with
  | nil => exact fun _ h => h
  | cons c cs ih => exact fun t h => ih _ (step_stocked h.housed c)

/-- At the beginning there are no records. -/
theorem stocked_empty : ({} : Tracer).Stocked :=
  ⟨books_empty.housed, fun _ => Array.not_mem_empty _⟩

/-! ### Leased and taken back -/

/-- How records are lent and taken back, with the tracer as it is. -/
structure Recycles (t : Tracer) : Prop where
  /-- What a pool stores is blank, and nobody has it. -/
  stored : ∀ p, ∀ r ∈ (t.store.set p).records.stored,
    t.store.record r = { home := some p, marked := true } ∧ r ∉ t.inHand
  /-- A record can be leased from any pool; it is the oldest one there or a new one,
  and blank. -/
  leased : ∀ p, ∃ r s, leaseRecord p t.store = .ok r s ∧ s.record r = { home := some p } ∧
    r ∉ t.inHand ∧ ((t.store.set p).records.stored.head? = some r ∨
      (t.store.set p).records.stored = [] ∧ r = t.store.records.size)
  /-- A new collection gets a blank record likewise. -/
  opened : ∀ p, ∃ r s, openCollection p t.store = .ok ⟨p, r⟩ s ∧
    s.record r = { home := some p } ∧ r ∉ t.inHand
  /-- Whatever is done next, no record is turned away. -/
  welcome : ∀ c text, .recordRejected text ∉ (t.step c).2.store.log
  /-- Records that are released give up a reference for every entry, whether their
  pools are still there or not; only a slot without attribute on which there still
  are references can keep them from it. -/
  released : ∀ rs : List RecordId, ↑rs ≤ t.inHand →
    (∃ s, releaseRecords rs t.store = .ok () s ∧ Releases rs t.store s) ∨
      ∃ s, releaseRecords rs t.store = .error .doubleReset s ∧
        ∃ i, Jams (t.store.demand rs) t.store i
  /-- And where the rules were kept there is no such slot. -/
  ruled : ∀ L, Reachable t L → ∀ rs : List RecordId, ↑rs ≤ t.inHand →
    ∀ i, ¬ Jams (t.store.demand rs) t.store i

/-- **Every leased record is blank.**  After any commands at all, the pools store
blank records alone, and so a record that is leased is blank, whether it is a new
one or was released before; no record is turned away by its pool; and releasing
a record gives up all its references, even where its pool is gone. -/
theorem run_recycles (cs : List Command) : (({} : Tracer).run cs).2.Recycles := by
  set t := (({} : Tracer).run cs).2 with ht
  -- no rules are needed so far; only the last field speaks of runs that keep to them
  have hstocked : t.Stocked := run_stocked cs {} stocked_empty
  have hhoused : t.store.Housed t.inHand := hstocked.housed
  have htidy : t.store.Tidy := run_tidy cs {} tidy_empty
  refine ⟨fun p r hr => ?stored, fun p => ?leased, fun p => ?opened, fun c text => ?welcome,
    fun rs hrs => ?released, fun L hL rs hrs i hi => ?ruled⟩
  case stored =>
    obtain ⟨hblank, hmarked, hhome⟩ := hhoused.stored p r hr
    refine ⟨by rw [hblank.eq, hhome, hmarked], fun hin => ?_⟩
    rw [hhoused.unmarked r hin] at hmarked
    cases hmarked
  case leased =>
    obtain ⟨r, s, hrun, hlends, hs⟩ := hhoused.lease p
    exact ⟨r, s, hrun, hlends.record, (Multiset.nodup_cons.1 hs.once).1, hlends.source⟩
  case opened =>
    obtain ⟨r, s, hrun, hlends, hs⟩ := hhoused.lease p
    refine ⟨r, s.hold p, ?_, hlends.record, (Multiset.nodup_cons.1 hs.once).1⟩
    simp only [openCollection, Action.bind_apply, hrun, Action.modify_apply, Action.pure_apply]
  case welcome => exact (step_stocked hhoused c).welcome text
  case released =>
    obtain ⟨H, hH⟩ := Multiset.le_iff_exists_add.1 hrs
    rw [Stocked, hH] at hstocked
    exact releaseRecords_releases rs t.store hstocked htidy
  case ruled =>
    -- a slot that an entry holds is counted, and what is counted has an attribute
    have hcounted := hL.books.counted
    have hheld := hi.held
    rw [hcounted.references] at hheld
    exact hcounted.bound i (Multiset.count_pos.1 hheld) hi.free

end Tracer
end Telemetry
