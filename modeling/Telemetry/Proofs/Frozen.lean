/-
# A frozen record stays as it is

When a collection is closed with its record, every attribute of the record is
frozen.  The attributes may be shared with other collections and named by
handles, and deferred values may work on them, but a frozen attribute cannot be
written, and as long as the record holds it its slot is not used for anything
else.  So the record shows the same, up to its release, whatever is done to
everything else (`intoRecord_lasting`).
-/

import Telemetry.Proofs.Reachable
import Telemetry.Proofs.Written

namespace Telemetry

open Trace Store

namespace Store

variable {s s' : Store} {r : RecordId} {P : RecordId → Prop} {W : SlotId → Prop}

/-- All attributes of the record are frozen. -/
def Frozen (s : Store) (r : RecordId) : Prop :=
  ∀ i ∈ (s.record r).held, (s.slot i).immutable = true

/-- Frozen attributes of a record that is left alone cannot be written. -/
theorem Frozen.bare (h : s.Frozen r) (hs : Spares P W s s') (hr : P r) {i : SlotId}
    (hi : i ∈ (s.record r).held) : (s'.slot i).bare = (s.slot i).bare :=
  (hs.kept r hr i hi).bare (Or.inl (h i hi))

/-- A frozen record that is left alone stays frozen. -/
theorem Frozen.spared (h : s.Frozen r) (hs : Spares P W s s') (hr : P r) : s'.Frozen r := by
  intro i hi
  rw [hs.record r hr] at hi
  rw [Slot.immutable_of_bare (h.bare hs hr hi)]
  exact h i hi

/-- A frozen record that is left alone looks the same as JSON. -/
theorem Frozen.recordJson (h : s.Frozen r) (hs : Spares P W s s') (hr : P r) :
    s'.recordJson r = s.recordJson r :=
  recordJson_congr (hs.record r hr) fun _ hi => Slot.value_of_bare (h.bare hs hr hi)

end Store

namespace Tracer

variable {t t' : Tracer} {L L' : Ledger} {H : Multiset RecordId} {r : RecordId} {c : Command}
  {cn n : String}

/-- The records that are in somebody's hands but in no collection: those that
have names, and those that wait in batches and batchers. -/
def outstanding (t : Tracer) : Multiset RecordId :=
  t.records.total ({·}) + t.batches.total Multiset.ofList +
    t.batchers.total (Multiset.ofList ·.waiting)

/-- Records are in hand in collections or outside of them. -/
theorem inHand_eq (t : Tracer) :
    t.inHand = t.collections.total (fun c => {c.record}) + t.outstanding := by
  simp only [inHand, outstanding, add_assoc]

/-- Those outside are in hand. -/
theorem mem_inHand_of_outstanding (hr : r ∈ t.outstanding) : r ∈ t.inHand := by
  rw [inHand_eq]
  exact Multiset.mem_add.2 (Or.inr hr)

/-- A record with a name is outside. -/
theorem mem_outstanding_of_record (hr : t.records.get? n = some r) : r ∈ t.outstanding := by
  have hle := Keyed.le_total (f := fun r => ({r} : Multiset RecordId)) hr
  exact Multiset.mem_add.2 (Or.inl (Multiset.mem_add.2 (Or.inl
    (Multiset.mem_of_le hle (Multiset.mem_singleton_self r)))))

/-- The record of a collection is nowhere else. -/
theorem record_ne_of_outstanding (h : t.inHand.Nodup) (hr : r ∈ t.outstanding) {c : Collection}
    (hc : t.collections.get? cn = some c) : c.record ≠ r := by
  rintro rfl
  rw [inHand_eq] at h
  have hle := Keyed.le_total (f := fun c : Collection => ({c.record} : Multiset RecordId)) hc
  exact Multiset.disjoint_left.1 (Multiset.nodup_add.1 h).2.2
    (Multiset.mem_of_le hle (Multiset.mem_singleton_self _)) hr

/-- The commands that write a record itself. -/
def Rewrites (t : Tracer) (r : RecordId) : Command → Prop
  | .prioritizeRecord n _ => t.records.get? n = some r
  | _ => False

/-- A command writes a record that is outside only if it names this record. -/
theorem target?_ne (h : t.inHand.Nodup) (hr : r ∈ t.outstanding) (hc : ¬ t.Rewrites r c) :
    t.target? c ≠ some r := by
  have hcollection : ∀ cn, (t.collections.get? cn).map Collection.record ≠ some r := by
    intro cn hcn
    obtain ⟨c, hc, hcr⟩ := Option.map_eq_some_iff.1 hcn
    exact record_ne_of_outstanding h hr hc hcr
  cases c
  case put cn _ _ => exact hcollection cn
  case putDeferred cn _ _ => exact hcollection cn
  case putAttribute cn _ => exact hcollection cn
  case removeMany cn _ => exact hcollection cn
  case prioritize cn _ => exact hcollection cn
  case prioritizeRecord n _ => exact hc
  all_goals exact (Option.some_ne_none _).symm

/-- Runs that keep to the rules, in which a record stays outstanding and is not
written itself. -/
inductive Undisturbed (r : RecordId) (t : Tracer) (L : Ledger) : Tracer → Ledger → Prop
  | refl : Undisturbed r t L t L
  | step {t' : Tracer} {L' L'' : Ledger} {c : Command} : Undisturbed r t L t' L' →
    t'.ledgerAfter L' c = some L'' → ¬ t'.Rewrites r c → r ∈ (t'.step c).2.outstanding →
    Undisturbed r t L (t'.step c).2 L''

namespace Undisturbed

variable {c : List Command}

/-- The end of an undisturbed run is reached by the rules. -/
theorem reachable (h : Undisturbed r t L t' L') (ht : Reachable t L) : Reachable t' L' := by
  induction h with
  | refl => exact ht
  | step _ hL _ _ ih => exact ih.step hL

/-- In an undisturbed run the record stays outside of collections. -/
theorem outstanding (h : Undisturbed r t L t' L') (hr : r ∈ t.outstanding) :
    r ∈ t'.outstanding := by
  cases h with
  | refl => exact hr
  | step _ _ _ hr' => exact hr'

/-- **A step leaves a record alone** that is outstanding before and after. -/
theorem spares_step {c : Command} (ht : Reachable t L) (hL : t.ledgerAfter L c = some L')
    (hc : ¬ t.Rewrites r c) (hr : r ∈ t.outstanding) (hr' : r ∈ (t.step c).2.outstanding) :
    Spares (· = r) (fun _ => True) t.store (t.step c).2.store := by
  refine (step_outcome ht.books (named_any _) (fun _ _ => trivial) hL).spares.mono ?_
    fun _ _ _ _ hi => hi
  rintro q rfl
  exact ⟨mem_inHand_of_outstanding hr, mem_inHand_of_outstanding hr',
    target?_ne ht.books.housed.once hr hc⟩

/-- **A frozen record is left alone by a whole run.**  The record stays frozen,
which carries the induction. -/
theorem lasting (h : Undisturbed r t L t' L') (ht : Reachable t L) (hr : r ∈ t.outstanding)
    (hf : t.store.Frozen r) :
    t'.store.Frozen r ∧ t'.store.record r = t.store.record r ∧
      t'.store.recordJson r = t.store.recordJson r := by
  induction h with
  | refl => exact ⟨hf, rfl, rfl⟩
  | step hrun hL hc hr' ih =>
    obtain ⟨hf, hrecord, hjson⟩ := ih
    have hs := spares_step (hrun.reachable ht) hL hc (hrun.outstanding hr) hr'
    exact ⟨hf.spared hs rfl, (hs.record r rfl).trans hrecord, (hf.recordJson hs rfl).trans hjson⟩

end Undisturbed

/-- A record that a collection is closed with is frozen. -/
theorem intoRecord_frozen (h : Books t.store L t.inHand)
    (hL : t.entry L (.intoRecord cn n) = some L') {name : String}
    (hc : t.answer (.intoRecord cn n) = (.text name, t')) :
    ∃ r, t'.records.get? n = some r ∧ (t'.store.record r).displayName = name ∧
      t'.store.Frozen r := by
  cases hcn : t.collections.get? cn with
  | none =>
    rw [answer_unknown rfl (fails hcn) rfl] at hc
    cases hc
  | some c =>
    simp only [entry, hcn, Option.elim_some] at hL
    rw [inHand_eraseCollection hcn] at h
    set t₁ : Tracer := { t with collections := t.collections.erase cn }
    have hanswer : t.answer (.intoRecord cn n) = t₁.after c.intoRecord fun r t =>
        (.text (t.store.record r).displayName, { t with records := t.records.insert n r }) :=
      answer_record rfl (performs hcn rfl)
    rw [hanswer] at hc
    -- the collection becomes a record only if no freeze is broken off
    rcases h.intoRecord_moves (P := fun _ => True) hL (named_any _) with
      ⟨s₁, -, hrun, hfreezes, -⟩ | ⟨s', hrun, -⟩
    · rw [after_ok (t := t₁) hrun] at hc
      cases hc
      refine ⟨c.record, ?_, rfl, fun i hi => hfreezes.frozen i (mem_listed_all.2 ?_)⟩
      · exact (Keyed.get?_insert ..).trans (if_pos rfl)
      · rw [← hfreezes.only.record]
        exact hi
    · rw [after_error (t := t₁) hrun] at hc
      cases hc

/-- **A frozen record never changes until it is released.**  From the moment a
collection is closed with its record, its JSON, its identity, the number of its
attributes and its display name stay as they are, whatever is done to other
collections, records, attributes, deferred values, pools and batchers. -/
theorem intoRecord_lasting (h : Reachable t L) {L₁ : Ledger} {t₁ : Tracer} {name : String}
    (hL : t.ledgerAfter L (.intoRecord cn n) = some L₁)
    (hc : t.step (.intoRecord cn n) = (.text name, t₁)) :
    ∃ r, t₁.records.get? n = some r ∧ (t₁.store.record r).displayName = name ∧
      ∀ t₂ L₂, Undisturbed r t₁ L₁ t₂ L₂ →
        t₂.store.recordJson r = t₁.store.recordJson r ∧
        (t₂.store.record r).traceId = (t₁.store.record r).traceId ∧
        (t₂.store.record r).spanId = (t₁.store.record r).spanId ∧
        (t₂.store.record r).attributeCount = (t₁.store.record r).attributeCount ∧
        (t₂.store.record r).displayName = name := by
  obtain ⟨r, hr, hname, hfrozen⟩ := intoRecord_frozen h.books_cleared hL hc
  have ht₁ : Reachable t₁ L₁ := by
    have hstep := h.step hL
    rwa [hc] at hstep
  refine ⟨r, hr, hname, fun t₂ L₂ hrun => ?_⟩
  obtain ⟨-, hrecord, hjson⟩ := hrun.lasting ht₁ (mem_outstanding_of_record hr) hfrozen
  rw [hrecord]
  exact ⟨hjson, rfl, rfl, rfl, hname⟩

/-- A collection whose one attribute goes by a handle. -/
def handled : List Command :=
  [.setUp "p" .small .small, .create "p" "h" Definition.guid, .setValue "h" (some (.text "a1")),
    .openCollection "p" "a", .putAttribute "a" "h"]

/-- The record of that collection, while its attribute is written through the
handle. -/
theorem intoRecord_lasting_handled : ∃ t t₁ name,
    ({} : Tracer).follow 0 handled = some (t, 0) ∧
    t.step (.intoRecord "a" "r") = (.text name, t₁) ∧
    Undisturbed 0 t₁ 0 (t₁.step (.setValue "h" (some (.text "b2")))).2 0 ∧
    ∃ r, t₁.records.get? "r" = some r ∧ (t₁.store.record r).displayName = name ∧
      ∀ t₂ L₂, Undisturbed r t₁ 0 t₂ L₂ →
        t₂.store.recordJson r = t₁.store.recordJson r ∧
        (t₂.store.record r).traceId = (t₁.store.record r).traceId ∧
        (t₂.store.record r).spanId = (t₁.store.record r).spanId ∧
        (t₂.store.record r).attributeCount = (t₁.store.record r).attributeCount ∧
        (t₂.store.record r).displayName = name := by
  refine ⟨_, _, _, rfl, rfl, ?_, intoRecord_lasting (Reachable.start.follow handled rfl)
    (show ledgerAfter _ _ (.intoRecord "a" "r") = _ from rfl) rfl⟩
  exact Undisturbed.refl.step rfl id (by decide)

end Tracer
end Telemetry
