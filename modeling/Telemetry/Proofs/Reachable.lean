/-
# Reference counts are exact

The states that a tracer can reach while the references that are held directly
keep to the rules: one is taken only on an attribute that is bound, and one is
given up only while it is outstanding (`Tracer.Reachable`).  Handles may be
stale, attributes may be shared between collections and frozen at any time,
records may be released, lost or sent in any order.

In every such state the references on a slot are the entries of records that
hold it and the direct references, and what a pool hands out again belongs to
nobody (`Reachable.exact`).
-/

import Telemetry.Proofs.Dispatch

namespace Telemetry

open Trace Store

namespace Store

/-- How many entries of records hold a slot. -/
def entriesOf (s : Store) (i : SlotId) : Nat :=
  ∑ r ∈ Finset.range s.records.size,
    (Category.all.map fun k => ((s.record r).attributes k).values.count i).sum

/-- What the references and the pools of a store have to be. -/
structure Exact (s : Store) (L : Ledger) : Prop where
  /-- A slot has one reference for each entry that holds it and for each
  reference that is held directly. -/
  references : ∀ i, (s.slot i).references = s.entriesOf i + L.count i
  /-- An entry holds an attribute of its own category and name. -/
  labelled : ∀ r k n i, ((s.record r).attributes k).get? n = some i →
    ∃ d, (s.slot i).definition = some d ∧ d.name = n ∧ d.category = k
  /-- A direct reference is on an attribute that is there. -/
  direct : ∀ i ∈ L, (s.slot i).definition ≠ none
  /-- What a pool stores is free and marked, no other pool stores it, and
  nobody refers to it. -/
  pooled : ∀ p, ∀ i ∈ (s.set p).slots.stored,
    (s.slot i).definition = none ∧ (s.slot i).references = 0 ∧ (s.slot i).marked = true ∧
      (∀ q, q ≠ p → i ∉ (s.set q).slots.stored) ∧
      ∀ r k n, ((s.record r).attributes k).get? n ≠ some i
  once : ∀ p, (s.set p).slots.stored.Nodup
  /-- A new attribute has nothing of what its slot was used for before, and
  nobody refers to it. -/
  fresh : ∀ p d, ∃ i s', createAttribute p d s = .ok i s' ∧
    s'.slot i = { definition := some d, home := some p } ∧ s.entriesOf i = 0 ∧ i ∉ L
  /-- A released record in a pool has nothing of a span. -/
  released : ∀ p, ∀ r ∈ (s.set p).records.stored, (s.record r).Blank

variable {s : Store} {L : Ledger} {H : Multiset RecordId}

/-- A slot is held as often as entries hold it. -/
theorem count_holdings (s : Store) (i : SlotId) : s.holdings.count i = s.entriesOf i := by
  simp only [holdings, entriesOf, Multiset.count_sum']
  refine Finset.sum_congr rfl fun r _ => ?_
  simp only [Record.held, Keyed.total_singleton, Multiset.count_add, Multiset.coe_count]
  exact Nat.add_assoc ..

/-- **Books that stand are exact.** -/
theorem Books.to_exact (h : Books s L H) : s.Exact L := by
  have hdemand : ∀ i, (s.holdings + L).count i = s.entriesOf i + L.count i := fun i => by
    rw [Multiset.count_add, count_holdings]
  refine ⟨fun i => (h.counted.references i).trans (hdemand i), h.labelled,
    fun i hi => h.counted.bound i (Multiset.mem_add.2 (Or.inr hi)), fun p i hi => ?_,
    h.counted.once, fun p d => ?_, fun p r hr => (h.housed.stored p r hr).1⟩
  · obtain ⟨hfree, hmarked, hhome⟩ := h.counted.stored p i hi
    have hi' : i ∉ s.holdings + L := h.counted.not_mem hfree
    refine ⟨hfree, ?_, hmarked, fun q hq hiq => ?_, fun r k n hn => ?_⟩
    · rw [h.counted.references]
      exact Multiset.count_eq_zero.2 hi'
    · rw [(h.counted.stored q i hiq).2.2, Option.some.injEq] at hhome
      exact hq hhome
    · exact hi' (Multiset.mem_add.2 (Or.inl (mem_holdings.2 ⟨r, k, n, hn⟩)))
  · obtain ⟨i, s', hrun, -, -, hslot, hfresh⟩ :=
      h.createAttribute_moves (P := fun _ => True) (W := fun _ => True) p d
    refine ⟨i, s', hrun, hslot, ?_, fun hi => hfresh (Multiset.mem_add.2 (Or.inr hi))⟩
    rw [← count_holdings]
    exact Multiset.count_eq_zero.2 fun hi => hfresh (Multiset.mem_add.2 (Or.inl hi))

/-- A store without anything. -/
theorem books_empty : Books {} 0 0 := by
  refine ⟨⟨fun i => rfl, fun i hi => ?_, fun i hi => absurd rfl hi, fun p i hi => ?_,
    fun p => List.nodup_nil⟩, fun r k n i hi => ?_, ⟨Multiset.nodup_zero, fun r hr => ?_,
    fun r hr => ?_, fun p r hr => ?_, fun p => List.nodup_nil⟩, fun c => Or.inl rfl⟩
  · exact absurd hi (Multiset.notMem_zero i)
  · exact absurd hi List.not_mem_nil
  · cases k <;> cases hi
  · exact absurd hr (Multiset.notMem_zero r)
  · exact absurd hr (Multiset.notMem_zero r)
  · exact absurd hr List.not_mem_nil

end Store

namespace Tracer

/-- The states that commands can reach, with the references that are held
directly then. -/
inductive Reachable : Tracer → Ledger → Prop
  | start : Reachable {} 0
  | step {t : Tracer} {L L' : Ledger} {c : Command} :
    Reachable t L → t.ledgerAfter L c = some L' → Reachable (t.step c).2 L'

/-- The state after some commands; `none` if one of them breaks the rules. -/
def follow (t : Tracer) (L : Ledger) : List Command → Option (Tracer × Ledger)
  | [] => some (t, L)
  | c :: cs => (t.ledgerAfter L c).bind fun L => (t.step c).2.follow L cs

variable {t t' : Tracer} {L L' : Ledger} {c : Command}

namespace Reachable

/-- **The books stand in every state that can be reached.** -/
theorem books (h : Reachable t L) : Books t.store L t.inHand := by
  induction h with
  | start => exact books_empty
  | step _ hL ih => exact (step_outcome ih (named_any _) (fun _ _ => trivial) hL).books

/-- The books stand when the log is emptied. -/
theorem books_cleared (h : Reachable t L) : Books t.cleared.store L t.cleared.inHand :=
  (h.books.moves_of_quiet (P := fun _ => True) (W := fun _ => True) t.cleared_quiet).books

/-- Commands that keep to the rules lead from a state that is reached to another one. -/
theorem follow (h : Reachable t L) (cs : List Command) (hcs : t.follow L cs = some (t', L')) :
    Reachable t' L' := by
  induction cs generalizing t L with
  | nil =>
    cases hcs
    exact h
  | cons c cs ih =>
    obtain ⟨L₁, hL, hcs⟩ := Option.bind_eq_some_iff.1 hcs
    exact ih (h.step hL) hcs

/-- **Reference counts are exact, and recycling is safe.**  This holds after any
run that keeps to the rules; and no command that keeps to them is broken off by
an attribute that is released twice or by a pool that stores what is not its
own. -/
theorem exact (h : Reachable t L) :
    t.store.Exact L ∧ ∀ c L', t.ledgerAfter L c = some L' →
      ∀ f, (t.step c).1 = .fault f → f ≠ .doubleReset ∧ f ≠ .unmarked := by
  refine ⟨h.books.to_exact, fun c L' hL f hf => ?_⟩
  have hsound := (step_outcome h.books (named_any _) (fun _ _ => trivial) hL).sound
  rw [hf] at hsound
  obtain rfl := Reply.circular_of_sound hsound
  exact ⟨by decide, by decide⟩

/-- An attribute that two collections share and that is held directly besides;
one of the collections is closed with its record, and the record released. -/
def sharing : List Command :=
  [.setUp "p" .small .small, .create "p" "h" Definition.guid, .openCollection "p" "a",
    .openCollection "p" "b", .putAttribute "a" "h", .putAttribute "b" "h", .addReference "h",
    .intoRecord "a" "r", .release "r"]

/-- The other collection and the direct holder keep the attribute alive. -/
theorem exact_sharing : ∃ t L, ({} : Tracer).follow 0 sharing = some (t, L) ∧
    (t.store.slot 0).references = 2 ∧ t.store.entriesOf 0 = 1 ∧
    (t.store.Exact L ∧ ∀ c L', t.ledgerAfter L c = some L' →
      ∀ f, (t.step c).1 = .fault f → f ≠ .doubleReset ∧ f ≠ .unmarked) :=
  ⟨_, _, rfl, rfl, rfl, exact (start.follow sharing rfl)⟩

end Reachable
end Tracer
end Telemetry
