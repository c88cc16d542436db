/-
# The clock and the log

Two stores that differ in the clock and the log alone are as good as equal for
every operation on attributes and records: it ends in the same way, and leaves
stores that again differ in these alone (`Blind`).  So releasing records does
not depend on what was waited for or reported in between, and a delivery that
waits, reports and releases by turns comes to the same as releasing all at once
(`Released.trans`).
-/

import Telemetry.Proofs.Records

namespace Telemetry

open Trace

namespace Store

/-- Nothing differs but the clock and the log. -/
def Quiet (s t : Store) : Prop := ∃ n l, t = { s with now := n, log := l }

variable {s s' s'' t : Store} {L : Ledger} {H : Multiset RecordId} {P : RecordId → Prop}
  {W : SlotId → Prop} {rs rs' : List RecordId}

namespace Quiet

/-- A store is the same to itself. -/
theorem refl (s : Store) : Quiet s s := ⟨s.now, s.log, rfl⟩

/-- Clock and log may differ twice. -/
theorem trans (h : Quiet s s') (h' : Quiet s' s'') : Quiet s s'' := by
  obtain ⟨n, l, rfl⟩ := h
  obtain ⟨n', l', rfl⟩ := h'
  exact ⟨n', l', rfl⟩

/-- A report differs in the log only. -/
theorem report (s : Store) (es : List Event) : Quiet s (s.report es) := ⟨s.now, s.log ++ es, rfl⟩

end Quiet

/-- The clock and the log do not show in the books. -/
theorem Books.moves_of_quiet (h : Books s L H) (hq : Quiet s s') : Moves P W s L H s' := by
  obtain ⟨n, l, rfl⟩ := hq
  exact h.moves_of_stock rfl rfl rfl rfl (fun _ => List.Sublist.refl _) fun _ => List.Sublist.refl _

/-- The references and the records in hand do not depend on clock and log. -/
theorem Balanced.of_quiet (h : Balanced s L H) (hq : Quiet s s') : Balanced s' L H := by
  obtain ⟨n, l, rfl⟩ := hq
  exact ⟨h.counted.of_stock rfl fun _ => List.Sublist.refl _,
    h.housed.of_stock rfl fun _ => List.Sublist.refl _⟩

/-! ### Operations that see neither clock nor log -/

section Blind

variable {α β : Type}

/-- Two runs that end in the same way, in stores that differ in the clock and
the log alone. -/
def Alike : EStateM.Result Fault Store α → EStateM.Result Fault Store α → Prop
  | .ok x s, .ok y t => x = y ∧ Quiet s t
  | .error e s, .error f t => e = f ∧ Quiet s t
  | _, _ => False

/-- An operation that runs alike whatever the clock and the log say. -/
def Blind (a : Action α) : Prop := ∀ s t, Quiet s t → Alike (a s) (a t)

/-- A pure result does not see the clock. -/
theorem blind_pure (x : α) : Blind (pure x : Action α) := fun _ _ h => ⟨rfl, h⟩

/-- A fault does not see the clock. -/
theorem blind_throw (e : Fault) : Blind (throw e : Action α) := fun _ _ h => ⟨rfl, h⟩

/-- Actions in sequence see it no more than each of them. -/
theorem blind_bind {a : Action α} {f : α → Action β} (ha : Blind a) (hf : ∀ x, Blind (f x)) :
    Blind (a >>= f) := by
  intro s t h
  have hst := ha s t h
  rw [Action.bind_apply, Action.bind_apply]
  cases hs : a s <;> cases ht : a t <;> rw [hs, ht] at hst
  · obtain ⟨rfl, hst⟩ := hst
    exact hf _ _ _ hst
  · exact hst.elim
  · exact hst.elim
  · exact hst

/-- A change of the store that does not look at clock and log. -/
theorem blind_modify {f : Store → Store} (hf : ∀ s t, Quiet s t → Quiet (f s) (f t)) :
    Blind (modify f : Action Unit) := fun s t h => ⟨rfl, hf s t h⟩

/-- What is read must be neither the clock nor the log. -/
theorem blind_get {f : Store → Action β}
    (hf : ∀ s n l, f { s with now := n, log := l } = f s) (hb : ∀ s, Blind (f s)) :
    Blind (get >>= f) := by
  rintro s t ⟨n, l, rfl⟩
  rw [Action.bind_apply, Action.bind_apply, Action.get_apply, Action.get_apply]
  dsimp only
  rw [hf s n l]
  exact hb s _ _ ⟨n, l, rfl⟩

/-- Dropping a result. -/
theorem blind_discard {a : Action α} (ha : Blind a) : Blind (discard a : Action PUnit) := by
  intro s t h
  have hst := ha s t h
  rw [Action.discard_apply, Action.discard_apply]
  cases hs : a s <;> cases ht : a t <;> rw [hs, ht] at hst
  · exact ⟨rfl, hst.2⟩
  · exact hst.elim
  · exact hst.elim
  · exact hst

/-- Actions on the items of a list, in order. -/
theorem blind_forM {f : α → Action Unit} (hf : ∀ x, Blind (f x)) (xs : List α) :
    Blind (xs.forM f) := by
  induction xs with
  | nil => exact blind_pure ()
  | cons x xs ih => exact blind_bind (hf x) fun _ => ih

end Blind

/-- Putting a slot back does not look at clock and log, though it reports. -/
theorem putSlot_blind (p : SetId) (i : SlotId) : Blind (putSlot p i) := by
  refine blind_modify ?_
  rintro s t ⟨n, l, rfl⟩
  have hset : (({ s with now := n, log := l } : Store).set p).slots.put
      (({ s with now := n, log := l } : Store).slot i).marked i =
      (s.set p).slots.put (s.slot i).marked i := rfl
  dsimp only
  rw [hset]
  rcases (s.set p).slots.put (s.slot i).marked i with ⟨_ | _ | m, q⟩
  · exact ⟨n, l, rfl⟩
  · exact ⟨n, _, rfl⟩
  · exact ⟨n, _, rfl⟩

/-- Releasing an attribute does not look at clock and log. -/
theorem releaseSlot_blind (i : SlotId) : Blind (releaseSlot i) := by
  refine blind_get (fun _ _ _ => rfl) fun s => ?_
  dsimp only
  cases (s.slot i).definition with
  | none => exact blind_throw _
  | some d =>
    dsimp only
    cases d.cached with
    | true => exact blind_pure ()
    | false =>
      refine blind_bind (blind_modify ?_) fun _ => ?_
      · rintro s t ⟨n, l, rfl⟩
        exact ⟨n, l, rfl⟩
      · cases (s.slot i).home with
        | none => exact blind_pure ()
        | some p =>
          refine blind_get (fun _ _ _ => rfl) fun s => ?_
          cases s.isAlive p with
          | true => exact putSlot_blind p i
          | false => exact blind_pure ()

/-- Giving up a reference does not look at clock and log. -/
theorem removeReference_blind (i : SlotId) : Blind (removeReference i) := by
  refine blind_get (fun _ _ _ => rfl) fun s => ?_
  dsimp only
  split_ifs
  · exact blind_pure false
  · refine blind_bind (blind_modify ?_) fun _ => blind_bind (releaseSlot_blind i) fun _ =>
      blind_pure true
    rintro s t ⟨n, l, rfl⟩
    exact ⟨n, l, rfl⟩
  · refine blind_bind (blind_modify ?_) fun _ => blind_pure false
    rintro s t ⟨n, l, rfl⟩
    exact ⟨n, l, rfl⟩

/-- Clearing a category does not look at clock and log. -/
theorem clearCategory_blind (r : RecordId) (k : Category) : Blind (clearCategory r k) := by
  refine blind_get (fun _ _ _ => rfl) fun s => blind_bind (blind_modify ?_) fun _ =>
    blind_forM (fun i => blind_discard (removeReference_blind i)) _
  rintro s t ⟨n, l, rfl⟩
  exact ⟨n, l, rfl⟩

/-- Putting a record back does not look at clock and log. -/
theorem putRecord_blind (p : SetId) (r : RecordId) : Blind (putRecord p r) := by
  refine blind_modify ?_
  rintro s t ⟨n, l, rfl⟩
  have hset : (({ s with now := n, log := l } : Store).set p).records.put
      (({ s with now := n, log := l } : Store).record r).marked r =
      (s.set p).records.put (s.record r).marked r := rfl
  dsimp only
  rw [hset]
  rcases (s.set p).records.put (s.record r).marked r with ⟨_ | _ | m, q⟩
  · exact ⟨n, l, rfl⟩
  · exact ⟨n, _, rfl⟩
  · exact ⟨n, _, rfl⟩

/-- **A release sees neither clock nor log.** -/
theorem releaseRecord_blind (r : RecordId) : Blind (releaseRecord r) := by
  refine blind_bind (blind_forM (clearCategory_blind r) _) fun _ =>
    blind_bind (blind_modify ?_) fun _ => blind_get (fun _ _ _ => rfl) fun s => ?_
  · rintro s t ⟨n, l, rfl⟩
    exact ⟨n, l, rfl⟩
  · cases (s.record r).home with
    | none => exact blind_pure ()
    | some p =>
      refine blind_get (fun _ _ _ => rfl) fun s => ?_
      cases s.isAlive p with
      | true => exact putRecord_blind p r
      | false => exact blind_pure ()

/-- Releasing records does not look at clock and log. -/
theorem releaseRecords_blind (rs : List RecordId) : Blind (releaseRecords rs) :=
  blind_forM releaseRecord_blind rs

/-! ### Releases spread over time -/

/-- The store after the release of some records, but for the clock and the
log. -/
def Released (rs : List RecordId) (s s' : Store) : Prop :=
  ∃ t, releaseRecords rs s = .ok () t ∧ Quiet t s'

/-- No records to release. -/
theorem released_nil (h : Quiet s s') : Released [] s s' := ⟨s, rfl, h⟩

/-- A release that ended, with nothing after it. -/
theorem released_of_ok (h : releaseRecords rs s = .ok () s') : Released rs s s' :=
  ⟨s', h, Quiet.refl s'⟩

/-- Releasing records in two parts. -/
theorem releaseRecords_append (rs rs' : List RecordId) (s : Store) :
    releaseRecords (rs ++ rs') s = match releaseRecords rs s with
      | .ok _ s => releaseRecords rs' s
      | .error e s => .error e s := by
  induction rs generalizing s with
  | nil => rfl
  | cons r rs ih =>
    have hstep : ∀ l, releaseRecords (r :: l) s = match releaseRecord r s with
        | .ok _ s => releaseRecords l s
        | .error e s => .error e s := fun l => Action.forM_cons ..
    rw [List.cons_append, hstep, hstep]
    cases releaseRecord r s with
    | ok u s => exact ih s
    | error e s => rfl

/-- **Releases one after the other, whatever is waited for in between, are one
release.** -/
theorem Released.trans (h : Released rs s s') (h' : Released rs' s' s'') :
    Released (rs ++ rs') s s'' := by
  obtain ⟨t, ht, hq⟩ := h
  obtain ⟨t', ht', hq'⟩ := h'
  have halike := releaseRecords_blind rs' t s' hq
  rw [ht'] at halike
  cases hr : releaseRecords rs' t with
  | ok u t₂ =>
    rw [hr] at halike
    refine ⟨t₂, ?_, halike.2.trans hq'⟩
    rw [releaseRecords_append, ht]
    exact hr
  | error e t₂ =>
    rw [hr] at halike
    exact halike.elim

end Store
end Telemetry
