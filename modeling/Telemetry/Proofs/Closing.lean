/-
# Opening and closing collections

A collection that is closed with its record freezes what the record holds, and
computes deferred values on the way.  What comes of it is `Freezes`: each of
the attributes is frozen, with the value it had or else the one that its
deferred value yields, and all others last.  Computing may be broken off by a
value that needs itself; then the record is released (`intoRecord_moves`).
-/

import Telemetry.Proofs.Collections

namespace Telemetry

open Trace

/-- Freezing attributes one after the other. -/
def Ledger.frozenEach (l : List SlotId) : Entry := inTurn frozen freezeAttribute l

/-- Freezes the attributes of a record in a category. -/
def Trace.freezeCategory (r : RecordId) (k : Category) : Action Unit := do
  (((← get).record r).attributes k).values.forM freezeAttribute

/-- Freezing all that a record holds. -/
def Ledger.closed (r : RecordId) : Entry :=
  inTurn (fun k L s => frozenEach ((s.record r).attributes k).values L s) (freezeCategory r)
    Category.all

namespace Store

variable {s s' s'' : Store} {L L' : Ledger} {H : Multiset RecordId} {P : RecordId → Prop}
  {W T : SlotId → Prop} {K : Multiset SlotId} {c : Collection} {i : SlotId} {r : RecordId}
  {p : SetId} {l l' : List SlotId}

/-! ### The results of deferred values -/

/-- A computation that ends gives what the cell yields. -/
theorem forceWithin_yields {n : Nat} {c : CellId} {v : Option Value} (hrest : AtRest s)
    (h : forceWithin n c s = .ok v s') : v = (s'.cell c).yields := by
  cases n with
  | zero => cases h
  | succ n =>
    -- only a pending value is computed; one that is running is refused, and one that is
    -- finished is at rest
    cases hp : (s.cell c).progress with
    | finished w =>
      have hrun : forceWithin (n + 1) c s = .ok w s := by simp [forceWithin, hp]
      rw [hrun] at h
      cases h
      have hw := hrest c
      rw [hp] at hw
      rcases hw with hw | hw <;> cases hw
      rfl
    | running =>
      have hrun : forceWithin (n + 1) c s = .error .circular s := by simp [forceWithin, hp]
      rw [hrun] at h
      cases h
    | pending =>
      rw [forceWithin_pending hp] at h
      cases hd : ((s.cell c).effects.forM (performWith (forceWithin n)))
          (s.modifyCell c Cell.begin) with
      | ok u s₂ =>
        rw [hd] at h
        cases h
        rw [cell_modifyCell]
        split_ifs <;> rfl
      | error e s₂ =>
        rw [hd] at h
        cases h

/-- A deferred value that is computed is what its cell yields. -/
theorem force_yields {c : CellId} {v : Option Value} (hrest : AtRest s)
    (h : Trace.force c s = .ok v s') : v = (s'.cell c).yields := by
  refine forceWithin_yields (n := s.cells.size + 1) hrest ?_
  rw [← h]
  simp [Trace.force]

/-! ### Freezing -/

/-- An attribute as it is when it is frozen now. -/
def settled (s : Store) (i : SlotId) : Slot :=
  (s.slot i).freeze ((s.slot i).deferred.bind fun c => (s.cell c).yields)

/-- Freezing does not look at the bookkeeping of a slot. -/
theorem bare_freeze {a b : Slot} (h : a.bare = b.bare) (v : Option Value) :
    (a.freeze v).bare = (b.freeze v).bare := by
  obtain ⟨d, value, deferred, immutable, n, home, marked⟩ := a
  obtain ⟨d', value', deferred', immutable', n', home', marked'⟩ := b
  simp only [Slot.bare, Slot.mk.injEq, and_true] at h
  obtain ⟨rfl, rfl, rfl, rfl⟩ := h
  simp only [Slot.freeze, Slot.bare]
  split_ifs <;> rfl

/-- Freezing again changes nothing. -/
theorem settled_of_immutable (h : (s.slot i).immutable = true) : s.settled i = s.slot i := by
  rw [settled, Slot.freeze, if_pos h]

/-- What an attribute would be if it were frozen is the same after other values were
computed. -/
theorem bare_settled_congr (ho : OnlyComputed s s') (h : (s'.slot i).bare = (s.slot i).bare) :
    (s'.settled i).bare = (s.settled i).bare := by
  have hyields : (fun c => (s'.cell c).yields) = fun c => (s.cell c).yields :=
    funext fun c => (ho.cells c).yields
  rw [settled, settled, Slot.deferred_of_bare h, hyields]
  exact bare_freeze h _

/-- The attributes in `l` are frozen, each as it has to be unless a computation
may write it; those in `K` besides last. -/
structure Freezes (K : Multiset SlotId) (T : SlotId → Prop) (l : List SlotId) (s s' : Store) :
    Prop where
  only : OnlyComputed s s'
  frozen : ∀ i ∈ l, (s'.slot i).immutable = true
  settled : ∀ i ∈ l, ¬ T i → (s'.slot i).bare = (s.settled i).bare
  rest : ∀ i ∈ K, i ∉ l → (s.slot i).Lasts (T i) (s'.slot i)

namespace Freezes

/-- Freezing nothing changes nothing. -/
theorem nil (K : Multiset SlotId) (T : SlotId → Prop) (s : Store) : Freezes K T [] s s :=
  ⟨OnlyComputed.refl s, fun _ hi => absurd hi List.not_mem_nil,
    fun _ hi => absurd hi List.not_mem_nil, fun _ _ _ => Slot.Lasts.refl _ _⟩

/-- Freezing one list of attributes and then another one freezes both. -/
theorem trans (h : Freezes K T l s s') (h' : Freezes K T l' s' s'') (hl : ∀ i ∈ l, i ∈ K)
    (hl' : ∀ i ∈ l', i ∈ K) : Freezes K T (l ++ l') s s'' := by
  -- what was frozen before stays as it is
  have hstays : ∀ i ∈ l, (s''.slot i).bare = (s'.slot i).bare ∨ i ∈ l' ∧ T i := by
    intro i hi
    have him := h.frozen i hi
    by_cases hi' : i ∈ l'
    · by_cases hT : T i
      · exact Or.inr ⟨hi', hT⟩
      · exact Or.inl ((h'.settled i hi' hT).trans (by rw [settled_of_immutable him]))
    · exact Or.inl ((h'.rest i (hl i hi) hi').bare (Or.inl him))
  refine ⟨h.only.trans h'.only, fun i hi => ?_, fun i hi hT => ?_, fun i hK hi => ?_⟩
  · by_cases hi' : i ∈ l'
    · exact h'.frozen i hi'
    · have hi := (List.mem_append.1 hi).resolve_right hi'
      rw [Slot.immutable_of_bare ((hstays i hi).resolve_right fun hn => hi' hn.1)]
      exact h.frozen i hi
  · by_cases hil : i ∈ l
    · rw [(hstays i hil).resolve_right fun hn => hT hn.2]
      exact h.settled i hil hT
    · have hi' := (List.mem_append.1 hi).resolve_left hil
      rw [h'.settled i hi' hT]
      exact bare_settled_congr h.only ((h.rest i (hl' i hi') hil).bare (Or.inr hT))
  · rw [List.mem_append, not_or] at hi
    exact (h.rest i hK hi.1).trans (h'.rest i hK hi.2)

/-- The attribute is frozen last, after what only computes. -/
theorem freeze_last (ho : OnlyComputed s s') (hk : Kept K T s s') (hthere : i < s'.slots.size)
    {v : Option Value} (hv : ¬ T i → ((s'.slot i).freeze v).bare = (s.settled i).bare) :
    Freezes K T [i] s (s'.modifySlot i (Slot.freeze v)) := by
  refine ⟨ho.trans (OnlyComputed.modifySlot s' i (Slot.deferred_freeze v)), fun j hj => ?_,
    fun j hj hT => ?_, fun j hK hj => ?_⟩
  · rw [List.mem_singleton.1 hj, slot_modifySlot_self hthere]
    exact Slot.immutable_freeze _ _
  · obtain rfl := List.mem_singleton.1 hj
    rw [slot_modifySlot_self hthere]
    exact hv hT
  · rw [slot_modifySlot_ne fun hij => hj (List.mem_singleton.2 hij.symm)]
    exact hk j hK

end Freezes

/-- An attribute is frozen as it has to be if its deferred value is computed and ends: it
has this value from then on, and all that computing left alone lasts. -/
theorem freezeAttribute_freezes (hL : Ledger.frozen i L s = some L') (h : Counted s (K + L))
    (hN : Named T s) (hrest : AtRest s) (hi : i ∈ K) (hrun : freezeAttribute i s = .ok () s') :
    Freezes K T [i] s s' := by
  have hbound := h.bound i (Multiset.mem_add.2 (Or.inl hi))
  rcases frozen_plain_or_pending s i with him | ⟨him, hv | ⟨hv, c, hd⟩⟩
  · -- it is frozen already
    rw [freezeAttribute, freezeWith_frozen him] at hrun
    cases hrun
    refine ⟨OnlyComputed.refl s, fun j hj => ?_, fun j hj _ => ?_, fun _ _ _ => Slot.Lasts.refl _ _⟩
      <;> rw [List.mem_singleton.1 hj]
    · exact him
    · rw [settled_of_immutable him]
  · -- it has a value, or nothing to take one over from
    rw [freezeAttribute, freezeWith_plain him hv] at hrun
    cases hrun
    refine Freezes.freeze_last (OnlyComputed.refl s) (Kept.refl K T s)
      (lt_size_of_definition hbound) fun _ => ?_
    rw [settled]
    rcases hv with hv | hd
    · obtain ⟨v, hv⟩ := Option.ne_none_iff_exists'.1 hv
      simp only [Slot.freeze, him, hv, Option.some_or]
    · rw [hd]
      rfl
  · -- its deferred value is computed, and it takes the result over
    rw [Ledger.frozen, Ledger.frozenWith_pending him hv hd] at hL
    have hforce := (force_runs (K := K) (W := T) c L L' s hL h hN).computes
    rw [freezeAttribute, freezeWith_pending him hv hd] at hrun
    cases hr : Trace.force c s with
    | error e s₁ =>
      rw [hr] at hrun
      cases hrun
    | ok v s₁ =>
      rw [hr] at hrun
      cases hrun
      rw [Action.leaves_ok hr] at hforce
      have hyields : v = (s.cell c).yields :=
        (force_yields hrest hr).trans (hforce.only.cells c).yields
      have hthere : i < s₁.slots.size :=
        lt_size_of_definition (by rwa [(hforce.kept i hi).definition])
      refine Freezes.freeze_last hforce.only hforce.kept hthere fun hT => ?_
      rw [settled, hd, Option.bind_some, ← hyields]
      exact bare_freeze ((hforce.kept i hi).bare (Or.inr hT)) v

/-- Attributes can be frozen in order where the ledger permits every single freeze. -/
theorem frozenEach_runs (hL : Ledger.frozenEach l L s = some L') (h : Counted s (K + L))
    (hN : Named W s) (hW : ∀ i ∈ l, W i) : Runs K W s L' (l.forM freezeAttribute) :=
  forM_runs (fun _ _ hs hN => Named.of_onlyComputed hN hs) l
    (fun i hi _ _ _ hL h hN => freezeAttribute_runs hL h hN (hW i hi)) L s hL h hN

/-- A list of attributes is frozen one by one, by induction on the list. -/
theorem frozenEach_freezes (hl : ∀ i ∈ l, i ∈ K) :
    ∀ s L, Ledger.frozenEach l L s = some L' → Counted s (K + L) → Named T s → AtRest s →
      l.forM freezeAttribute s = .ok () s' → Freezes K T l s s' := by
  induction l with
  | nil =>
    intro s L _ _ _ _ hrun
    cases hrun
    exact Freezes.nil K T _
  | cons i l ih =>
    intro s L hL h hN hrest hrun
    obtain ⟨L₁, hi, hL⟩ := Option.bind_eq_some_iff.1 hL
    -- the first freeze leaves the books in order, so the others go on from there
    have hnext := (freezeAttribute_runs (W := fun _ => True) hi h (fun _ _ _ _ _ => trivial)
      trivial).computes
    rw [Action.forM_cons] at hrun
    -- a freeze that breaks off ends the run, so the first one ended
    cases hr : freezeAttribute i s with
    | error e s₁ =>
      rw [hr] at hrun
      cases hrun
    | ok u s₁ =>
      rw [hr] at hrun
      rw [Action.leaves_ok hr] at hnext
      simp only [hr] at hL
      have hi' : i ∈ K := hl i List.mem_cons_self
      have hl' : ∀ j ∈ l, j ∈ K := fun j hj => hl j (List.mem_cons_of_mem i hj)
      refine (freezeAttribute_freezes hi h hN hrest hi' hr).trans
        (ih hl' s₁ L₁ hL hnext.counted (hN.of_onlyComputed hnext.only)
          (hrest.of_advances hnext.only.cells) hrun) (fun j hj => ?_) hl'
      rwa [List.mem_singleton.1 hj]

/-- What a record holds in some categories. -/
def listed (s : Store) (r : RecordId) (ks : List Category) : List SlotId :=
  ks.flatMap fun k => ((s.record r).attributes k).values

/-- The slots listed for some categories are those under a name in one of them. -/
theorem mem_listed {ks : List Category} :
    i ∈ s.listed r ks ↔ ∃ k ∈ ks, ∃ n, ((s.record r).attributes k).get? n = some i := by
  simp only [listed, List.mem_flatMap, Keyed.mem_values_iff]

/-- In all categories together, everything is listed that the record holds. -/
theorem mem_listed_all : i ∈ s.listed r Category.all ↔ i ∈ (s.record r).held := by
  rw [mem_listed, Record.mem_held]
  refine exists_congr fun k => and_iff_right ?_
  cases k <;> decide

/-- Whatever is listed is held. -/
theorem held_of_mem_listed {ks : List Category} (hi : i ∈ s.listed r ks) :
    i ∈ (s.record r).held := by
  obtain ⟨k, -, n, hn⟩ := mem_listed.1 hi
  exact Record.mem_held.2 ⟨k, n, hn⟩

/-- A category is frozen in the order of its entries. -/
theorem freezeCategory_apply (r : RecordId) (k : Category) (s : Store) :
    freezeCategory r k s = ((s.record r).attributes k).values.forM freezeAttribute s := by
  simp only [freezeCategory, Action.bind_apply, Action.get_apply]

/-- **What freezing all that a record holds can do.** -/
theorem closed_runs (hL : Ledger.closed r L s = some L') (h : Counted s (K + L)) (hN : Named W s)
    (hW : ∀ i ∈ (s.record r).held, W i) :
    Runs K W s L' (Category.all.forM (freezeCategory r)) := by
  refine forM_runs (I := fun s' => Named W s' ∧ s'.record r = s.record r)
    (fun s₁ s₂ hs hI => ⟨hI.1.of_onlyComputed hs, (hs.record r).trans hI.2⟩) Category.all
    (fun k _ L₁ L₂ s₁ hL₁ h₁ hI => ?_) L s hL h ⟨hN, rfl⟩
  refine (frozenEach_runs hL₁ h₁ hI.1 fun i hi => ?_).congr
    (fun x s₂ hx => ⟨x, (freezeCategory_apply ..).trans hx⟩)
    fun e s₂ he => (freezeCategory_apply ..).trans he
  rw [hI.2] at hi
  obtain ⟨n, hn⟩ := Keyed.mem_values_iff.1 hi
  exact hW i (Record.mem_held.2 ⟨k, n, hn⟩)

/-- **What comes of freezing all that a record holds.** -/
theorem closed_freezes (ks : List Category) :
    ∀ s L, Ledger.inTurn (fun k L s => Ledger.frozenEach ((s.record r).attributes k).values L s)
        (freezeCategory r) ks L s = some L' →
      (∀ i ∈ (s.record r).held, i ∈ K) → Counted s (K + L) → Named T s → AtRest s →
      ks.forM (freezeCategory r) s = .ok () s' → Freezes K T (s.listed r ks) s s' := by
  induction ks with
  | nil =>
    intro s L _ _ _ _ _ hrun
    cases hrun
    exact Freezes.nil K T _
  | cons k ks ih =>
    intro s L hL hK h hN hrest hrun
    obtain ⟨L₁, hk, hL⟩ := Option.bind_eq_some_iff.1 hL
    have hheld : ∀ i ∈ ((s.record r).attributes k).values, i ∈ K := fun i hi => by
      obtain ⟨n, hn⟩ := Keyed.mem_values_iff.1 hi
      exact hK i (Record.mem_held.2 ⟨k, n, hn⟩)
    -- the categories are frozen one after the other, as the attributes of one are
    have hnext := (frozenEach_runs (W := fun _ => True) hk h (fun _ _ _ _ _ => trivial)
      fun _ _ => trivial).computes
    rw [Action.forM_cons, freezeCategory_apply] at hrun
    cases hr : ((s.record r).attributes k).values.forM freezeAttribute s with
    | error e s₁ =>
      rw [hr] at hrun
      cases hrun
    | ok u s₁ =>
      rw [hr] at hrun
      rw [Action.leaves_ok hr] at hnext
      simp only [freezeCategory_apply, hr] at hL
      -- freezing changes no entry, so the later categories still list the same slots
      have hrecord := hnext.only.record r
      have hlisted : s₁.listed r ks = s.listed r ks := by simp only [listed, hrecord]
      have hlater := ih s₁ L₁ hL (hrecord ▸ hK) hnext.counted (hN.of_onlyComputed hnext.only)
        (hrest.of_advances hnext.only.cells) hrun
      rw [hlisted] at hlater
      exact (frozenEach_freezes hheld s L hk h hN hrest hr).trans hlater hheld
        fun i hi => hK i (held_of_mem_listed hi)

/-! ### Freezing values -/

/-- An attribute that has a value is frozen without a computation, and the ledger stays. -/
theorem freezeAttribute_valued (hv : (s.slot i).value ≠ none) :
    Ledger.frozen i L s = some L ∧ ∃ s', freezeAttribute i s = .ok () s' ∧
      s'.records = s.records ∧ ∀ j, (s'.slot j).value = (s.slot j).value := by
  cases him : (s.slot i).immutable with
  | true =>
    exact ⟨Ledger.frozenWith_frozen him, s, freezeWith_frozen him, rfl, fun _ => rfl⟩
  | false =>
    refine ⟨Ledger.frozenWith_plain him (Or.inl hv), _, freezeWith_plain him (Or.inl hv), rfl,
      fun j => ?_⟩
    rw [slot_modifySlot]
    split_ifs
    · rw [Slot.freeze]
      split_ifs
      · rfl
      · exact Option.or_none
    · rfl

/-- A list of attributes that all have a value is frozen without a computation. -/
theorem frozenEach_valued :
    ∀ s, (∀ i ∈ l, (s.slot i).value ≠ none) →
      Ledger.frozenEach l L s = some L ∧ ∃ s', l.forM freezeAttribute s = .ok () s' ∧
        s'.records = s.records ∧ ∀ j, (s'.slot j).value = (s.slot j).value := by
  induction l with
  | nil => exact fun s _ => ⟨rfl, s, rfl, rfl, fun _ => rfl⟩
  | cons i l ih =>
    intro s hl
    obtain ⟨hL, s₁, hrun, hrecords, hvalue⟩ :=
      freezeAttribute_valued (L := L) (hl i List.mem_cons_self)
    obtain ⟨hL', s₂, hrest, hrecords', hvalue'⟩ := ih s₁ fun j hj => by
      rw [hvalue]
      exact hl j (List.mem_cons_of_mem i hj)
    refine ⟨?_, s₂, ?_, hrecords'.trans hrecords, fun j => (hvalue' j).trans (hvalue j)⟩
    · simp only [Ledger.frozenEach, Ledger.inTurn, hL, Option.bind_some, hrun]
      exact hL'
    · rw [Action.forM_cons, hrun]
      exact hrest

/-- Freezing attributes that all have a value computes nothing, and is not
broken off. -/
theorem closed_valued (ks : List Category) :
    ∀ s, (∀ i ∈ (s.record r).held, (s.slot i).value ≠ none) →
      Ledger.inTurn (fun k L s => Ledger.frozenEach ((s.record r).attributes k).values L s)
          (freezeCategory r) ks L s = some L ∧
        ∃ s', ks.forM (freezeCategory r) s = .ok () s' := by
  induction ks with
  | nil => exact fun s _ => ⟨rfl, s, rfl⟩
  | cons k ks ih =>
    intro s hl
    obtain ⟨hL, s₁, hrun, hrecords, hvalue⟩ := frozenEach_valued (L := L)
      (l := ((s.record r).attributes k).values) s fun i hi => by
        obtain ⟨n, hn⟩ := Keyed.mem_values_iff.1 hi
        exact hl i (Record.mem_held.2 ⟨k, n, hn⟩)
    rw [← freezeCategory_apply] at hrun
    -- freezing changes no entry and no value, so the later categories still have values
    have hrecord : s₁.record r = s.record r := by simp only [Store.record, hrecords]
    obtain ⟨hL', s₂, hrest⟩ := ih s₁ fun i hi => by
      rw [hvalue]
      exact hl i (hrecord ▸ hi)
    refine ⟨?_, s₂, ?_⟩
    · simp only [Ledger.inTurn, hL, Option.bind_some, hrun]
      exact hL'
    · rw [Action.forM_cons, hrun]
      exact hrest

/-! ### Opening and closing -/

/-- Holding on to the pools touches neither books nor records. -/
theorem Books.hold_moves (h : Books s L H) (p : SetId) : Moves P W s L H (s.hold p) :=
  h.moves_of_modifySet p (List.Sublist.refl _) (List.Sublist.refl _)

/-- Letting go of them touches neither, also when it is the last hold. -/
theorem Books.letGo_moves (h : Books s L H) (p : SetId) : Moves P W s L H (s.letGo p) := by
  refine h.moves_of_modifySet p ?_ ?_ <;> split_ifs
  · exact List.nil_sublist _
  · exact List.Sublist.refl _
  · exact List.nil_sublist _
  · exact List.Sublist.refl _

/-- **A collection can always be opened**, with a blank record that was in
nobody's hands. -/
theorem Books.openCollection_moves (h : Books s L H) (p : SetId) :
    ∃ r s', Trace.openCollection p s = .ok ⟨p, r⟩ s' ∧ Moves (· ≠ r) W s L (r ::ₘ H) s' ∧
      (s'.record r).Blank := by
  obtain ⟨r, s₁, hlease, hm, hblank⟩ := leaseRecord_moves (W := W) h p
  refine ⟨r, s₁.hold p, ?_, hm.trans (hm.books.hold_moves p), hblank⟩
  simp only [Trace.openCollection, Action.bind_apply, hlease, Action.modify_apply,
    Action.pure_apply]

/-- A collection can always be closed: its record is released, and all others are left
alone. -/
theorem Books.close_moves (h : Books s L (c.record ::ₘ H)) :
    ∃ s', c.close s = .ok () s' ∧ Moves (· ≠ c.record) W s L H s' := by
  obtain ⟨s₁, hrelease, hm, -⟩ := releaseRecord_moves (W := W) h
  refine ⟨s₁.letGo c.pools, ?_, hm.trans (hm.books.letGo_moves c.pools)⟩
  simp only [Collection.close, Action.ensuring, hrelease]

/-- If all attributes can be frozen, the collection becomes its record and lets go of the
pools. -/
theorem intoRecord_ok {u : Unit} (h : Category.all.forM (freezeCategory c.record) s = .ok u s') :
    c.intoRecord s = .ok c.record (s'.letGo c.pools) := by
  have hfreeze : c.freeze s = .ok u s' := h
  simp only [Collection.intoRecord, Action.undoing, Action.bind_apply, hfreeze,
    Action.modify_apply, Action.pure_apply]

/-- If a freeze is broken off, the collection is closed on the way out. -/
theorem intoRecord_error {e : Fault}
    (h : Category.all.forM (freezeCategory c.record) s = .error e s') :
    c.intoRecord s = .error e (c.close.leaves s') := by
  have hfreeze : c.freeze s = .error e s' := h
  simp only [Collection.intoRecord, Action.undoing, Action.bind_apply, hfreeze, Action.leaves]
  cases c.close s' <;> rfl

/-- **A collection that is closed with its record** keeps what it holds, all of
it frozen; if a value needs itself the record is released. -/
theorem Books.intoRecord_moves (h : Books s L (c.record ::ₘ H))
    (hL : Ledger.closed c.record L s = some L') (hT : Named T s) :
    (∃ s₁, Category.all.forM (freezeCategory c.record) s = .ok () s₁ ∧
      c.intoRecord s = .ok c.record (s₁.letGo c.pools) ∧
      Freezes s.holdings T (s.listed c.record Category.all) s s₁ ∧
      Moves P (fun i => T i ∨ i ∈ (s.record c.record).held) s L' (c.record ::ₘ H)
        (s₁.letGo c.pools)) ∨
    ∃ s', c.intoRecord s = .error .circular s' ∧
      Moves (· ≠ c.record) (fun i => T i ∨ i ∈ (s.record c.record).held) s L' H s' := by
  -- computing may write what names stand for, and freezing what the record holds
  set W : SlotId → Prop := fun i => T i ∨ i ∈ (s.record c.record).held with hW
  have hruns := closed_runs (W := W) hL h.counted (fun c e he i hi => Or.inl (hT c e he i hi))
    fun i hi => Or.inr hi
  have hcomputes := hruns.computes
  cases hr : Category.all.forM (freezeCategory c.record) s with
  | ok u s₁ =>
    rw [Action.leaves_ok hr] at hcomputes
    have hm := h.moves_of_computes (P := P) hcomputes
    refine Or.inl ⟨s₁, rfl, intoRecord_ok hr, closed_freezes Category.all s L hL
      (fun i hi => Multiset.mem_of_le (held_le_holdings s _) hi) h.counted hT h.rest hr,
      hm.trans (hm.books.letGo_moves c.pools)⟩
  | error e s₁ =>
    -- a freeze broke off: the collection is closed on the way out, with its record
    rw [Action.leaves_error hr] at hcomputes
    have hm := h.moves_of_computes (P := (· ≠ c.record)) hcomputes
    obtain ⟨s₂, hclose, hm'⟩ := hm.books.close_moves (W := W)
    obtain rfl := hruns.circular e s₁ hr
    refine Or.inr ⟨s₂, ?_, hm.trans hm'⟩
    rw [intoRecord_error hr, Action.leaves_ok hclose]

end Store
end Telemetry
