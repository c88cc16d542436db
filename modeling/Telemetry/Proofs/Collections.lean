/-
# Putting attributes in and taking them out

An attribute that is put into a collection takes the place of the one that had
its category and name, and that one loses a reference.  Where the new attribute
is there already, the record only takes over its identity.  The reply tells
whether the place was empty.

`install_moves` says this of any attribute, `setValue_moves` and
`setDeferred_moves` of one that is made for the purpose, and `removeMany_moves`
says what is left when attributes are taken out: the entries of all others.
-/

import Telemetry.Proofs.Records

namespace Telemetry

open Trace

namespace Trace.Record

variable {r : Record} {d : Definition} {v : Option Value} {i : SlotId}

/-- The record with an attribute under its category and name. -/
def place (r : Record) (d : Definition) (i : SlotId) : Record :=
  r.setAttributes ((r.attributes d.category).insert d.name i) d.category

/-- Replacing a map of a record leaves its mark. -/
@[simp] theorem marked_setAttributes (r : Record) (m : Keyed SlotId) (k : Category) :
    (r.setAttributes m k).marked = r.marked := by
  cases k <;> rfl

/-- Replacing a map of a record leaves its home. -/
theorem home_setAttributes (r : Record) (m : Keyed SlotId) (k : Category) :
    (r.setAttributes m k).home = r.home := by
  cases k <;> rfl

/-- Identifying a span leaves the mark of its record. -/
@[simp] theorem marked_identify (r : Record) (n : String) (v : Option Value) :
    (r.identify n v).marked = r.marked := by
  unfold identify
  split_ifs <;> rfl

/-- Placing an attribute writes its own category and no other one. -/
theorem attributes_place (r : Record) (d : Definition) (i : SlotId) (k : Category) :
    (r.place d i).attributes k =
      if d.category = k then (r.attributes d.category).insert d.name i else r.attributes k :=
  attributes_setAttributes ..

/-- An attribute that is in its place already. -/
theorem place_of_get? (h : (r.attributes d.category).get? d.name = some i) : r.place d i = r := by
  rw [place, Keyed.insert_of_get? h]
  cases d.category <;> rfl

/-- The entries of a record with a new attribute are that one and the others. -/
theorem get?_place {k : Category} {n : String} {j : SlotId}
    (h : ((r.place d i).attributes k).get? n = some j) :
    d.category = k ∧ d.name = n ∧ i = j ∨ (r.attributes k).get? n = some j := by
  rw [attributes_place] at h
  split_ifs at h with hk
  · subst hk
    rw [Keyed.get?_insert] at h
    split_ifs at h with hn
    · exact Or.inl ⟨rfl, hn, Option.some.inj h⟩
    · exact Or.inr h
  · exact Or.inr h

/-- What a record holds besides a placed attribute it held before. -/
theorem mem_held_of_placed {n : String} {j : SlotId}
    (hj : j ∈ ((r.identify n v).place d i).held) (hji : j ≠ i) : j ∈ r.held := by
  obtain ⟨k, m, hj⟩ := mem_held.1 hj
  rcases get?_place hj with ⟨-, -, hij⟩ | hj
  · exact absurd hij.symm hji
  · rw [attributes_identify] at hj
    exact mem_held.2 ⟨k, m, hj⟩

/-- What stood under a name gives it up to what is written there. -/
theorem held_insert (r : Record) (k : Category) (n : String) (i : SlotId) :
    (r.setAttributes ((r.attributes k).insert n i) k).held +
      ((r.attributes k).get? n).elim 0 ({·}) = i ::ₘ r.held := by
  have hexchange := r.held_setAttributes ((r.attributes k).insert n i) k
  have hinsert := Keyed.total_insert ({·} : SlotId → Multiset SlotId) (r.attributes k) n i
  refine add_right_cancel (b := (r.attributes k).total ({·})) ?_
  calc (r.setAttributes ((r.attributes k).insert n i) k).held +
        ((r.attributes k).get? n).elim 0 ({·}) + (r.attributes k).total ({·})
      = (r.setAttributes ((r.attributes k).insert n i) k).held + (r.attributes k).total ({·}) +
        ((r.attributes k).get? n).elim 0 ({·}) := by abel
    _ = r.held + ((r.attributes k).total ({·}) + {i}) := by rw [hexchange, add_assoc, hinsert]
    _ = i ::ₘ r.held + (r.attributes k).total ({·}) := by rw [← Multiset.singleton_add]; abel

/-- What held the place before gives it up. -/
theorem held_place (r : Record) (d : Definition) (i : SlotId) :
    (r.place d i).held + ((r.attributes d.category).get? d.name).elim 0 ({·}) = i ::ₘ r.held :=
  r.held_insert d.category d.name i

/-- The attribute whose place is to be taken is one of those held. -/
theorem elim_le_held (r : Record) (d : Definition) :
    ((r.attributes d.category).get? d.name).elim 0 ({·}) ≤ r.held := by
  cases h : (r.attributes d.category).get? d.name with
  | none => exact Multiset.zero_le _
  | some j => exact Multiset.singleton_le.2 (mem_held.2 ⟨_, _, h⟩)

end Trace.Record

namespace Store

variable {s s' s'' : Store} {L L' : Ledger} {H : Multiset RecordId} {P : RecordId → Prop}
  {W : SlotId → Prop} {c : Collection} {d : Definition} {i : SlotId} {r : RecordId}

/-! ### Putting in -/

/-- An attribute takes its place once what was there has lost its reference:
`R` are the other holdings. -/
theorem Books.place_moves (h : Books s L H) (hr : r ∈ H) {R : Multiset SlotId}
    (hd : (s.slot i).definition = some d)
    (hR : R + (((s.record r).attributes d.category).get? d.name).elim 0 ({·}) = s.holdings)
    (ho : OnlySlots s s') (hc : Counted s' (i ::ₘ (R + L))) (hk : Kept (i ::ₘ R) W s s') :
    Moves (· ≠ r) W s L H (s'.modifyRecord r (·.place d i)) ∧
      (s'.modifyRecord r (·.place d i)).holdings = i ::ₘ R := by
  have hthere : r < s'.records.size := by
    rw [ho.records]
    exact h.housed.there _ hr
  have hholdings : (s'.modifyRecord r (·.place d i)).holdings = i ::ₘ R := by
    have hexchange := holdings_modifyRecord (·.place d i) hthere
    have hplace := (s.record r).held_place d i
    rw [ho.record, ho.holdings, ← hR] at hexchange
    refine add_right_cancel (b := (s.record r).held) ?_
    rw [hexchange, add_assoc, add_comm _ (Record.held _), hplace, Multiset.add_cons,
      Multiset.cons_add]
  -- what other records hold is among the other holdings
  have hother : ∀ q, q ≠ r → ∀ j ∈ (s.record q).held, j ∈ i ::ₘ R := by
    intro q hq j hj
    have hside : (s.record q).held + (((s.record r).attributes d.category).get? d.name).elim 0 ({·})
        ≤ R + (((s.record r).attributes d.category).get? d.name).elim 0 ({·}) := by
      rw [hR]
      exact (add_le_add le_rfl ((s.record r).elim_le_held d)).trans (held_add_held_le hq)
    exact Multiset.mem_cons_of_mem (Multiset.mem_of_le (le_of_add_le_add_right hside) hj)
  refine ⟨h.exchange_moves hr ho (Record.marked_setAttributes ..) (hc.congr ?_)
    (fun q hq => hk.mono (hother q hq) fun _ _ hi => hi) fun k n j hj => ?_, hholdings⟩
  · rw [hholdings, Multiset.cons_add]
  · have hmem : j ∈ i ::ₘ R := by
      rw [← hholdings]
      refine mem_holdings.2 ⟨r, k, n, ?_⟩
      rw [record_modifyRecord_self hthere, ho.record]
      exact hj
    rw [(hk j hmem).definition]
    rcases Record.get?_place hj with ⟨rfl, rfl, rfl⟩ | hj
    · exact ⟨d, hd, rfl, rfl⟩
    · exact h.labelled r k n j hj

/-- The identity is taken over first, and then the attribute takes its place. -/
theorem Books.identify_place_moves (h : Books s L H) (hr : r ∈ H) {R : Multiset SlotId}
    (hd : (s.slot i).definition = some d)
    (hR : R + (((s.record r).attributes d.category).get? d.name).elim 0 ({·}) = s.holdings)
    (ho : OnlySlots (s.modifyRecord r (·.identify d.name (s.slot i).value)) s')
    (hc : Counted s' (i ::ₘ (R + L)))
    (hk : Kept (i ::ₘ R) W (s.modifyRecord r (·.identify d.name (s.slot i).value)) s') :
    Moves (· ≠ r) W s L H (s'.modifyRecord r (·.place d i)) ∧
      (s'.modifyRecord r (·.place d i)).record r =
        ((s.record r).identify d.name (s.slot i).value).place d i ∧
      (s'.modifyRecord r (·.place d i)).holdings ≤ i ::ₘ s.holdings ∧
      Kept ((s'.modifyRecord r (·.place d i)).record r).held W s
        (s'.modifyRecord r (·.place d i)) := by
  -- identifying comes first, and changes no entry; so the entry is placed as in
  -- `place_moves`
  set s₁ := s.modifyRecord r (·.identify d.name (s.slot i).value) with hs₁
  have hself : s₁.record r = (s.record r).identify d.name (s.slot i).value :=
    record_modifyRecord_self (h.housed.there _ hr) _
  have hholdings₁ : s₁.holdings = s.holdings :=
    holdings_modifyRecord_of_held (Record.held_of_attributes fun k => Record.attributes_identify ..)
  have hm₁ : Moves (· ≠ r) W s L H s₁ :=
    h.touchRecord_moves hr (Record.marked_identify ..) fun k => Record.attributes_identify ..
  rw [← hholdings₁] at hR ⊢
  obtain ⟨hm, hholdings⟩ := hm₁.books.place_moves hr hd
    (by rw [hself, Record.attributes_identify]; exact hR) ho hc hk
  refine ⟨hm₁.trans hm, ?_, ?_, ?_⟩
  · rw [record_modifyRecord_self (ho.records ▸ hm₁.books.housed.there _ hr), ho.record, hself]
  · rw [hholdings, ← hR]
    exact Multiset.cons_le_cons i (Multiset.le_add_right _ _)
  · refine Kept.mono (K := i ::ₘ R) (W := W) hk (fun j hj => ?_) fun _ _ hi => hi
    rw [← hholdings]
    exact Multiset.mem_of_le (held_le_holdings _ _) hj

/-- An attribute loses a reference, and another one gets it. -/
theorem exchange_keeps (h : Counted s (R + L)) (hj : j ∈ R) (hji : j ≠ i)
    (hi : (s.slot i).definition ≠ none) (hW : W i) :
    ∃ b s₁ s₂, removeReference j s = .ok b s₁ ∧ addReference i s₁ = .ok () s₂ ∧
      Counted s₂ (i ::ₘ (R.erase j + L)) ∧ OnlySlots s s₂ ∧ Kept (i ::ₘ R.erase j) W s s₂ ∧
      (s₂.slot i).bare = (s.slot i).bare := by
  have hc : Counted s (j ::ₘ (R.erase j + L)) :=
    h.congr (by rw [← Multiset.cons_add, Multiset.cons_erase hj])
  obtain ⟨b, s₁, hremove, hc₁, ho₁, hk₁, hrest₁, -⟩ := removeReference_keeps (W := W) hc
  have hi₁ : s₁.slot i = s.slot i := hrest₁ i hji.symm
  obtain ⟨s₂, hadd, hc₂, ho₂, hk₂, hbare₂⟩ := addReference_keeps hc₁ (by rwa [hi₁]) hW
  have hk : Kept (i ::ₘ R.erase j) W s s₁ := by
    intro k hk
    rcases Multiset.mem_cons.1 hk with rfl | hk
    · rw [hi₁]
      exact Slot.Lasts.refl _ _
    · exact hk₁ k hk
  exact ⟨b, s₁, s₂, hremove, hadd, hc₂, ho₁.trans ho₂, hk.trans hk₂, by rw [hbare₂, hi₁]⟩

/-- **An attribute that is put in takes its place.** -/
theorem Books.install_moves (h : Books s L H) (hr : c.record ∈ H)
    (hd : (s.slot i).definition = some d) (hW : W i) :
    ∃ s', c.install i s = .ok (!((s.record c.record).attributes d.category).contains d.name) s' ∧
      Moves (· ≠ c.record) W s L H s' ∧
      s'.record c.record = ((s.record c.record).identify d.name (s.slot i).value).place d i ∧
      s'.holdings ≤ i ::ₘ s.holdings ∧ Kept (s'.record c.record).held W s s' ∧
      (s'.slot i).bare = (s.slot i).bare := by
  set s₁ := s.modifyRecord c.record (·.identify d.name (s.slot i).value) with hs₁
  have hbound : (s₁.slot i).definition ≠ none := fun hn => Option.some_ne_none d (hd.symm.trans hn)
  have hself₁ : s₁.record c.record = (s.record c.record).identify d.name (s.slot i).value :=
    record_modifyRecord_self (h.housed.there _ hr) _
  have hholdings₁ : s₁.holdings = s.holdings :=
    holdings_modifyRecord_of_held (Record.held_of_attributes fun k => Record.attributes_identify ..)
  have hm₁ : Moves (· ≠ c.record) W s L H s₁ :=
    h.touchRecord_moves hr (Record.marked_identify ..) fun k => Record.attributes_identify ..
  have hcounted₁ : Counted s₁ (s.holdings + L) := hm₁.books.counted.congr (by rw [hholdings₁])
  have hcontains : ((s.record c.record).attributes d.category).contains d.name =
      (((s.record c.record).attributes d.category).get? d.name).isSome := rfl
  have hg₁ : ((s₁.record c.record).attributes d.category).get? d.name =
      ((s.record c.record).attributes d.category).get? d.name := by
    rw [hself₁, Record.attributes_identify]
  cases hg : ((s.record c.record).attributes d.category).get? d.name with
  | none =>
    -- the place is empty
    rw [hg] at hg₁
    obtain ⟨s₂, hadd, hc, ho, hk, hbare⟩ :=
      addReference_keeps hcounted₁ hbound hW
    obtain ⟨hm, hrecord, hle, hkept⟩ :=
      h.identify_place_moves hr hd (by rw [hg]; exact add_zero _) ho hc hk
    refine ⟨_, ?_, hm, hrecord, hle, hkept, hbare i⟩
    simp only [Collection.install, Action.bind_apply, Action.get_apply, hd, Action.modify_apply,
      ← hs₁, hg₁, hadd, Action.pure_apply, hcontains, hg]
    rfl
  | some j =>
    rw [hg] at hg₁
    rcases eq_or_ne j i with rfl | hji
    · -- it is there already
      refine ⟨s₁, ?_, hm₁, ?_, ?_, Kept.of_slot fun _ _ => rfl, rfl⟩
      · simp only [Collection.install, Action.bind_apply, Action.get_apply, hd,
          Action.modify_apply, ← hs₁, hg₁, Action.pure_apply, if_true, hcontains, hg]
        rfl
      · rw [hself₁, Record.place_of_get?]
        rw [Record.attributes_identify, hg]
      · rw [hholdings₁]
        exact Multiset.le_cons_self _ _
    · -- another attribute gives the place up
      have hj : j ∈ s.holdings := mem_holdings.2 ⟨c.record, d.category, d.name, hg⟩
      obtain ⟨b, s₂, s₃, hremove, hadd, hc, ho, hk, hbare⟩ :=
        exchange_keeps hcounted₁ hj hji hbound hW
      obtain ⟨hm, hrecord, hle, hkept⟩ := h.identify_place_moves hr hd
        (by rw [hg, Option.elim_some, add_comm, Multiset.singleton_add, Multiset.cons_erase hj])
        ho hc hk
      refine ⟨_, ?_, hm, hrecord, hle, hkept, hbare⟩
      simp only [Collection.install, Action.bind_apply, Action.get_apply, hd, Action.modify_apply,
        ← hs₁, hg₁, if_neg hji, Action.discard_apply, hremove, hadd, Action.pure_apply, hcontains,
        hg]
      rfl

/-- A new attribute `a` stands in the record `r` in slot `i`, which nobody held
on to before; the other attributes of the record are those of before, and none
of them was written. -/
structure Gains (r : RecordId) (d : Definition) (a : Slot) (i : SlotId) (L : Ledger)
    (s s' : Store) : Prop where
  record : s'.record r = ((s.record r).identify d.name a.value).place d i
  slot : (s'.slot i).bare = a.bare
  fresh : i ∉ s.holdings + L
  holdings : s'.holdings ≤ i ::ₘ s.holdings
  rest : ∀ j ∈ (s'.record r).held, j ≠ i → (s.slot j).Lasts False (s'.slot j)

/-- An attribute that is made, written and put in. -/
theorem Books.putNew_moves (h : Books s L H) (hr : c.record ∈ H) (d : Definition)
    {f : Slot → Slot} (hf : ∀ a : Slot, a.Writes (f a)) :
    ∃ i s', (do
        let i ← createAttribute c.pools d
        modify fun s : Store => s.modifySlot i f
        c.install i : Action Bool) s =
          .ok (!((s.record c.record).attributes d.category).contains d.name) s' ∧
      Moves (· ≠ c.record) W s L H s' ∧
      Gains c.record d (f { definition := some d, home := c.pools }) i L s s' := by
  obtain ⟨i, s₁, hcreate, hm₁, honly₁, hslot₁, hfresh⟩ :=
    h.createAttribute_moves (P := fun _ => True) (W := fun _ => False) c.pools d
  have hunheld : ∀ r, i ∉ (s.record r).held := fun r hi =>
    hfresh (Multiset.mem_add.2 (Or.inl (Multiset.mem_of_le (held_le_holdings s r) hi)))
  have hthere : i < s₁.slots.size := lt_size_of_definition (by rw [hslot₁]; simp)
  set s₂ := s₁.modifySlot i f with hs₂
  have hm₂ : Moves (fun _ => True) (· = i) s₁ L H s₂ := hm₁.books.modifySlot_moves (hf _) rfl
  have honly : OnlySlots s s₂ := honly₁.trans ⟨rfl, fun _ => rfl, rfl, rfl⟩
  have hslot₂ : s₂.slot i = f { definition := some d, home := c.pools } := by
    rw [hs₂, slot_modifySlot_self hthere, hslot₁]
  obtain ⟨s₃, hinstall, hm₃, hrecord₃, hle₃, hkept₃, hbare₃⟩ :=
    hm₂.books.install_moves (W := (· = i)) hr (by rw [hslot₂]; exact (hf _).definition) rfl
  rw [honly.record] at hinstall hrecord₃
  refine ⟨i, s₃, ?_, ?_, hrecord₃.trans (by rw [hslot₂]), by rw [hbare₃, hslot₂], hfresh,
    honly.holdings ▸ hle₃, fun j hj hji => ?_⟩
  · simp only [Action.bind_apply, hcreate, Action.modify_apply, ← hs₂, hinstall]
  · -- no record held the new slot, so none sees that it is written
    refine (hm₁.mono (fun _ _ => trivial) fun _ _ _ _ hi => hi.elim).trans
      (((hm₂.only fun _ _ => trivial).trans hm₃).mono (fun _ hq => hq) fun q _ j hj hji => ?_)
    rw [honly₁.record] at hj
    exact absurd (hji ▸ hj) (hunheld q)
  · have hheld : j ∈ (s.record c.record).held :=
      Record.mem_held_of_placed (hrecord₃ ▸ hj) hji
    refine ((hm₁.spares.kept c.record trivial j hheld).trans ?_).trans
      ((hkept₃ j hj).mono fun hji' => absurd hji' hji)
    rw [hs₂, slot_modifySlot_ne (Ne.symm hji)]
    exact Slot.Lasts.refl _ _

/-- **A value that is put into a collection.** -/
theorem Books.setValue_moves (h : Books s L H) (hr : c.record ∈ H) (d : Definition) (v : Value) :
    ∃ i s', c.setValue d v s =
        .ok (!((s.record c.record).attributes d.category).contains d.name) s' ∧
      Moves (· ≠ c.record) W s L H s' ∧
      Gains c.record d { definition := some d, value := some v, home := c.pools } i L s s' :=
  h.putNew_moves hr d (Slot.setValue_writes v)

/-- **A deferred value that is put into a collection.** -/
theorem Books.setDeferred_moves (h : Books s L H) (hr : c.record ∈ H) (d : Definition)
    (cell : CellId) :
    ∃ i s', c.setDeferred d cell s =
        .ok (!((s.record c.record).attributes d.category).contains d.name) s' ∧
      Moves (· ≠ c.record) W s L H s' ∧
      Gains c.record d { definition := some d, deferred := some cell, home := c.pools } i L s s' :=
  h.putNew_moves hr d (Slot.setDeferred_writes cell)

/-! ### Attributes that nobody shares -/

/-- The record has its attributes to itself: each of them has a single
reference. -/
def Sole (s : Store) (r : RecordId) : Prop :=
  ∀ i ∈ (s.record r).held, (s.slot i).references ≤ 1

/-- An attribute that is not shared is in one place. -/
theorem Sole.count_le (hs : Sole s r) (h : Books s L H) {j : SlotId}
    (hj : j ∈ (s.record r).held) : (s.holdings + L).count j ≤ 1 := by
  rw [← h.counted.references]
  exact hs j hj

/-- A record that holds each attribute alone shares none of them with another record in
hand. -/
theorem Sole.apart (hs : Sole s r) (h : Books s L H) {q : RecordId} (hq : q ≠ r) {j : SlotId}
    (hj : j ∈ (s.record r).held) : j ∉ (s.record q).held := by
  intro hjq
  have hle := Multiset.count_le_of_le j
    ((held_add_held_le (s := s) hq).trans (Multiset.le_add_right s.holdings L))
  have hone := hs.count_le h hj
  rw [Multiset.count_add] at hle
  have := Multiset.one_le_count_iff_mem.2 hj
  have := Multiset.one_le_count_iff_mem.2 hjq
  omega

namespace Gains

variable {a : Slot}

/-- An attribute of the record is the new one or one of those before. -/
theorem held (h : Gains r d a i L s s') {j : SlotId} (hj : j ∈ (s'.record r).held) :
    j = i ∨ j ≠ i ∧ j ∈ (s.record r).held :=
  or_iff_not_imp_left.2 fun hji => ⟨hji, Record.mem_held_of_placed (h.record ▸ hj) hji⟩

/-- Nobody shares the new attribute. -/
theorem sole (h : Gains r d a i L s s') (hb : Books s' L H) (hs : Sole s r) : Sole s' r := by
  intro j hj
  rcases h.held hj with rfl | ⟨hji, hj'⟩
  · rw [hb.counted.references]
    have hle := Multiset.count_le_of_le j (add_le_add_left h.holdings L)
    rw [Multiset.cons_add, Multiset.count_cons_self, Multiset.count_eq_zero.2 h.fresh] at hle
    exact hle
  · exact ((h.rest j hj hji).references id).trans (hs j hj')

/-- If every attribute has a value and the new one has, all still have one. -/
theorem valued (h : Gains r d a i L s s') (ha : a.value ≠ none)
    (hs : ∀ j ∈ (s.record r).held, (s.slot j).value ≠ none) :
    ∀ j ∈ (s'.record r).held, (s'.slot j).value ≠ none := by
  intro j hj
  rcases h.held hj with rfl | ⟨hji, hj'⟩
  · rw [Slot.value_of_bare h.slot]
    exact ha
  · rw [Slot.value_of_bare ((h.rest j hj hji).bare (Or.inr id))]
    exact hs j hj'

end Gains

/-! ### Taking out -/

/-- Of the record `r` the entries of the slots `out` are left out; the other
attributes stay, and none of them was written. -/
structure Loses (r : RecordId) (out : List SlotId) (s s' : Store) : Prop where
  entries : ∀ k, ((s'.record r).attributes k).entries =
    ((s.record r).attributes k).entries.filter fun e => e.2 ∉ out
  traceId : (s'.record r).traceId = (s.record r).traceId
  spanId : (s'.record r).spanId = (s.record r).spanId
  priority : (s'.record r).priority = (s.record r).priority
  kept : Kept (s'.record r).held (fun _ => False) s s'

namespace Loses

variable {out out' : List SlotId}

/-- Nothing lost, nothing changed. -/
theorem refl (r : RecordId) (s : Store) : Loses r [] s s := by
  refine ⟨fun k => ?_, rfl, rfl, rfl, Kept.refl _ _ _⟩
  simp

/-- The entries that are left were entries before. -/
theorem mem_of_mem (h : Loses r out s s') {k : Category} {e : String × SlotId}
    (he : e ∈ ((s'.record r).attributes k).entries) : e ∈ ((s.record r).attributes k).entries := by
  rw [h.entries] at he
  exact (List.mem_filter.1 he).1

/-- What is held afterwards was held before. -/
theorem held (h : Loses r out s s') {j : SlotId} (hj : j ∈ (s'.record r).held) :
    j ∈ (s.record r).held := by
  obtain ⟨k, n, hj⟩ := Record.mem_held.1 hj
  exact Record.mem_held.2 ⟨k, n, Keyed.get?_eq_some_iff.2
    (h.mem_of_mem (Keyed.get?_eq_some_iff.1 hj))⟩

/-- Losses in turn are losses of all the slots together. -/
theorem trans (h : Loses r out s s') (h' : Loses r out' s' s'') :
    Loses r (out ++ out') s s'' := by
  refine ⟨fun k => ?_, h'.traceId.trans h.traceId, h'.spanId.trans h.spanId,
    h'.priority.trans h.priority, fun j hj => (h.kept j (h'.held hj)).trans (h'.kept j hj)⟩
  rw [h'.entries, h.entries, List.filter_filter]
  refine List.filter_congr fun e _ => ?_
  simp [Bool.and_comm]

/-- What counts is which slots of the record are out. -/
theorem congr (h : Loses r out s s')
    (ho : ∀ k, ∀ e ∈ ((s.record r).attributes k).entries, e.2 ∈ out ↔ e.2 ∈ out') :
    Loses r out' s s' := by
  refine ⟨fun k => ?_, h.traceId, h.spanId, h.priority, h.kept⟩
  rw [h.entries]
  refine List.filter_congr fun e he => ?_
  simp only [ho k e he]

end Loses

/-- `n` entries of the record `r` are left out, those of the slots `out`.  Their
slots lose a reference each, and nothing else is different. -/
structure Withdraws (r : RecordId) (out : List SlotId) (n : Nat) (L : Ledger) (s s' : Store) :
    Prop extends Loses r out s s' where
  count : (s'.record r).held.card + n = (s.record r).held.card
  sinks : Sinks (s.holdings + L) (s'.holdings + L) [] s s'
  confined : Confined [r] s s'
  others : ∀ i, i ∉ (s.record r).held ∨ i ∉ out → s'.slot i = s.slot i

namespace Withdraws

variable {out out' : List SlotId} {n n' : Nat}

/-- Taking out nothing changes nothing. -/
theorem refl (r : RecordId) (L : Ledger) (s : Store) : Withdraws r [] 0 L s s :=
  ⟨Loses.refl r s, rfl, Sinks.of_sheds (Sheds.refl s), Confined.refl [r] s, fun _ _ => rfl⟩

/-- Taking out in turn takes out the entries of both, and gives up their references. -/
theorem trans (h : Withdraws r out n L s s') (h' : Withdraws r out' n' L s' s'') :
    Withdraws r (out ++ out') (n + n') L s s'' := by
  refine ⟨h.toLoses.trans h'.toLoses, ?_, h.sinks.trans h'.sinks h.confined.home,
    h.confined.trans h'.confined, fun i hi => ?_⟩
  · rw [← h.count, ← h'.count]
    omega
  · rw [List.mem_append, not_or] at hi
    rw [h'.others i (hi.imp (mt h.toLoses.held) And.right), h.others i (hi.imp_right And.left)]

/-- What is taken out depends only on which of the held slots are named, not on how often or
in which order. -/
theorem congr (h : Withdraws r out n L s s') (ho : ∀ i ∈ (s.record r).held, i ∈ out ↔ i ∈ out') :
    Withdraws r out' n L s s' := by
  refine ⟨h.toLoses.congr fun k e he => ho e.2 ?_, h.count, h.sinks, h.confined, fun i hi => ?_⟩
  · exact Record.mem_held.2 ⟨k, e.1, Keyed.get?_eq_some_iff.2 he⟩
  · by_cases hheld : i ∈ (s.record r).held
    · exact h.others i (Or.inr fun hout => hi.elim (· hheld) (· ((ho i hheld).1 hout)))
    · exact h.others i (Or.inl hheld)

end Withdraws

/-- Where an attribute stands under one key only, the entry under that key is
all that goes with it. -/
theorem Record.entries_erase {r : Record} (hg : (r.attributes d.category).get? d.name = some i)
    (hl : ∀ k n, (r.attributes k).get? n = some i → k = d.category ∧ n = d.name) (k : Category) :
    ((r.setAttributes ((r.attributes d.category).erase d.name) d.category).attributes k).entries =
      (r.attributes k).entries.filter fun e => e.2 ∉ [i] := by
  rw [Record.attributes_setAttributes]
  split_ifs with hk
  · subst hk
    refine List.filter_congr fun e he => ?_
    have hget := Keyed.get?_eq_some_iff.2 he
    have hiff : e.1 = d.name ↔ e.2 = i := by
      refine ⟨fun hn => ?_, fun hi => (hl _ e.1 (hi ▸ hget)).2⟩
      rw [hn, hg] at hget
      exact (Option.some.inj hget).symm
    rw [Bool.eq_iff_iff]
    simp [hiff]
  · refine (List.filter_eq_self.2 fun e he => ?_).symm
    have hne : e.2 ≠ i := fun hi => hk (hl k e.1 (hi ▸ Keyed.get?_eq_some_iff.2 he)).1.symm
    simpa using hne

/-- What is taken out of a map is not held any more. -/
theorem Record.held_erase {r : Record} {k : Category} {n : String}
    (hg : (r.attributes k).get? n = some i) :
    r.held = i ::ₘ (r.setAttributes ((r.attributes k).erase n) k).held := by
  have hexchange := r.held_setAttributes ((r.attributes k).erase n) k
  have htotal := Keyed.total_erase ({·} : SlotId → Multiset SlotId) (r.attributes k) n
  rw [hg, Option.elim_some] at htotal
  refine add_right_cancel (b := ((r.attributes k).erase n).total ({·})) ?_
  rw [← hexchange, ← htotal, ← Multiset.singleton_add]
  abel

/-- An entry goes, and its reference is held directly for the moment. -/
theorem Books.erase_moves (h : Books s L H) (hr : r ∈ H)
    (hg : ((s.record r).attributes d.category).get? d.name = some i) :
    Moves (· ≠ r) W s (i ::ₘ L) H (s.modifyRecord r fun r =>
      r.setAttributes ((r.attributes d.category).erase d.name) d.category) := by
  refine h.modifyRecord_moves hr (Record.marked_setAttributes ..) ?_ fun k n j hj => ?_
  · rw [Record.held_erase hg, Multiset.add_cons, Multiset.cons_add, add_comm]
  · refine h.labelled r k n j ?_
    rw [Record.attributes_setAttributes] at hj
    split_ifs at hj with hk
    · rw [Keyed.get?_erase] at hj
      split_ifs at hj
      exact hk ▸ hj
    · exact hj

/-- The slot is not demanded any more by an entry that went. -/
theorem holdings_erase (hr : r < s.records.size)
    (hg : ((s.record r).attributes d.category).get? d.name = some i) :
    s.holdings = i ::ₘ (s.modifyRecord r fun r =>
      r.setAttributes ((r.attributes d.category).erase d.name) d.category).holdings := by
  have hconfined : Confined [r] s (s.modifyRecord r fun r =>
      r.setAttributes ((r.attributes d.category).erase d.name) d.category) :=
    Confined.modifyRecord fun a => Record.home_setAttributes a _ d.category
  have hexchange := hconfined.exchange hr
  rw [record_modifyRecord_self hr, Record.held_erase hg, Multiset.add_cons,
    ← Multiset.cons_add] at hexchange
  exact (add_right_cancel hexchange).symm

/-- An entry goes, and then its reference. -/
theorem Books.withdraw_moves (h : Books s L H) (hr : r ∈ H)
    (hl : ∀ k n, ((s.record r).attributes k).get? n = some i → k = d.category ∧ n = d.name)
    (hg : ((s.record r).attributes d.category).get? d.name = some i) :
    ∃ b s', removeReference i (s.modifyRecord r fun r =>
        r.setAttributes ((r.attributes d.category).erase d.name) d.category) = .ok b s' ∧
      Moves (· ≠ r) W s L H s' ∧ Withdraws r [i] 1 L s s' := by
  have hthere := h.housed.there r hr
  set f : Record → Record := fun r =>
    r.setAttributes ((r.attributes d.category).erase d.name) d.category with hf
  set s₁ := s.modifyRecord r f
  -- the entry goes first, which leaves its reference to the ledger; then this reference is
  -- given up
  have hself : s₁.record r = f (s.record r) := record_modifyRecord_self hthere f
  have hm₁ : Moves (· ≠ r) W s (i ::ₘ L) H s₁ := h.erase_moves (W := W) hr hg
  have hconfined : Confined [r] s s₁ :=
    Confined.modifyRecord fun a => Record.home_setAttributes a _ d.category
  have hheld : (s.record r).held = i ::ₘ (s₁.record r).held := by
    rw [hself]
    exact Record.held_erase hg
  have hdemand : s.holdings + L = i ::ₘ (s₁.holdings + L) := by
    rw [holdings_erase hthere hg, Multiset.cons_add]
  obtain ⟨b, s₂, hremove, hm₂⟩ := hm₁.books.removeReference_moves
    (P := fun _ => True) (W := fun _ => False)
  -- the two lemmas about giving up a reference speak of the same run
  obtain ⟨b', s₂', hremove', -, honly, hrest, hsinks⟩ :=
    removeReference_sinks (hm₁.books.counted.congr (Multiset.add_cons ..))
  obtain ⟨rfl, rfl⟩ : b = b' ∧ s₂ = s₂' := by
    rw [hremove] at hremove'
    cases hremove'
    exact ⟨rfl, rfl⟩
  have hrecord : s₂.record r = f (s.record r) := (hm₂.spares.record _ trivial).trans hself
  refine ⟨b, s₂, hremove, hm₁.trans (hm₂.mono (fun _ _ => trivial) fun _ _ _ _ hi => hi.elim),
    ⟨fun k => ?entries, ?traceId, ?spanId, ?priority, ?marked⟩, ?held, ?sinks,
    hconfined.trans (Confined.of_onlySlots honly), fun j hj => ?others⟩
  case entries =>
    rw [hrecord]
    exact Record.entries_erase hg hl k
  case traceId | spanId | priority =>
    rw [hrecord, hf]
    cases d.category <;> rfl
  case marked =>
    rw [hm₂.spares.record _ trivial]
    exact hm₂.spares.kept _ trivial
  case held =>
    rw [hheld, honly.record, Multiset.card_cons]
  case sinks =>
    have hsame : Sinks (s.holdings + L) (s.holdings + L) [] s s₁ :=
      Sinks.of_sheds (Sheds.of_eq (fun _ => ⟨rfl, rfl⟩) rfl)
    rw [← hdemand, ← honly.holdings] at hsinks
    exact hsame.trans hsinks hconfined.home
  case others =>
    refine hrest j ?_
    rintro rfl
    exact hj.elim (· (hheld ▸ Multiset.mem_cons_self j _)) (· (List.mem_singleton_self j))

/-- An attribute that stands under no other category and name is out
afterwards. -/
theorem Books.removeNamed_moves (h : Books s L H) (hr : c.record ∈ H)
    (hl : ∀ k n, ((s.record c.record).attributes k).get? n = some i →
      k = d.category ∧ n = d.name) :
    ∃ b s', c.removeNamed d.category d.name i s = .ok b s' ∧
      Moves (· ≠ c.record) W s L H s' ∧ Withdraws c.record [i] b.toNat L s s' := by
  by_cases hg : ((s.record c.record).attributes d.category).get? d.name = some i
  · -- it is there: its entry goes, and the reference with it
    obtain ⟨b, s', hremove, hm, hout⟩ := h.withdraw_moves (W := W) hr hl hg
    refine ⟨true, s', ?_, hm, hout⟩
    simp only [Collection.removeNamed, Action.bind_apply, Action.get_apply, hg, if_true,
      Action.modify_apply, Action.discard_apply, hremove, Action.pure_apply]
  · -- it is not there, and so nowhere in the record
    have hnone : ∀ k, ∀ e ∈ ((s.record c.record).attributes k).entries, e.2 ≠ i := by
      intro k e he hi
      have hget := Keyed.get?_eq_some_iff.2 he
      obtain ⟨rfl, hn⟩ := hl k e.1 (hi ▸ hget)
      exact hg (by rw [← hn, hget, hi])
    refine ⟨false, s, ?_, Moves.refl h, (Withdraws.refl c.record L s).congr fun j hj => ?_⟩
    · simp only [Collection.removeNamed, Action.bind_apply, Action.get_apply, if_neg hg,
        Action.pure_apply]
    · obtain ⟨k, n, hn⟩ := Record.mem_held.1 hj
      have hne := hnone k (n, j) (Keyed.get?_eq_some_iff.1 hn)
      simpa using hne

/-- Attributes that are taken out one after the other. -/
theorem Books.removeEach_moves (hr : c.record ∈ H) (l : List (SlotId × Definition)) :
    ∀ s, Books s L H → (∀ e ∈ l, ∀ k n, ((s.record c.record).attributes k).get? n = some e.1 →
        k = e.2.category ∧ n = e.2.name) →
      ∃ bs s', (l.mapM fun e => c.removeNamed e.2.category e.2.name e.1) s = .ok bs s' ∧
        Moves (· ≠ c.record) W s L H s' ∧
        Withdraws c.record (l.map Prod.fst) (bs.filter id).length L s s' := by
  induction l with
  | nil => exact fun s h _ => ⟨[], s, rfl, Moves.refl h, Withdraws.refl c.record L s⟩
  | cons e l ih =>
    intro s h hl
    obtain ⟨b, s₁, hrun, hm, hout⟩ :=
      h.removeNamed_moves (W := W) hr (hl e List.mem_cons_self)
    -- what is left are entries of before, so the rest of the list is still labelled
    obtain ⟨bs, s₂, hrest, hm', hout'⟩ := ih s₁ hm.books fun x hx k n hn =>
      hl x (List.mem_cons_of_mem e hx) k n (Keyed.get?_eq_some_iff.2
        (hout.mem_of_mem (Keyed.get?_eq_some_iff.1 hn)))
    have hcount : ((b :: bs).filter id).length = b.toNat + (bs.filter id).length := by
      cases b
      · exact (Nat.zero_add _).symm
      · exact Nat.add_comm _ 1
    refine ⟨b :: bs, s₂, ?_, hm.trans hm', hcount ▸ hout.trans hout'⟩
    rw [Action.mapM_cons, hrun]
    simp only [hrest]

/-- **Attributes that are taken out are out, and all others stay.** -/
theorem Books.removeMany_moves (h : Books s L H) (hr : c.record ∈ H) (slots : List SlotId) :
    ∃ n s', c.removeMany slots s = .ok n s' ∧ Moves (· ≠ c.record) W s L H s' ∧
      Withdraws c.record slots n L s s' := by
  set bound := slots.filterMap fun i => (s.slot i).definition.map fun d => (i, d) with hbound
  set ordered := Category.all.flatMap fun k => bound.filter fun e => e.2.category = k
    with hordered
  -- the slots are sorted by category, which changes their order only
  have hmem : ∀ e, e ∈ ordered ↔ e.1 ∈ slots ∧ (s.slot e.1).definition = some e.2 := by
    rintro ⟨i, d⟩
    have hall : d.category ∈ Category.all := by cases d.category <;> decide
    simp only [hordered, hbound, List.mem_flatMap, List.mem_filter, List.mem_filterMap,
      Option.map_eq_some_iff, Prod.mk.injEq, decide_eq_true_eq]
    constructor
    · rintro ⟨k, -, ⟨j, hj, d', hd', rfl, rfl⟩, -⟩
      exact ⟨hj, hd'⟩
    · rintro ⟨hi, hd⟩
      exact ⟨_, hall, ⟨i, hi, d, hd, rfl, rfl⟩, rfl⟩
  obtain ⟨bs, s', hrun, hm, hout⟩ := Books.removeEach_moves (W := W) (L := L) hr ordered s h
    fun e he k n hn => by
      obtain ⟨d, hd, hname, hcategory⟩ := h.labelled _ _ _ _ hn
      rw [((hmem e).1 he).2, Option.some.injEq] at hd
      exact hd ▸ ⟨hcategory.symm, hname.symm⟩
  refine ⟨(bs.filter id).length, s', ?_, hm, hout.congr fun i hi => ?_⟩
  · simp only [Collection.removeMany, Action.bind_apply, Action.get_apply, ← hbound, ← hordered,
      hrun, Action.pure_apply]
  · -- a held slot has the definition under which it stands, so it is named if and only if
    -- it is ordered
    rw [List.mem_map]
    constructor
    · rintro ⟨x, hx, rfl⟩
      exact ((hmem x).1 hx).1
    · intro hslots
      obtain ⟨k, n, hn⟩ := Record.mem_held.1 hi
      obtain ⟨d, hd, -⟩ := h.labelled _ _ _ _ hn
      exact ⟨(i, d), (hmem _).2 ⟨hslots, hd⟩, rfl⟩

end Store
end Telemetry
