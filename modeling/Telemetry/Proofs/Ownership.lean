/-
# Who has an item

Items may be offered as often as one likes, to any pool, and by everybody who
has a handle; all that keeps them apart is their mark.  A storage is entered by
items without a mark alone, and an item has its mark from then until it is lent.
So no item is in two places, what is in a storage is marked (`Exclusive`), and
what was lent stays outside until a pool stores it anew (`Outside`).

Items that a pool discards keep their mark.  They are in no storage, and no
pool will ever store them again (`isMarked_iff`).
-/

import Telemetry.Proofs.Courses

namespace Telemetry
namespace Depot

variable {d d' : Depot} {e : Deed} {es : List Deed} {p q : PoolId} {i : ItemId}

/-! ### Entering and leaving -/

namespace Deed

/-- Only an offer that is accepted brings an item in. -/
theorem offered_of_mem_entering (h : i ∈ e.entering) : ∃ q, e = offered q i none := by
  match e, h with
  | offered q j none, h => exact ⟨q, by rw [List.mem_singleton.1 h]⟩

/-- What comes in is marked. -/
theorem marking_of_mem_entering (h : i ∈ e.entering) : e.marking i = some true := by
  obtain ⟨q, rfl⟩ := offered_of_mem_entering h
  exact if_pos rfl

/-- A mark is set when the item is stored. -/
theorem offered_of_marking (h : e.marking i = some true) : ∃ p, e = offered p i none := by
  match e, h with
  | lent p j, h => simp [marking] at h
  | offered p j none, h => exact ⟨p, by simp_all [marking]⟩

/-- A mark is cleared when the item is lent. -/
theorem lent_of_marking (h : e.marking i = some false) : ∃ p, e = lent p i := by
  match e, h with
  | lent p j, h => exact ⟨p, by simp_all [marking]⟩
  | offered _ j none, h => simp [marking] at h

/-- Where something comes in, nothing goes out. -/
theorem leaving_of_mem_entering (h : i ∈ e.entering) : e.leaving = [] := by
  obtain ⟨q, rfl⟩ := offered_of_mem_entering h
  rfl

/-- What leaves a storage is lent or discarded, unless it has no mark. -/
theorem of_mem_leaving (h : i ∈ e.leaving) :
    (∃ p, e = lent p i) ∨ (∃ p, e = stuck p i) ∨ (i ∈ e.discarding ∧ e.marking i = none) := by
  match e, h with
  | lent p j, h => exact .inl ⟨p, by rw [List.mem_singleton.1 h]⟩
  | stuck p j, h => exact .inr (.inl ⟨p, by rw [List.mem_singleton.1 h]⟩)
  | closed _ _ _, h => exact .inr (.inr ⟨h, rfl⟩)
  | gone _ _, h => exact .inr (.inr ⟨h, rfl⟩)

/-- No deed brings an item in twice. -/
theorem nodup_entering (e : Deed) : e.entering.Nodup := by
  unfold entering
  split
  · exact List.nodup_singleton _
  · exact List.nodup_nil

/-- What is discarded goes out. -/
theorem mem_leaving_of_mem_discarding (h : i ∈ e.discarding) : i ∈ e.leaving := by
  match e, h with
  | closed _ _ _, h => exact h
  | gone _ _, h => exact h

end Deed

namespace Effect

/-- What enters a storage has no mark. -/
theorem unmarked_of_mem_entering (h : Effect d e d') (hi : i ∈ e.entering) :
    d.isMarked i = false := by
  obtain ⟨q, rfl⟩ := Deed.offered_of_mem_entering hi
  exact Bool.eq_false_iff.2 fun hm => nomatch h.permitted.2.2 hm

/-- What is stored afterwards was stored before or has come in. -/
theorem of_mem_stored (h : Effect d e d') (hi : i ∈ d'.stored q) :
    i ∈ d.stored q ∨ q = e.pool ∧ i ∈ e.entering := by
  by_cases hq : q = e.pool
  · subst hq
    have hmem : i ∈ d.stored e.pool ++ e.entering :=
      h.storage ▸ List.mem_append_right _ hi
    exact (List.mem_append.1 hmem).imp_right fun hi => ⟨rfl, hi⟩
  · rw [stored, h.others q hq] at hi
    exact .inl hi

/-- What goes out was stored. -/
theorem mem_stored_of_mem_leaving (h : Effect d e d') (hi : i ∈ e.leaving) :
    i ∈ d.stored e.pool := by
  have hmem : i ∈ d.stored e.pool ++ e.entering := h.storage ▸ List.mem_append_left _ hi
  refine (List.mem_append.1 hmem).resolve_right fun henter => ?_
  rw [Deed.leaving_of_mem_entering henter] at hi
  exact List.not_mem_nil hi

/-- What is stored stays so, unless it leaves. -/
theorem mem_stored (h : Effect d e d') (hi : i ∈ d.stored q) :
    i ∈ d'.stored q ∨ q = e.pool ∧ i ∈ e.leaving := by
  by_cases hq : q = e.pool
  · subst hq
    have hmem : i ∈ e.leaving ++ d'.stored e.pool := h.storage ▸ List.mem_append_left _ hi
    exact (List.mem_append.1 hmem).symm.imp_right fun hi => ⟨rfl, hi⟩
  · rw [stored, h.others q hq]
    exact .inl hi

/-- What comes in is stored. -/
theorem mem_stored_of_mem_entering (h : Effect d e d') (hi : i ∈ e.entering) :
    i ∈ d'.stored e.pool := by
  have hmem : i ∈ e.leaving ++ d'.stored e.pool := h.storage ▸ List.mem_append_right _ hi
  rwa [Deed.leaving_of_mem_entering hi, List.nil_append] at hmem

end Effect

/-! ### One place for each item -/

/-- Every item is in at most one place of one storage, and marked while it is
there. -/
structure Exclusive (d : Depot) : Prop where
  once : ∀ p, (d.stored p).Nodup
  apart : ∀ p q i, i ∈ d.stored p → i ∈ d.stored q → p = q
  marked : ∀ p i, i ∈ d.stored p → d.isMarked i = true

namespace Exclusive

/-- Single owners are a matter of items and shelves. -/
theorem congr (h : Exclusive d) (hitems : d'.items = d.items) (hshelves : d'.shelves = d.shelves) :
    Exclusive d' := by
  constructor <;> simp only [stored_congr hshelves, isMarked_congr hitems]
  · exact h.once
  · exact h.apart
  · exact h.marked

/-- What enters a storage was in none. -/
theorem not_mem_of_mem_entering (h : Exclusive d) (he : Effect d e d') (hi : i ∈ e.entering) :
    i ∉ d.stored q := by
  intro hq
  have hunmarked := he.unmarked_of_mem_entering hi
  rw [h.marked q i hq] at hunmarked
  cases hunmarked

/-- What passed through the storage of a pool passed through it once. -/
theorem nodup_leaving_append (h : Exclusive d) (he : Effect d e d') :
    (e.leaving ++ d'.stored e.pool).Nodup := by
  rw [← he.storage, List.nodup_append]
  refine ⟨h.once _, e.nodup_entering, ?_⟩
  rintro i hi j hj rfl
  exact h.not_mem_of_mem_entering he hj hi

/-- What leaves the storage of a pool is in no storage then. -/
theorem not_mem_of_mem_leaving (h : Exclusive d) (he : Effect d e d') (hi : i ∈ e.leaving) :
    i ∉ d'.stored q := by
  have hpool := he.mem_stored_of_mem_leaving hi
  intro hq
  rcases he.of_mem_stored hq with hbefore | ⟨-, henter⟩
  · obtain rfl := h.apart _ _ i hpool hbefore
    exact List.disjoint_of_nodup_append (h.nodup_leaving_append he) hi hq
  · exact h.not_mem_of_mem_entering he henter hpool

/-- What a deed preserves. -/
theorem deed (h : Exclusive d) (he : Effect d e d') : Exclusive d' := by
  constructor
  case once =>
    intro q
    -- only the pool of the deed stores anything new
    by_cases hq : q = e.pool
    · subst hq
      exact (h.nodup_leaving_append he).of_append_right
    · rw [stored, he.others q hq]
      exact h.once q
  case apart =>
    intro p q i hp hq
    -- an item that comes in was in no pool, so it cannot be in two of them now
    rcases he.of_mem_stored hp with hp' | ⟨rfl, hp'⟩
    · rcases he.of_mem_stored hq with hq' | ⟨rfl, hq'⟩
      · exact h.apart p q i hp' hq'
      · exact absurd hp' (h.not_mem_of_mem_entering he hq')
    · rcases he.of_mem_stored hq with hq' | ⟨rfl, -⟩
      · exact absurd hq' (h.not_mem_of_mem_entering he hp')
      · rfl
  case marked =>
    intro p i hp
    rw [he.marks]
    cases hm : e.marking i with
    | some b =>
      cases b with
      | true => rfl
      | false =>
        -- only taking unmarks an item, and what is taken leaves the storage
        obtain ⟨q, rfl⟩ := Deed.lent_of_marking hm
        exact absurd hp (h.not_mem_of_mem_leaving he (List.mem_singleton_self i))
    | none =>
      rcases he.of_mem_stored hp with hp' | ⟨-, hp'⟩
      · exact h.marked p i hp'
      · rw [Deed.marking_of_mem_entering hp'] at hm
        cases hm

/-- Deeds in turn keep single owners. -/
theorem course (h : Exclusive d) (hc : Course d es d') : Exclusive d' := by
  induction hc with
  | refl => exact h
  | quiet _ hitems hshelves ih => exact ih.congr hitems hshelves
  | deed _ he ih => exact ih.deed he.effect

/-- In the empty depot nothing has two owners. -/
theorem empty : Exclusive {} := by
  constructor <;> simp

end Exclusive

/-! ### Items outside -/

/-- The item is there, and in no storage. -/
structure Outside (d : Depot) (i : ItemId) : Prop where
  made : i < d.items.size
  apart : ∀ q, i ∉ d.stored q

namespace Outside

/-- An item outside of the pools stays there until a deed brings it in. -/
theorem deed (h : d.Outside i) (he : Effect d e d') (hi : i ∉ e.entering) : d'.Outside i := by
  refine ⟨h.made.trans_le he.items, fun q hq => ?_⟩
  rcases he.of_mem_stored hq with hq | ⟨-, henter⟩
  · exact h.apart q hq
  · exact hi henter

/-- Only a pool that stores the item takes it from outside. -/
theorem course (h : d.Outside i) (hc : Course d es d') (hes : ∀ q, .offered q i none ∉ es) :
    d'.Outside i := by
  induction hc with
  | refl => exact h
  | quiet _ hitems hshelves ih =>
    refine ⟨hitems ▸ (ih hes).made, fun q => ?_⟩
    rw [stored_congr hshelves]
    exact (ih hes).apart q
  | @deed es e d₁ d₂ _ he ih =>
    have hrun := ih fun q hq => hes q (List.mem_append_left _ hq)
    refine hrun.deed he.effect fun henter => ?_
    obtain ⟨q, rfl⟩ := Deed.offered_of_mem_entering henter
    exact hes q (List.mem_append_right _ (List.mem_singleton_self _))

/-- What is outside is not handed out. -/
theorem not_hands (h : d.Outside i) (he : Effect d e d') : ¬ e.Hands i := by
  intro hhands
  match e, he, hhands with
  | .lent p j, he, hhands =>
    obtain rfl : j = i := hhands
    exact h.apart p (he.mem_stored_of_mem_leaving (List.mem_singleton_self j))
  | .made p j, he, hhands =>
    obtain rfl : j = i := hhands
    have hfresh : j = d.items.size := he.permitted
    exact h.made.ne hfresh

end Outside

/-- What is handed out is outside and has no mark. -/
theorem Exclusive.outside_of_hands (h : Exclusive d) (he : Effect d e d') (hi : e.Hands i) :
    d'.Outside i ∧ d'.isMarked i = false := by
  match e, he, hi with
  | .lent p j, he, hi =>
    obtain rfl : j = i := hi
    have hleaves : j ∈ (Deed.lent p j).leaving := List.mem_singleton_self j
    have hmarked := h.marked p j (he.mem_stored_of_mem_leaving hleaves)
    refine ⟨⟨(lt_size_of_isMarked hmarked).trans_le he.items, fun q =>
      h.not_mem_of_mem_leaving he hleaves⟩, ?_⟩
    rw [he.marks, Deed.marking, if_pos rfl]
    rfl
  | .made p j, he, hi =>
    obtain rfl : j = i := hi
    have hfresh : j = d.items.size := he.permitted
    have hunmarked : d.isMarked j = false := isMarked_of_size_le hfresh.ge
    refine ⟨⟨he.fresh p j rfl, fun q hq => ?_⟩, (he.marks j).trans hunmarked⟩
    rcases he.of_mem_stored hq with hq | ⟨-, henter⟩
    · rw [h.marked q j hq] at hunmarked
      cases hunmarked
    · cases henter

/-- Taking from a pool hands out an item. -/
theorem Exclusive.take_hands (h : Exclusive d) (p : PoolId) :
    ∃ i, (d.take p).1 = some i ∧ (d.taking p).Hands i := by
  cases hs : (d.shelf p).pool.stored with
  | nil =>
    obtain ⟨he, hd⟩ := take_of_nil hs
    exact ⟨d.items.size, by rw [hd], by rw [he]; rfl⟩
  | cons i rest =>
    have hmem : i ∈ d.stored p := by
      rw [stored, hs]
      exact List.mem_cons_self
    have hmarked := h.marked p i hmem
    have hcons := take_of_cons hs
    rw [if_pos hmarked] at hcons
    exact ⟨i, by rw [hcons.2], by rw [hcons.1]; rfl⟩

/-- No pool stores an item that is not marked. -/
theorem Exclusive.not_stuck (h : Exclusive d) (he : Effect d e d') (p : PoolId) (i : ItemId) :
    e ≠ .stuck p i := by
  rintro rfl
  have hmarked := h.marked p i (he.mem_stored_of_mem_leaving (List.mem_singleton_self i))
  have hunmarked : d.isMarked i = false := he.permitted
  rw [hmarked] at hunmarked
  cases hunmarked

/-- An offer of a marked item is refused, and leaves pools and items alone. -/
theorem put_refused (p : PoolId) (h : d.isMarked i = true) :
    (d.put p i).1 = some .alreadyPooled ∧ (d.put p i).2.shelves = d.shelves ∧
      (d.put p i).2.items = d.items := by
  rw [put_of_marked p h]
  exact ⟨rfl, setPool_self d p, rfl⟩

/-- **Nobody shares an item with a pool.**  After any course of deeds, and so after
any commands (`run_course`), every item is in at most one place and marked while
it is there; so no pool is ever stuck, what a pool lends has no mark and is in no
storage, nobody is lent an item again before a pool stored it anew, and an item
in storage is refused by every pool without a trace. -/
theorem Course.exclusive_ownership (h : Course {} es d) :
    Exclusive d ∧ (∀ p i, .stuck p i ∉ es) ∧
      (∀ p, p < d.shelves.size → ∃ i, (d.take p).1 = some i ∧ (d.taking p).Hands i ∧
        (d.take p).2.Outside i ∧ (d.take p).2.isMarked i = false) ∧
      (∀ i e e' as bs cs, es = as ++ e :: (bs ++ e' :: cs) → e.Hands i → e'.Hands i →
        ∃ q, .offered q i none ∈ bs) ∧
      ∀ p q i, i ∈ d.stored q → (d.put p i).1 = some .alreadyPooled ∧
        (d.put p i).2.shelves = d.shelves ∧ (d.put p i).2.items = d.items := by
  have hfinal := Exclusive.empty.course h
  refine ⟨hfinal, fun p i hstuck => ?stuck, fun p hp => ?takes, ?twice,
    fun p q i hi => put_refused p (hfinal.marked q i hi)⟩
  case stuck =>
    -- a course up to the deed keeps single owners, which a deed on a marked item
    -- contradicts
    obtain ⟨as, cs, rfl⟩ := List.append_of_mem hstuck
    obtain ⟨d₁, d₂, h₁, he, -⟩ := h.passes
    exact (Exclusive.empty.course h₁).not_stuck he.effect p i rfl
  case takes =>
    obtain ⟨i, hi, hhands⟩ := hfinal.take_hands p
    obtain ⟨hout, hunmarked⟩ := hfinal.outside_of_hands (Does.takes hp).effect hhands
    exact ⟨i, hi, hhands, hout, hunmarked⟩
  case twice =>
    rintro i e e' as bs cs rfl hfirst hsecond
    -- between the two the item would be outside of all pools, where nothing is taken from
    by_contra hnone
    obtain ⟨d₁, d₂, h₁, he, hrest⟩ := h.passes
    obtain ⟨d₃, d₄, h₃, he', -⟩ := hrest.passes
    have hout := ((Exclusive.empty.course h₁).outside_of_hands he.effect hfirst).1
    exact (hout.course h₃ (not_exists.1 hnone)).not_hands he'.effect hsecond

/-- Two pools, and an item that the first one stores while a handle names it. -/
def shelved : Depot :=
  (({} : Depot).run [.setUp "a" "item" (.ofCapacity 1), .setUp "b" "item" (.ofCapacity 1),
    .take "a" "x", .put "a" "x" true]).2

/-- Two pools, one item made and given back: a course from the empty depot. -/
theorem shelved_course :
    Course {} [.opened 0, .opened 1, .made 0 0, .offered 0 0 none] shelved := by
  have first : Course {} [.opened 0] _ :=
    .single (.opens ⟨"item", "a", 0, .ofConfig (.ofCapacity 1)⟩ (.ofCapacity 1) rfl rfl)
  have second : Course {} [.opened 0, .opened 1] _ :=
    first.deed (.opens ⟨"item", "b", 0, .ofConfig (.ofCapacity 1)⟩ (.ofCapacity 1) rfl rfl)
  have taken : Course {} [.opened 0, .opened 1, .made 0 0] _ :=
    second.deed (.takes (p := 0) (by decide))
  have stored : Course {} [.opened 0, .opened 1, .made 0 0, .offered 0 0 none] _ :=
    taken.deed (.puts (p := 0) (i := 0) (by decide) (by decide))
  exact stored.quiet rfl rfl

/-- The item is offered to the other pool, too, and lent once more. -/
theorem exclusive_ownership_shelved :
    let d := (shelved.run [.put "b" "x" true, .take "a" "y"]).2
    let es : List Deed := [.opened 0, .opened 1, .made 0 0, .offered 0 0 none,
      .offered 1 0 (some .alreadyPooled), .lent 0 0]
    Course {} es d ∧ Exclusive d ∧
      ∃ q, Deed.offered q 0 none ∈ [.offered 0 0 none, .offered 1 0 (some .alreadyPooled)] := by
  have offered : Course shelved [.offered 1 0 (some .alreadyPooled)] _ :=
    .single (.puts (p := 1) (i := 0) (by decide) (by decide))
  have lent : Course shelved [.offered 1 0 (some .alreadyPooled), .lent 0 0]
      (shelved.run [.put "b" "x" true, .take "a" "y"]).2 :=
    (offered.deed (.takes (p := 0) (by decide))).quiet rfl rfl
  have final := shelved_course.trans lent
  obtain ⟨hexclusive, -, -, htwice, -⟩ := final.exclusive_ownership
  exact ⟨final, hexclusive, htwice 0 (.made 0 0) (.lent 0 0) [.opened 0, .opened 1]
    [.offered 0 0 none, .offered 1 0 (some .alreadyPooled)] [] rfl rfl rfl⟩

/-! ### Marks of discarded items -/

/-- Some deed discarded the item. -/
def Discarded (es : List Deed) (i : ItemId) : Prop := ∃ e ∈ es, i ∈ e.discarding

/-- One deed more discards what it discards. -/
theorem discarded_snoc : Discarded (es ++ [e]) i ↔ Discarded es i ∨ i ∈ e.discarding := by
  simp [Discarded, or_and_right, exists_or]

/-- A marked item is in a storage or was discarded, and not both. -/
structure Kept (es : List Deed) (d : Depot) : Prop where
  exclusive : Exclusive d
  marked : ∀ i, d.isMarked i = true ↔ (∃ p, i ∈ d.stored p) ∨ Discarded es i
  apart : ∀ i p, i ∈ d.stored p → ¬ Discarded es i

namespace Kept

/-- An item that comes in was not discarded before, since it would still be marked. -/
theorem not_discarded_of_mem_entering (h : Kept es d) (he : Effect d e d') (hi : i ∈ e.entering) :
    ¬ Discarded es i := by
  intro hdiscarded
  have hunmarked := he.unmarked_of_mem_entering hi
  rw [(h.marked i).2 (.inr hdiscarded)] at hunmarked
  cases hunmarked

/-- Without a change of its mark, an item is where it was or was discarded. -/
theorem stored_iff (h : Kept es d) (he : Effect d e d') (hm : e.marking i = none) :
    (∃ p, i ∈ d'.stored p) ∨ i ∈ e.discarding ↔ ∃ p, i ∈ d.stored p := by
  constructor
  · rintro (⟨p, hp⟩ | hi)
    · rcases he.of_mem_stored hp with hp | ⟨-, henter⟩
      · exact ⟨p, hp⟩
      · rw [Deed.marking_of_mem_entering henter] at hm
        cases hm
    · exact ⟨_, he.mem_stored_of_mem_leaving (Deed.mem_leaving_of_mem_discarding hi)⟩
  · rintro ⟨p, hp⟩
    rcases he.mem_stored hp with hp | ⟨-, hleave⟩
    · exact .inl ⟨p, hp⟩
    · rcases Deed.of_mem_leaving hleave with ⟨q, rfl⟩ | ⟨q, rfl⟩ | ⟨hi, -⟩
      · rw [Deed.marking, if_pos rfl] at hm
        cases hm
      · exact absurd rfl (h.exclusive.not_stuck he q i)
      · exact .inr hi

/-- One deed more keeps the discarded items apart from the stored ones. -/
theorem deed (h : Kept es d) (he : Effect d e d') : Kept (es ++ [e]) d' := by
  constructor
  case exclusive => exact h.exclusive.deed he
  case apart =>
    intro i p hp
    rw [discarded_snoc]
    rintro (hbefore | hnow)
    · -- an item discarded before was not stored, and does not come in, for it is still
      -- marked
      rcases he.of_mem_stored hp with hp | ⟨-, henter⟩
      · exact h.apart i p hp hbefore
      · exact h.not_discarded_of_mem_entering he henter hbefore
    · exact h.exclusive.not_mem_of_mem_leaving he (Deed.mem_leaving_of_mem_discarding hnow) hp
  case marked =>
    intro i
    rw [he.marks, discarded_snoc]
    cases hm : e.marking i with
    | none =>
      -- no mark changes, so what is stored or discarded is so before and after
      rw [Option.getD_none, h.marked, ← h.stored_iff he hm]
      tauto
    | some b =>
      cases b with
      | true =>
        obtain ⟨q, rfl⟩ := Deed.offered_of_marking hm
        exact iff_of_true rfl (.inl ⟨q, he.mem_stored_of_mem_entering (List.mem_singleton_self i)⟩)
      | false =>
        obtain ⟨q, rfl⟩ := Deed.lent_of_marking hm
        have hleave : i ∈ (Deed.lent q i).leaving := List.mem_singleton_self i
        -- an item that is handed out is neither stored nor discarded afterwards
        refine iff_of_false (by simp) ?_
        rintro (⟨p, hp⟩ | hbefore | hnow)
        · exact h.exclusive.not_mem_of_mem_leaving he hleave hp
        · exact h.apart i q (he.mem_stored_of_mem_leaving hleave) hbefore
        · cases hnow

/-- A course keeps the discarded items apart from the stored ones. -/
theorem course (h : Course {} es d) : Kept es d := by
  induction h with
  | refl =>
    refine ⟨.empty, fun i => ?_, by simp⟩
    simp [Discarded, isMarked_of_size_le (d := {}) (Nat.zero_le i)]
  | quiet _ hitems hshelves ih =>
    refine ⟨ih.exclusive.congr hitems hshelves, ?_, ?_⟩
    · simpa only [stored_congr hshelves, isMarked_congr hitems] using ih.marked
    · simpa only [stored_congr hshelves] using ih.apart
  | deed _ he ih => exact ih.deed he.effect

end Kept

/-- An offer is refused as a misuse if the item is marked, and only then. -/
theorem put_refused_iff (p : PoolId) :
    (d.put p i).1 = some .alreadyPooled ↔ d.isMarked i = true := by
  refine ⟨fun h => ?_, fun h => (put_refused p h).1⟩
  by_contra hm
  rw [Bool.not_eq_true] at hm
  by_cases hroom : (d.shelf p).pool.stored.length < (d.shelf p).pool.capacity
  · rw [put_of_room hm hroom] at h
    cases h
  · rw [put_of_full hm hroom] at h
    cases h

/-- **What is discarded is refused for ever.**  After any course of deeds an item
has its mark if it is in a storage or was discarded by the end of a window or
along with its pool, of which at most one is so; then all pools refuse it, and an
item that was discarded they refuse from then on. -/
theorem Course.refusals (h : Course {} es d) (i : ItemId) :
    (d.isMarked i = true ↔ (∃ p, i ∈ d.stored p) ∨ Discarded es i) ∧
      ¬ ((∃ p, i ∈ d.stored p) ∧ Discarded es i) ∧
      (∀ p, (d.put p i).1 = some .alreadyPooled ↔ d.isMarked i = true) ∧
      ∀ fs d' p, Course d fs d' → Discarded es i → (d'.put p i).1 = some .alreadyPooled := by
  have hkept := Kept.course h
  refine ⟨hkept.marked i, ?_, fun p => put_refused_iff p, fun fs d' p hfs hi => ?_⟩
  · rintro ⟨⟨p, hp⟩, hi⟩
    exact hkept.apart i p hp hi
  · have hlater : Discarded (es ++ fs) i := hi.imp fun e he => ⟨List.mem_append_left _ he.1, he.2⟩
    exact (put_refused_iff p).2 (((Kept.course (h.trans hfs)).marked i).2 (.inr hlater))

/-- The first pool is given up. -/
theorem refusals_of_lost :
    let d := (shelved.run [.dropPool "a"]).2
    let es : List Deed := [.opened 0, .opened 1, .made 0 0, .offered 0 0 none, .gone 0 [0]]
    Course {} es d ∧ d.isMarked 0 = true ∧ ¬ (∃ p, 0 ∈ d.stored p) ∧
      (d.put 1 0).1 = some .alreadyPooled := by
  have lost : Course shelved [.gone 0 [0]] (shelved.run [.dropPool "a"]).2 :=
    (Course.single (.dissolves (p := 0) (by decide))).quiet rfl rfl
  have final := shelved_course.trans lost
  have hdiscarded : Discarded [.opened 0, .opened 1, .made 0 0, .offered 0 0 none, .gone 0 [0]] 0 :=
    ⟨.gone 0 [0], by simp, List.mem_singleton_self 0⟩
  obtain ⟨hmarked, hone, hrefused, -⟩ := final.refusals 0
  exact ⟨final, hmarked.2 (.inr hdiscarded), fun hstored => hone ⟨hstored, hdiscarded⟩,
    (hrefused 1).2 (hmarked.2 (.inr hdiscarded))⟩

/-- An item that no shelf stores is in no pool. -/
theorem not_mem_stored_of_all (h : d.shelves.all (fun s => !s.pool.stored.contains i) = true)
    (p : PoolId) : i ∉ d.stored p := by
  by_cases hp : p < d.shelves.size
  · have hshelf := Array.all_eq_true.1 h p hp
    simpa [stored, shelf, hp] using hshelf
  · rw [stored, shelf_of_size_le (Nat.not_lt.1 hp)]
    exact List.not_mem_nil

/-- The end of a window can leave an item marked that a handle names and no pool
stores. -/
theorem refused_after_tick :
    let d := (shelved.run [.update "a", .update "a"]).2
    d.handles.get? "x" = some 0 ∧ d.isMarked 0 = true ∧ (∀ p, 0 ∉ d.stored p) ∧
      (d.step (.put "b" "x" true)).1 = .offered (some .alreadyPooled) :=
  ⟨rfl, rfl, not_mem_stored_of_all (by decide +kernel), rfl⟩

end Depot
end Telemetry
