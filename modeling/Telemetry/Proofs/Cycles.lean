/-
# Taking items and giving them back

Taking several items from a pool empties its storage from the old end and has
the others made (`Lends`).  Giving back items without a mark fills up what room
there is, and what comes later is overflow (`putMany_receives`).  Between the two
the room depends on how many items were stored at first: a pool may store more
than its capacity, and then the first items taken make no room at all.

`Course.gives_back` puts the two together, for every pool of every depot that
commands can lead to.
-/

import Telemetry.Proofs.Limits
import Telemetry.Proofs.Ownership

namespace Telemetry
namespace Pool

variable {α : Type}

/-- Each offer of the batch counts as a return, and each that finds no room as an overflow,
too. -/
theorem Receives.window_eq {q q' : Pool α} {xs : List α} (h : q.Receives xs q') :
    q'.window = q.window +
      ⟨0, 0, xs.length, xs.length - min xs.length (q.capacity - q.stored.length)⟩ := by
  ext <;> simp [h.takes, h.misses, h.returns, h.overflow]

end Pool

namespace Depot

variable {d d₁ d₂ d' : Depot} {es : List Deed} {p : PoolId} {i : ItemId} {items is : List ItemId}
  {n : Nat}

/-! ### Taking -/

/-- What taking `n` items one after the other comes to. -/
structure Lends (d : Depot) (p : PoolId) (n : Nat) (items : List ItemId) (d' : Depot) : Prop where
  /-- The stored items come first, the oldest one in front, and then those that
  are made. -/
  order : items = (d.stored p).take n ++ List.range' d.items.size (n - (d.stored p).length)
  stored : d'.stored p = (d.stored p).drop n
  window : d'.window p = d.window p + ⟨n, n - (d.stored p).length, 0, 0⟩
  capacity : (d'.shelf p).pool.capacity = (d.shelf p).pool.capacity
  made : d'.items.size = d.items.size + (n - (d.stored p).length)
  shelves : d'.shelves.size = d.shelves.size
  /-- What is taken has no mark then. -/
  marks : ∀ i, d'.isMarked i = (d.isMarked i && !items.contains i)

namespace Lends

/-- As many items are taken as were asked for. -/
theorem length (h : Lends d p n items d') : items.length = n := by
  rw [h.order, List.length_append, List.length_take, List.length_range']
  omega

/-- In a depot without an item in two places the items taken differ. -/
theorem nodup (h : Lends d p n items d') (hd : Exclusive d) : items.Nodup := by
  rw [h.order, List.nodup_append]
  refine ⟨(hd.once p).sublist (List.take_sublist _ _), List.nodup_range', ?_⟩
  rintro i hi j hj rfl
  have hstored := lt_size_of_isMarked (hd.marked p i (List.mem_of_mem_take hi))
  exact absurd hstored (Nat.not_lt.2 (List.mem_range'_1.1 hj).1)

/-- No item that was taken is marked. -/
theorem unmarked (h : Lends d p n items d') (hi : i ∈ items) : d'.isMarked i = false := by
  simp [h.marks, hi]

/-- What is taken is there. -/
theorem lt_size (h : Lends d p n items d') (hd : Exclusive d) (hi : i ∈ items) :
    i < d'.items.size := by
  rw [h.order, List.mem_append] at hi
  rw [h.made]
  rcases hi with hi | hi
  · have hstored := lt_size_of_isMarked (hd.marked p i (List.mem_of_mem_take hi))
    exact hstored.trans_le (Nat.le_add_right _ _)
  · exact (List.mem_range'_1.1 hi).2

/-- Taking nothing lends nothing. -/
theorem zero (d : Depot) (p : PoolId) : Lends d p 0 [] d := by
  constructor <;> simp
  rfl

/-- One item more, taken first. -/
theorem cons (h : Lends d p 1 [i] d₁) (h' : Lends d₁ p n is d₂) :
    Lends d p (n + 1) (i :: is) d₂ := by
  have horder := h.order
  have hstored := h.stored
  have hmade := h.made
  constructor
  case order =>
    rw [h'.order, hstored, hmade]
    -- an empty storage makes the item, and any other one hands out its oldest
    cases hs : d.stored p with
    | nil =>
      rw [hs] at horder
      simp_all [List.range'_succ]
    | cons x rest =>
      rw [hs] at horder
      simp_all
  case stored => rw [h'.stored, hstored, List.drop_drop, Nat.add_comm]
  case window =>
    rw [h'.window, h.window, hstored, add_assoc, List.length_drop]
    congr 1
    ext <;> simp <;> omega
  case capacity => rw [h'.capacity, h.capacity]
  case made =>
    rw [h'.made, hmade, hstored, List.length_drop]
    omega
  case shelves => rw [h'.shelves, h.shelves]
  case marks =>
    intro j
    rw [h'.marks, h.marks]
    by_cases hj : j = i <;> simp [hj]

end Lends

/-- A pool lends one item. -/
theorem Exclusive.take_lends (h : Exclusive d) (hp : p < d.shelves.size) :
    ∃ i, (d.take p).1 = some i ∧ Lends d p 1 [i] (d.take p).2 := by
  have hstored : (d.take p).2.stored p = (d.stored p).drop 1 := by
    rw [stored, pool_take hp, Pool.take_stored_eq, stored]
  have hwindow : (d.take p).2.window p = d.window p + ⟨1, 1 - (d.stored p).length, 0, 0⟩ := by
    rw [window, pool_take hp, Pool.take_window_eq, window, stored]
  have hcapacity : ((d.take p).2.shelf p).pool.capacity = (d.shelf p).pool.capacity := by
    rw [pool_take hp, Pool.take_capacity]
  have hmarks := (takes_effect hp).marks
  cases hs : (d.shelf p).pool.stored with
  | nil =>
    -- an item is made
    obtain ⟨hdeed, htake⟩ := take_of_nil hs
    rw [hdeed] at hmarks
    refine ⟨d.items.size, by rw [htake], ?_, hstored, hwindow, hcapacity, ?_, ?_, fun j => ?_⟩
    · simp [stored, hs]
    · rw [htake, stored, hs]
      exact size_make _ p
    · simp [htake, make, setPool]
    · by_cases hj : j = d.items.size <;> simp [hmarks, hj, Deed.marking, isMarked_of_size_le]
  | cons i rest =>
    -- the oldest item is lent
    have hcons := take_of_cons hs
    have hmarked : d.isMarked i = true := h.marked p i (by simp [stored, hs])
    rw [if_pos hmarked] at hcons
    obtain ⟨hdeed, htake⟩ := hcons
    rw [hdeed] at hmarks
    refine ⟨i, by rw [htake], ?_, hstored, hwindow, hcapacity, ?_, ?_, fun j => ?_⟩
    · simp [stored, hs]
    · simp [htake, mark, setPool, stored, hs]
    · simp [htake, mark, setPool]
    · by_cases hj : i = j
      · simp [hmarks, hj, Deed.marking]
      · simp [hmarks, hj, Ne.symm hj, Deed.marking]

/-- Many items are taken one by one; a pool never runs short, since it makes what it does
not store. -/
theorem takeMany_lends (n : Nat) : ∀ {d : Depot}, Exclusive d → p < d.shelves.size →
    ∃ items d', d.takeMany p n = (some items, d') ∧ Lends d p n items d' := by
  induction n with
  | zero => exact fun _ _ => ⟨[], _, rfl, .zero _ p⟩
  | succ n ih =>
    intro d h hp
    obtain ⟨i, hi, hfirst⟩ := h.take_lends hp
    obtain ⟨is, d₂, hrest, hothers⟩ :=
      ih (h.deed (takes_effect hp)) (hfirst.shelves.ge.trans_lt' hp)
    refine ⟨i :: is, d₂, ?_, hfirst.cons hothers⟩
    rw [takeMany, ← Prod.mk.eta (p := d.take p), hi]
    dsimp only
    rw [hrest]

/-! ### Giving back -/

/-- An offer changes no mark but that of the item. -/
theorem isMarked_put_of_ne (hp : p < d.shelves.size) (hi : i < d.items.size) {j : ItemId}
    (hj : i ≠ j) : (d.put p i).2.isMarked j = d.isMarked j := by
  rw [(puts_effect hp hi).marks]
  rcases (d.put p i).1 with - | refusal <;> simp [Deed.marking, hj]

/-- Items without a mark, all different, are offered to a pool: the first ones
are stored, as far as there is room, and this many are counted. -/
theorem putMany_receives (items : List ItemId) : ∀ {d : Depot}, p < d.shelves.size → items.Nodup →
    (∀ i ∈ items, i < d.items.size ∧ d.isMarked i = false) →
      (d.putMany p items).1 =
          min items.length ((d.shelf p).pool.capacity - (d.stored p).length) ∧
        ((d.putMany p items).2.shelf p).pool = (d.shelf p).pool.putEach items := by
  induction items with
  | nil => exact fun _ _ _ => ⟨(Nat.zero_min _).symm, rfl⟩
  | cons i items ih =>
    intro d hp hnodup hitems
    obtain ⟨hnot, hnodup⟩ := List.nodup_cons.1 hnodup
    obtain ⟨hi, hunmarked⟩ := hitems i List.mem_cons_self
    have heffect := puts_effect hp hi
    -- a single offer is a batch of one item, so that the offers can be put together by
    -- appending
    have hpool : ((d.put p i).2.shelf p).pool = (d.shelf p).pool.putEach [i] := by
      rw [pool_put hp, hunmarked]
      rfl
    have hreceives := (d.shelf p).pool.putEach_receives [i]
    -- the offer marks this item only, and it is not among the others
    obtain ⟨hcount, hrest⟩ := ih (hp.trans_le heffect.shelves) hnodup fun j hj =>
      ⟨(hitems j (List.mem_cons_of_mem _ hj)).1.trans_le heffect.items, by
        rw [isMarked_put_of_ne hp hi (ne_of_mem_of_not_mem hj hnot).symm]
        exact (hitems j (List.mem_cons_of_mem _ hj)).2⟩
    constructor
    · show (if (d.put p i).1.isNone then 1 else 0) + ((d.put p i).2.putMany p items).1 = _
      rw [hcount, stored, hpool, hreceives.capacity, hreceives.length, put_refusal, hunmarked]
      by_cases hroom : (d.shelf p).pool.stored.length < (d.shelf p).pool.capacity
      · simp [Pool.put, hroom, stored]
        omega
      · simp [Pool.put, hroom, stored]
        omega
    · show (((d.put p i).2.putMany p items).2.shelf p).pool = _
      rw [hrest, hpool, ← Pool.putEach_append, List.singleton_append]

/-! ### There and back -/

/-- What taking `n` items from a pool and giving them back in the same order
comes to, if nothing is done in between. -/
structure Cycles (d : Depot) (p : PoolId) (n : Nat) (items : List ItemId) (count : Nat)
    (d' : Depot) : Prop where
  length : items.length = n
  distinct : items.Nodup
  /-- The oldest stored items are taken, in order, and then those that are made. -/
  order : items = (d.stored p).take n ++ List.range' d.items.size (n - (d.stored p).length)
  /-- The items that stay in storage leave room up to the capacity. -/
  room : count = min n ((d.shelf p).pool.capacity - ((d.stored p).length - n))
  /-- The first ones of the items taken are stored again. -/
  stored : d'.stored p = (d.stored p).drop n ++ items.take count
  window : d'.window p = d.window p + ⟨n, n - (d.stored p).length, n, n - count⟩
  capacity : (d'.shelf p).pool.capacity = (d.shelf p).pool.capacity

/-- From a depot whose items have single owners, taking and giving back is one cycle. -/
theorem Exclusive.cycles (h : Exclusive d) (hp : p < d.shelves.size) (n : Nat) :
    ∃ items d₁ count d', d.takeMany p n = (some items, d₁) ∧ d₁.putMany p items = (count, d') ∧
      Cycles d p n items count d' := by
  obtain ⟨items, d₁, htake, hlends⟩ := takeMany_lends n h hp
  have hlength := hlends.length
  -- taking leaves this much room, which decides how many of the items are stored again
  have hroom : (d₁.shelf p).pool.capacity - (d₁.stored p).length =
      (d.shelf p).pool.capacity - ((d.stored p).length - n) := by
    rw [hlends.capacity, hlends.stored, List.length_drop]
  obtain ⟨hcount, hpool⟩ := putMany_receives items (hlends.shelves.ge.trans_lt' hp)
    (hlends.nodup h) fun i hi => ⟨hlends.lt_size h hi, hlends.unmarked hi⟩
  have hreceives := (d₁.shelf p).pool.putEach_receives items
  rw [← hpool] at hreceives
  rw [hlength, hroom] at hcount
  refine ⟨items, d₁, _, _, htake, rfl, hlength, hlends.nodup h, hlends.order, hcount, ?_, ?_, ?_⟩
  · -- what is stored again stands behind what was not taken
    calc (d₁.putMany p items).2.stored p
        = d₁.stored p ++ items.take ((d₁.shelf p).pool.capacity - (d₁.stored p).length) :=
          hreceives.stored
      _ = (d.stored p).drop n ++ items.take (d₁.putMany p items).1 := by
          rw [hroom, hcount, hlends.stored, List.take_eq_take_min, hlength, Nat.min_comm]
  · calc (d₁.putMany p items).2.window p
        = d₁.window p + ⟨0, 0, n, n - (d₁.putMany p items).1⟩ := by
          rw [hcount, ← hroom, ← hlength]
          exact hreceives.window_eq
      _ = d.window p + ⟨n, n - (d.stored p).length, n, n - (d₁.putMany p items).1⟩ := by
          rw [hlends.window, add_assoc]
          congr 1
          ext <;> simp
  · rw [hreceives.capacity, hlends.capacity]

/-- **A pool takes back what it has room for.**  After any course of deeds, and
so after any commands (`run_course`), `n` items can be taken from any pool of the
depot, and all of them differ: first the oldest ones in storage, in order, and
then new ones.  Offered again in the same order, the first of them are stored
behind what stayed, as many as the capacity leaves room for, and the others are
overflow.  The command that does both answers with the number of those stored. -/
theorem Course.gives_back (h : Course {} es d) (hp : p < d.shelves.size) (n : Nat) :
    ∃ items d₁ count d', d.takeMany p n = (some items, d₁) ∧ d₁.putMany p items = (count, d') ∧
      Cycles d p n items count d' ∧
      ∀ name, d.pools.get? name = some p → (d.step (.cycle name n)).1 = .stored count := by
  obtain ⟨items, d₁, count, d', htake, hput, hcycles⟩ := (Exclusive.empty.course h).cycles hp n
  refine ⟨items, d₁, count, d', htake, hput, hcycles, fun name hname => ?_⟩
  -- the command begins with an empty log
  have hquiet : Course {} es { d with log := #[], dropped := #[] } := h.quiet rfl rfl
  obtain ⟨items', d₂, count', d₃, htake', hput', hcycles'⟩ :=
    (Exclusive.empty.course hquiet).cycles hp n
  have hname' : ({ d with log := #[], dropped := #[] } : Depot).pools.get? name = some p := hname
  have hsame : count' = count := hcycles'.room.trans hcycles.room.symm
  simp only [step, perform?, hname', Option.bind_eq_bind, Option.bind_some, htake', hput', hsame,
    Option.getD_some]

/-- The pool stores four items at the capacity two.  With three of them taken
there is room for one, the oldest, behind the one that stayed. -/
theorem gives_back_idled :
    (∃ es, Course {} es idled) ∧ 0 < idled.shelves.size ∧ idled.stored 0 = [0, 1, 2, 3] ∧
      (idled.shelf 0).pool.capacity = 2 ∧
      ∃ d₁ d', idled.takeMany 0 3 = (some [0, 1, 2], d₁) ∧ d₁.putMany 0 [0, 1, 2] = (1, d') ∧
        d'.stored 0 = [3, 0] ∧ d'.window 0 = ⟨3, 0, 3, 2⟩ ∧
        (idled.step (.cycle "a" 3)).1 = .stored 1 := by
  obtain ⟨es, h⟩ := run_course
    [.setUp "a" "item" ⟨4, .ofNat 2⟩, .cycle "a" 4, .update "a", .update "a"]
  have hp : 0 < idled.shelves.size := by decide +kernel
  have hstored : idled.stored 0 = [0, 1, 2, 3] := by decide +kernel
  have hcapacity : (idled.shelf 0).pool.capacity = 2 := by decide +kernel
  have hwindow : idled.window 0 = 0 := by decide +kernel
  have hname : idled.pools.get? "a" = some 0 := by decide +kernel
  -- the theorem answers the command; which items and how many they are has to be computed
  obtain ⟨items, d₁, count, d', htake, hput, hcycles, hanswer⟩ :=
    Course.gives_back (d := idled) h hp 3
  obtain rfl : items = [0, 1, 2] := by simpa [hstored] using hcycles.order
  obtain rfl : count = 1 := by simpa [hstored, hcapacity] using hcycles.room
  refine ⟨⟨es, h⟩, hp, hstored, hcapacity, d₁, d', htake, hput, ?_, ?_, hanswer "a" hname⟩
  · rw [hcycles.stored, hstored]
    rfl
  · rw [hcycles.window, hwindow, hstored]
    rfl

end Depot
end Telemetry
