/-
# What is done to pools

Whatever a depot does to its pools it does in deeds: a pool is set up, it lends
the oldest item that it stores or one that is made for it, it is offered an
item, its window ends, or it is given up with what it stores.  `Does d e d'`
says that the depot `d` does the deed `e` and is `d'` then.  `Course d es d'`
says that the deeds `es`, in this order, lead from `d` to `d'`; meanwhile names,
groups, tasks, the clock and the log may change as they like.

What a deed changes is said once, in `Does.effect`: which items enter and leave
a storage and in which order, whose marks are set and cleared, and what the
pools count.
-/

import Telemetry.Depot.Command
import Telemetry.Proofs.Pool
import Mathlib.Algebra.Group.Basic
import Mathlib.Data.List.Nodup
import Mathlib.Order.Nat

namespace Telemetry
namespace Pool

/-! ### Windows add up -/

attribute [ext] Window

/-- Two windows taken together. -/
instance : Add Window :=
  ⟨fun v w => ⟨v.takes + w.takes, v.misses + w.misses, v.returns + w.returns,
    v.overflow + w.overflow⟩⟩

namespace Window

/-- Takes of added windows add up. -/
@[simp] theorem takes_add (v w : Window) : (v + w).takes = v.takes + w.takes := rfl

/-- Misses of added windows add up. -/
@[simp] theorem misses_add (v w : Window) : (v + w).misses = v.misses + w.misses := rfl

/-- Returns of added windows add up. -/
@[simp] theorem returns_add (v w : Window) : (v + w).returns = v.returns + w.returns := rfl

/-- Overflows of added windows add up. -/
@[simp] theorem overflow_add (v w : Window) : (v + w).overflow = v.overflow + w.overflow := rfl

instance : Zero Window := ⟨{}⟩

instance : AddCommMonoid Window where
  add_assoc _ _ _ := by ext <;> exact Nat.add_assoc ..
  zero_add _ := by ext <;> exact Nat.zero_add _
  add_zero _ := rfl
  add_comm _ _ := by ext <;> exact Nat.add_comm ..
  nsmul := nsmulRec

end Window
end Pool

namespace Depot

variable {d d' d'' : Depot} {p q : PoolId} {i j : ItemId}

/-! ### Reading a depot after a change -/

/-- The items that a pool stores, the oldest one first. -/
def stored (d : Depot) (p : PoolId) : List ItemId := (d.shelf p).pool.stored

/-- The open window of a pool. -/
def window (d : Depot) (p : PoolId) : Pool.Window := (d.shelf p).pool.window

/-- Changing one shelf of a depot. -/
theorem shelf_modify (d : Depot) (p q : PoolId) (f : Shelf → Shelf) :
    ({ d with shelves := d.shelves.modify p f } : Depot).shelf q =
      if p = q ∧ p < d.shelves.size then f (d.shelf q) else d.shelf q := by
  simp only [shelf, Array.getElem?_modify]
  by_cases hp : p = q
  · subst hp
    by_cases hs : p < d.shelves.size <;> simp [hs]
  · simp [hp]

/-- Replacing the pool of one shelf. -/
theorem shelf_setPool (d : Depot) (p q : PoolId) (pool : Pool ItemId) :
    (d.setPool p pool).shelf q =
      if p = q ∧ p < d.shelves.size then { d.shelf q with pool := pool } else d.shelf q :=
  shelf_modify d p q _

/-- Marking one item. -/
theorem isMarked_mark (d : Depot) (i j : ItemId) (b : Bool) :
    (d.mark i b).isMarked j = if i = j ∧ i < d.items.size then b else d.isMarked j := by
  simp only [isMarked, item, mark, Array.getElem?_modify]
  by_cases hi : i = j
  · subst hi
    by_cases hs : i < d.items.size <;> simp [hs]
  · simp [hi]

/-- Marking an item that is there, in the form that `Deed.marking` has. -/
theorem isMarked_mark_of_lt (h : i < d.items.size) (j : ItemId) (b : Bool) :
    (d.mark i b).isMarked j = (if i = j then some b else none).getD (d.isMarked j) := by
  simp only [isMarked_mark, h, and_true]
  split_ifs <;> rfl

/-- A pool that was never opened reads as an empty one. -/
theorem shelf_of_size_le (h : d.shelves.size ≤ p) : d.shelf p = default := by
  simp [shelf, h]

/-- An item that was never made is not marked. -/
theorem isMarked_of_size_le (h : d.items.size ≤ i) : d.isMarked i = false := by
  simp [isMarked, item, h]
  rfl

/-- A marked item was made. -/
theorem lt_size_of_isMarked (h : d.isMarked i = true) : i < d.items.size := by
  by_contra hi
  rw [isMarked_of_size_le (Nat.not_lt.1 hi)] at h
  exact Bool.false_ne_true h

/-- What is stored depends only on the shelves. -/
theorem stored_congr (h : d'.shelves = d.shelves) (p : PoolId) : d'.stored p = d.stored p := by
  rw [stored, stored, shelf, shelf, h]

/-- Which items are marked depends only on the items. -/
theorem isMarked_congr (h : d'.items = d.items) (i : ItemId) : d'.isMarked i = d.isMarked i := by
  rw [isMarked, isMarked, item, item, h]

/-- The empty depot stores nothing. -/
@[simp] theorem stored_empty (p : PoolId) : stored {} p = [] := by
  rw [stored, shelf_of_size_le (Nat.zero_le p)]
  rfl

/-- Making an item is counted on its shelf. -/
theorem shelf_make (d : Depot) (p q : PoolId) :
    (d.make p).2.shelf q = if p = q ∧ p < d.shelves.size then
      { d.shelf q with made := (d.shelf q).made + 1 } else d.shelf q :=
  shelf_modify d p q _

/-- Making an item adds one. -/
theorem size_make (d : Depot) (p : PoolId) : (d.make p).2.items.size = d.items.size + 1 :=
  Array.size_push _

/-- A new item is not marked, and no other mark changes. -/
theorem isMarked_make (d : Depot) (p : PoolId) (i : ItemId) :
    (d.make p).2.isMarked i = d.isMarked i := by
  simp only [isMarked, item, make, Array.getElem?_push]
  split_ifs with hi
  · simp [hi]
    rfl
  · rfl

/-- Putting back the pool that is there changes nothing. -/
theorem setPool_self (d : Depot) (p : PoolId) :
    (d.setPool p (d.shelf p).pool).shelves = d.shelves := by
  refine Array.ext (by simp [setPool]) fun q h₁ h₂ => ?_
  simp only [setPool, Array.getElem_modify]
  split_ifs with hp
  · subst hp
    simp [shelf, h₂]
  · rfl

/-! ### Deeds -/

/-- What a depot can do to a pool. -/
inductive Deed where
  /-- The pool is set up. -/
  | opened (p : PoolId)
  /-- The pool lends an item out of its storage. -/
  | lent (p : PoolId) (i : ItemId)
  /-- The storage is empty, and an item is made for the pool and lent. -/
  | made (p : PoolId) (i : ItemId)
  /-- The pool is to lend an item out of its storage that is not marked. -/
  | stuck (p : PoolId) (i : ItemId)
  /-- The pool is offered an item, and stores it if there is no refusal. -/
  | offered (p : PoolId) (i : ItemId) (refusal : Option Pool.Refusal)
  /-- The window of the pool ends, and the pool discards items. -/
  | closed (p : PoolId) (update : Pool.Update) (given : List ItemId)
  /-- Nobody holds the pool any more, and what it stores is lost. -/
  | gone (p : PoolId) (lost : List ItemId)

namespace Deed

/-- The pool that a deed is done to. -/
def pool : Deed → PoolId
  | opened p | lent p _ | made p _ | stuck p _ | offered p _ _ | closed p _ _ | gone p _ => p

/-- The items that enter the storage of the pool. -/
def entering : Deed → List ItemId
  | offered _ i none => [i]
  | _ => []

/-- The items that leave the storage of the pool, in the order in which they
leave. -/
def leaving : Deed → List ItemId
  | lent _ i | stuck _ i => [i]
  | closed _ _ given => given
  | gone _ lost => lost
  | _ => []

/-- The items that leave the storage without being lent. -/
def discarding : Deed → List ItemId
  | closed _ _ given => given
  | gone _ lost => lost
  | _ => []

/-- Whether the deed hands out an item. -/
def Hands (i : ItemId) : Deed → Prop
  | lent _ j | made _ j => j = i
  | _ => False

/-- What the deed does to the mark of an item, if it does anything. -/
def marking (i : ItemId) : Deed → Option Bool
  | lent _ j => if j = i then some false else none
  | offered _ j none => if j = i then some true else none
  | _ => none

/-- Whether something is taken from the pool. -/
def isTake : Deed → Bool
  | lent .. | made .. | stuck .. => true
  | _ => false

/-- Whether an item is made for the pool. -/
def isMiss : Deed → Bool
  | made .. => true
  | _ => false

/-- Whether the pool is offered an item that is not marked. -/
def isReturn : Deed → Bool
  | offered _ _ none | offered _ _ (some (.overflow _)) => true
  | _ => false

/-- Whether the pool has no room for an item. -/
def isOverflow : Deed → Bool
  | offered _ _ (some (.overflow _)) => true
  | _ => false

/-- Whether the window of the pool ends. -/
def isClose : Deed → Bool
  | closed .. => true
  | _ => false

/-- What the deed adds to the window of the pool. -/
def tally (e : Deed) : Pool.Window :=
  ⟨e.isTake.toNat, e.isMiss.toNat, e.isReturn.toNat, e.isOverflow.toNat⟩

end Deed

/-- What taking from a pool comes to. -/
def taking (d : Depot) (p : PoolId) : Deed :=
  match ((d.shelf p).pool.take d.isMarked).1 with
  | .reused i => .lent p i
  | .missed => .made p d.items.size
  | .unmarked i => .stuck p i

/-- What giving up a pool comes to. -/
def dissolve (d : Depot) (p : PoolId) : Depot := d.setPool p { (d.shelf p).pool with stored := [] }

/-- The depot does a deed. -/
inductive Does (d : Depot) : Deed → Depot → Prop
  | opens (shelf : Shelf) (config : Pool.Config) (hmade : shelf.made = 0)
      (hpool : shelf.pool = .ofConfig config) :
      Does d (.opened d.shelves.size) { d with shelves := d.shelves.push shelf }
  | takes {p : PoolId} (hp : p < d.shelves.size) : Does d (d.taking p) (d.take p).2
  | puts {p : PoolId} {i : ItemId} (hp : p < d.shelves.size) (hi : i < d.items.size) :
      Does d (.offered p i (d.put p i).1) (d.put p i).2
  | ticks {p : PoolId} (hp : p < d.shelves.size) :
      Does d (.closed p (d.tickPool p).1 (d.shelf p).pool.tick.2.1) (d.tickPool p).2
  | dissolves {p : PoolId} (hp : p < d.shelves.size) : Does d (.gone p (d.stored p)) (d.dissolve p)

/-- Deeds, one after the other, lead from one depot to another. -/
inductive Course (d : Depot) : List Deed → Depot → Prop
  | refl : Course d [] d
  /-- Names, groups, tasks, the clock and the log change. -/
  | quiet {es : List Deed} {d' d'' : Depot} : Course d es d' → d''.items = d'.items →
      d''.shelves = d'.shelves → Course d es d''
  | deed {es : List Deed} {e : Deed} {d' d'' : Depot} : Course d es d' → Does d' e d'' →
      Course d (es ++ [e]) d''

/-! ### What a deed changes -/

/-- What has to be so for a deed to be done. -/
def Permits (d : Depot) : Deed → Prop
  | .opened p => p = d.shelves.size
  | .lent _ i => d.isMarked i = true
  | .made _ i => i = d.items.size
  | .stuck _ i => d.isMarked i = false
  | .offered _ i refusal => i < d.items.size ∧ (refusal = some .alreadyPooled ↔ d.isMarked i = true)
  | .closed p update given => update.window = d.window p ∧ update.reclaimed = given.length
  | .gone .. => True

/-- What a deed changes. -/
structure Effect (d : Depot) (e : Deed) (d' : Depot) : Prop where
  permitted : d.Permits e
  others : ∀ q, q ≠ e.pool → d'.shelf q = d.shelf q
  /-- Items enter a storage at its end and leave it at its front. -/
  storage : d.stored e.pool ++ e.entering = e.leaving ++ d'.stored e.pool
  marks : ∀ i, d'.isMarked i = (e.marking i).getD (d.isMarked i)
  window : d'.window e.pool = if e.isClose then 0 else d.window e.pool + e.tally
  made : (d'.shelf e.pool).made = (d.shelf e.pool).made + e.isMiss.toNat
  items : d.items.size ≤ d'.items.size
  /-- An item that is made is there then. -/
  fresh : ∀ p i, e = .made p i → i < d'.items.size
  shelves : d.shelves.size ≤ d'.shelves.size

/-- A deed that replaces a pool, and makes no item. -/
theorem Effect.of_setPool {e : Deed} {pool : Pool ItemId} (hp : p < d.shelves.size)
    (he : e.pool = p) (hmiss : e.isMiss = false)
    (hshelves : d'.shelves = (d.setPool p pool).shelves)
    (permitted : d.Permits e) (storage : d.stored p ++ e.entering = e.leaving ++ pool.stored)
    (window : pool.window = if e.isClose then 0 else d.window p + e.tally)
    (marks : ∀ i, d'.isMarked i = (e.marking i).getD (d.isMarked i))
    (items : d.items.size ≤ d'.items.size) : Effect d e d' := by
  subst he
  -- only the shelf of this pool differs
  have hshelf : ∀ q, d'.shelf q = (d.setPool e.pool pool).shelf q := fun q => by
    rw [shelf, shelf, hshelves]
  have hself : d'.shelf e.pool = { d.shelf e.pool with pool := pool } := by
    rw [hshelf, shelf_setPool, if_pos ⟨rfl, hp⟩]
  refine ⟨permitted, fun q hq => ?_, ?_, marks, ?_, ?_, items, fun q i h => ?_, ?_⟩
  · rw [hshelf, shelf_setPool, if_neg fun h => hq h.1.symm]
  · rw [storage, stored, hself]
  · rw [Depot.window, hself, window]
  · rw [hself, hmiss]
    rfl
  · rw [h] at hmiss
    exact absurd hmiss.symm Bool.false_ne_true
  · rw [hshelves]
    exact Array.size_modify.ge

/-! ### Each deed -/

/-- Opening a pool has the effect of its deed. -/
theorem opens_effect (d : Depot) {shelf : Shelf} {config : Pool.Config} (hmade : shelf.made = 0)
    (hpool : shelf.pool = .ofConfig config) :
    Effect d (.opened d.shelves.size) { d with shelves := d.shelves.push shelf } := by
  set d' : Depot := { d with shelves := d.shelves.push shelf } with hd
  have hshelf : ∀ q, d'.shelf q = if q = d.shelves.size then shelf else d.shelf q := fun q => by
    simp only [Depot.shelf, hd, Array.getElem?_push]
    split_ifs <;> rfl
  have hself : d'.shelf d.shelves.size = shelf := (hshelf _).trans (if_pos rfl)
  have hbefore : d.shelf d.shelves.size = default := shelf_of_size_le le_rfl
  refine ⟨rfl, fun q hq => (hshelf q).trans (if_neg hq), ?_, fun _ => rfl, ?_, ?_, le_rfl,
    (fun _ _ h => nomatch h), by simp [hd]⟩ <;> simp only [Deed.pool, stored, window]
  · rw [hself, hbefore, hpool]
    rfl
  · rw [hself, hbefore, hpool]
    rfl
  · rw [hself, hbefore, hmade]
    rfl

/-- From an empty storage an item is made, which counts as a miss. -/
theorem take_of_nil (h : (d.shelf p).pool.stored = []) :
    d.taking p = .made p d.items.size ∧
      d.take p = (some d.items.size, ((d.setPool p { (d.shelf p).pool with
        window := d.window p + ⟨1, 1, 0, 0⟩
        stored := [] }).make p).2) := by
  have htake : (d.shelf p).pool.take d.isMarked = (.missed, { (d.shelf p).pool with
      window := d.window p + ⟨1, 1, 0, 0⟩
      stored := [] }) := by
    rw [Pool.take, h]
    rfl
  exact ⟨by rw [taking, htake], by simp only [take, htake]; rfl⟩

/-- What is left of a pool that lends the item at the front. -/
theorem take_of_cons {rest : List ItemId} (h : (d.shelf p).pool.stored = i :: rest) :
    let s := d.setPool p { (d.shelf p).pool with
      window := d.window p + ⟨1, 0, 0, 0⟩
      stored := rest }
    if d.isMarked i then d.taking p = .lent p i ∧ d.take p = (some i, s.mark i false)
    else d.taking p = .stuck p i ∧ d.take p = (none, s.letGo [i]) := by
  have htake : (d.shelf p).pool.take d.isMarked =
      (if d.isMarked i then .reused i else .unmarked i, { (d.shelf p).pool with
        window := d.window p + ⟨1, 0, 0, 0⟩
        stored := rest }) := by
    rw [Pool.take, h]
    rfl
  split_ifs with hm
  · rw [if_pos hm] at htake
    exact ⟨by rw [taking, htake], by simp only [take, htake]⟩
  · rw [if_neg hm] at htake
    exact ⟨by rw [taking, htake], by simp only [take, htake]⟩

/-- An empty storage: an item is made. -/
theorem makes_effect (hp : p < d.shelves.size) (hs : (d.shelf p).pool.stored = []) :
    Effect d (.made p d.items.size) (d.take p).2 := by
  rw [(take_of_nil hs).2]
  -- the store between counting the miss and making the item
  set s := d.setPool p { (d.shelf p).pool with
    window := d.window p + ⟨1, 1, 0, 0⟩
    stored := [] } with hset
  have hsize : s.shelves.size = d.shelves.size := Array.size_modify
  have hself : (s.make p).2.shelf p = { d.shelf p with
      made := (d.shelf p).made + 1
      pool := { (d.shelf p).pool with
        window := d.window p + ⟨1, 1, 0, 0⟩
        stored := [] } } := by
    rw [shelf_make, if_pos ⟨rfl, hsize ▸ hp⟩, hset, shelf_setPool, if_pos ⟨rfl, hp⟩]
  refine ⟨rfl, fun q hq => ?others, ?storage, fun i => isMarked_make s p i, ?window, ?made,
    ?items, fun _ _ h => ?fresh, ?shelves⟩
  case others =>
    rw [shelf_make, if_neg fun h => hq h.1.symm, hset, shelf_setPool, if_neg fun h => hq h.1.symm]
  case storage => exact ((List.append_nil _).trans hs).trans (congrArg (·.pool.stored) hself).symm
  case window => exact congrArg (·.pool.window) hself
  case made => exact congrArg Shelf.made hself
  case items => exact (Nat.le_succ _).trans (size_make s p).ge
  case fresh =>
    cases h
    exact (Nat.lt_succ_self _).trans_le (size_make s p).ge
  case shelves => exact hsize.ge.trans Array.size_modify.ge

/-- Taking from a pool has the effect of its deed, whether the item is reused or made. -/
theorem takes_effect (hp : p < d.shelves.size) : Effect d (d.taking p) (d.take p).2 := by
  cases hs : (d.shelf p).pool.stored with
  | nil =>
    rw [(take_of_nil hs).1]
    exact makes_effect hp hs
  | cons i rest =>
    have hcons := take_of_cons hs
    have hstorage : d.stored p ++ [] = [i] ++ rest := (List.append_nil _).trans hs
    dsimp only at hcons
    split_ifs at hcons with hm <;> obtain ⟨he, hd⟩ := hcons <;> rw [he, hd]
    · -- the oldest item is lent, and its mark cleared
      exact Effect.of_setPool hp rfl rfl rfl hm hstorage rfl
        (fun j => isMarked_mark_of_lt (lt_size_of_isMarked hm) j false) Array.size_modify.ge
    · -- it is not marked, and dropped
      exact Effect.of_setPool hp rfl rfl rfl (Bool.eq_false_iff.2 hm) hstorage rfl (fun _ => rfl)
        le_rfl

/-- A marked item is refused, and nothing is counted. -/
theorem put_of_marked (p : PoolId) (h : d.isMarked i = true) :
    d.put p i = (some .alreadyPooled, (d.setPool p (d.shelf p).pool).letGo [i]) := by
  simp [put, Pool.put, h, Pool.Refusal.events, report]

/-- An item that finds room is stored and marked. -/
theorem put_of_room (h : d.isMarked i = false)
    (hroom : (d.shelf p).pool.stored.length < (d.shelf p).pool.capacity) :
    d.put p i = (none, (d.setPool p { (d.shelf p).pool with
      window := d.window p + ⟨0, 0, 1, 0⟩
      stored := d.stored p ++ [i] }).mark i true) := by
  have hput : (d.shelf p).pool.put false i = (none, { (d.shelf p).pool with
      window := d.window p + ⟨0, 0, 1, 0⟩
      stored := d.stored p ++ [i] }) := by
    rw [Pool.put, if_neg Bool.false_ne_true, if_pos hroom]
    rfl
  simp [put, h, hput, Pool.Refusal.events, report]

/-- An item that finds no room is given up, and the window counts an overflow. -/
theorem put_of_full (h : d.isMarked i = false)
    (hfull : ¬ (d.shelf p).pool.stored.length < (d.shelf p).pool.capacity) :
    d.put p i = (some (.overflow (d.shelf p).pool.capacity),
      ((d.setPool p { (d.shelf p).pool with window := d.window p + ⟨0, 0, 1, 1⟩ }).report
        [.itemOverflow (d.shelf p).pool.capacity]).letGo [i]) := by
  have hput : (d.shelf p).pool.put false i = (some (.overflow (d.shelf p).pool.capacity),
      { (d.shelf p).pool with window := d.window p + ⟨0, 0, 1, 1⟩ }) := by
    rw [Pool.put, if_neg Bool.false_ne_true, if_neg hfull]
    rfl
  simp [put, h, hput, Pool.Refusal.events]

/-- Offering an item has the effect of its deed, in each of the three cases. -/
theorem puts_effect (hp : p < d.shelves.size) (hi : i < d.items.size) :
    Effect d (.offered p i (d.put p i).1) (d.put p i).2 := by
  cases hm : d.isMarked i with
  | true =>
    rw [put_of_marked p hm]
    exact Effect.of_setPool hp rfl rfl rfl ⟨hi, iff_of_true rfl hm⟩ (List.append_nil _)
      (add_zero _).symm (fun _ => rfl) le_rfl
  | false =>
    have hrefusal : ∀ r : Option Pool.Refusal, r ≠ some .alreadyPooled →
        (r = some .alreadyPooled ↔ d.isMarked i = true) := fun r hr =>
      iff_of_false hr (by simp [hm])
    by_cases hroom : (d.shelf p).pool.stored.length < (d.shelf p).pool.capacity
    · rw [put_of_room hm hroom]
      exact Effect.of_setPool hp rfl rfl rfl ⟨hi, hrefusal _ nofun⟩ rfl rfl
        (fun j => isMarked_mark_of_lt hi j true) Array.size_modify.ge
    · rw [put_of_full hm hroom]
      exact Effect.of_setPool hp rfl rfl rfl ⟨hi, hrefusal _ nofun⟩ (List.append_nil _) rfl
        (fun _ => rfl) le_rfl

/-- The end of a window has the effect of its deed. -/
theorem ticks_effect (hp : p < d.shelves.size) :
    Effect d (.closed p (d.tickPool p).1 (d.shelf p).pool.tick.2.1) (d.tickPool p).2 := by
  have hlength : (d.shelf p).pool.excess (d.tickPool p).1.newCapacity ≤ (d.stored p).length := by
    unfold Pool.excess
    split_ifs
    · exact Nat.zero_le _
    · exact Nat.sub_le _ _
  refine Effect.of_setPool hp rfl rfl rfl ⟨rfl, ?_⟩ ?_ rfl (fun _ => rfl) le_rfl
  · exact (List.length_take_of_le hlength).symm
  · exact (List.append_nil _).trans (List.take_append_drop _ _).symm

/-- **What a deed changes**, whatever the deed. -/
theorem Does.effect {e : Deed} (h : Does d e d') : Effect d e d' := by
  cases h with
  | opens shelf config hmade hpool => exact opens_effect d hmade hpool
  | takes hp => exact takes_effect hp
  | puts hp hi => exact puts_effect hp hi
  | ticks hp => exact ticks_effect hp
  | dissolves hp =>
    exact Effect.of_setPool hp rfl rfl rfl trivial rfl (add_zero _).symm (fun _ => rfl) le_rfl

/-! ### Courses -/

namespace Course

variable {es fs : List Deed} {e : Deed}

/-- One deed is a course. -/
theorem single (h : Does d e d') : Course d [e] d' := refl.deed h

/-- A course may go on with another one. -/
theorem trans (h : Course d es d') (h' : Course d' fs d'') : Course d (es ++ fs) d'' := by
  induction h' with
  | refl => rwa [List.append_nil]
  | quiet _ hitems hshelves ih => exact ih.quiet hitems hshelves
  | deed _ he ih =>
    rw [← List.append_assoc]
    exact ih.deed he

/-- A course passes through what its first deeds lead to. -/
theorem split (h : Course d (es ++ fs) d'') : ∃ d', Course d es d' ∧ Course d' fs d'' := by
  generalize hgs : es ++ fs = gs at h
  induction h generalizing fs with
  | refl =>
    obtain ⟨rfl, rfl⟩ := List.append_eq_nil_iff.1 hgs
    exact ⟨d, refl, refl⟩
  | quiet _ hitems hshelves ih =>
    obtain ⟨d', h, h'⟩ := ih hgs
    exact ⟨d', h, h'.quiet hitems hshelves⟩
  | @deed gs e d₁ d₂ hrun he ih =>
    rcases List.eq_nil_or_concat fs with rfl | ⟨fs, f, rfl⟩
    · rw [List.append_nil] at hgs
      exact ⟨d₂, hgs ▸ hrun.deed he, refl⟩
    · rw [List.concat_eq_append, ← List.append_assoc] at hgs
      obtain ⟨hfront, hlast⟩ := List.append_inj' hgs rfl
      obtain rfl := List.singleton_inj.1 hlast
      obtain ⟨d', h, h'⟩ := ih hfront
      exact ⟨d', h, List.concat_eq_append ▸ h'.deed he⟩

/-- A course can be taken apart before its last deed; what may follow the deed is no deed. -/
theorem of_concat (h : Course d (es ++ [e]) d'') :
    ∃ d₁ d₂, Course d es d₁ ∧ Does d₁ e d₂ ∧ Course d₂ [] d'' := by
  generalize hgs : es ++ [e] = gs at h
  induction h with
  | refl => exact absurd (List.append_eq_nil_iff.1 hgs).2 (List.cons_ne_nil _ _)
  | quiet _ hitems hshelves ih =>
    obtain ⟨d₁, d₂, hrun, he, hafter⟩ := ih hgs
    exact ⟨d₁, d₂, hrun, he, hafter.quiet hitems hshelves⟩
  | deed hrun he =>
    obtain ⟨rfl, hlast⟩ := List.append_inj' hgs rfl
    obtain rfl := List.singleton_inj.1 hlast
    exact ⟨_, _, hrun, he, refl⟩

/-- A course does each of its deeds somewhere on its way. -/
theorem passes (h : Course d (es ++ e :: fs) d'') :
    ∃ d₁ d₂, Course d es d₁ ∧ Does d₁ e d₂ ∧ Course d₂ fs d'' := by
  rw [← List.singleton_append, ← List.append_assoc] at h
  obtain ⟨d', hfront, hback⟩ := h.split
  obtain ⟨d₁, d₂, hrun, he, hafter⟩ := hfront.of_concat
  exact ⟨d₁, d₂, hrun, he, hafter.trans hback⟩

/-- Nothing that is there goes away. -/
theorem size_le (h : Course d es d') :
    d.items.size ≤ d'.items.size ∧ d.shelves.size ≤ d'.shelves.size := by
  induction h with
  | refl => exact ⟨le_rfl, le_rfl⟩
  | quiet _ hitems hshelves ih => rwa [hitems, hshelves]
  | deed _ he ih => exact ⟨ih.1.trans he.effect.items, ih.2.trans he.effect.shelves⟩

end Course
end Depot
end Telemetry
