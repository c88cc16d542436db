/-
# What a pool does with an item

An item that is not marked is either stored behind all others or dropped; the
oldest one is lent first; the end of a window discards from the old end.
-/

import Telemetry.Pool.Basic

namespace Telemetry
namespace Pool

variable {α : Type}

/-- **An unmarked item is stored last, or dropped for want of room.** -/
theorem put_unmarked (q : Pool α) (x : α) :
    (∃ q', q.put false x = (none, q') ∧ q'.stored = q.stored ++ [x]) ∨
      ∃ q' n, q.put false x = (some (.overflow n), q') ∧ q'.stored = q.stored := by
  by_cases hroom : q.stored.length < q.capacity
  · exact Or.inl ⟨(q.put false x).2, by simp [put, hroom], by simp [put, hroom]⟩
  · exact Or.inr ⟨(q.put false x).2, q.capacity, by simp [put, hroom], by simp [put, hroom]⟩

/-- **The oldest stored item is lent, and only an empty storage misses.** -/
theorem take_of_marked (q : Pool α) (isMarked : α → Bool) (h : ∀ x ∈ q.stored, isMarked x) :
    (∃ q', q.take isMarked = (.missed, q') ∧ q.stored = [] ∧ q'.stored = []) ∨
      ∃ x q', q.take isMarked = (.reused x, q') ∧ q.stored = x :: q'.stored := by
  rcases hs : q.stored with _ | ⟨x, rest⟩
  · exact Or.inl ⟨(q.take isMarked).2, by simp [take, hs], rfl, by simp [take, hs]⟩
  · have hx : isMarked x = true := h x (hs ▸ List.mem_cons_self)
    exact Or.inr ⟨x, (q.take isMarked).2, by simp [take, hs, hx], by simp [take, hs]⟩

/-- Nothing gets into a pool but what it is offered. -/
theorem of_mem_stored_put {q : Pool α} {b : Bool} {x y : α} (h : y ∈ (q.put b x).2.stored) :
    y ∈ q.stored ∨ y = x := by
  cases b with
  | true => exact Or.inl h
  | false =>
    rcases put_unmarked q x with ⟨q', hput, hstored⟩ | ⟨q', n, hput, hstored⟩ <;>
      rw [hput, hstored] at h
    · exact (List.mem_append.1 h).imp_right List.mem_singleton.1
    · exact Or.inl h

/-- A pool lends what it stores, and nothing gets into it then. -/
theorem take_stored (q : Pool α) (isMarked : α → Bool) :
    (q.take isMarked).2.stored ⊆ q.stored ∧
      ∀ x, (q.take isMarked).1 = .reused x → x ∈ q.stored := by
  unfold take
  cases hs : q.stored with
  | nil => exact ⟨List.Subset.refl _, fun x hx => nomatch hx⟩
  | cons y rest =>
    refine ⟨List.subset_cons_self _ _, fun x hx => ?_⟩
    dsimp only at hx
    split at hx
    · cases hx
      exact List.mem_cons_self
    · cases hx

/-- The end of a window keeps the newest items in their order. -/
theorem tick_stored (q : Pool α) : q.tick.2.2.stored.Sublist q.stored :=
  List.drop_sublist _ _

/-- A pool after it was offered some unmarked items in order. -/
def putEach (q : Pool α) (xs : List α) : Pool α := xs.foldl (fun q x => (q.put false x).2) q

/-- Items are offered in order, so a list can be offered in two parts. -/
theorem putEach_append (q : Pool α) (xs ys : List α) :
    q.putEach (xs ++ ys) = (q.putEach xs).putEach ys := List.foldl_append

/-- **The pool stores the first items, as far as there is room,** and counts the
others as overflow. -/
theorem putEach_eq (xs : List α) : ∀ q : Pool α, q.putEach xs = { q with
    window := { q.window with
      returns := q.window.returns + xs.length
      overflow := q.window.overflow + (xs.length - (q.capacity - q.stored.length)) }
    stored := q.stored ++ xs.take (q.capacity - q.stored.length) } := by
  induction xs with
  | nil => intro q; simp [putEach]
  | cons x xs ih =>
    intro q
    show (q.put false x).2.putEach xs = _
    rw [ih]
    by_cases hroom : q.stored.length < q.capacity
    · have hfree : q.capacity - q.stored.length = q.capacity - (q.stored.length + 1) + 1 := by omega
      simp only [put, hroom, if_true, Bool.false_eq_true, if_false, List.length_append,
        List.length_cons, List.length_nil, hfree, List.take_succ_cons, List.append_assoc,
        List.singleton_append, Nat.add_sub_add_right, Nat.zero_add, Nat.add_assoc, Nat.add_comm 1]
    · have hfull : q.capacity - q.stored.length = 0 := by omega
      simp only [put, hroom, Bool.false_eq_true, if_false, List.length_cons, hfull, List.take_zero,
        Nat.sub_zero, Nat.add_assoc, Nat.add_comm 1]

/-- What some offers make of a pool: as many items are stored as there is room
for, and the others are counted as overflow. -/
structure Receives (xs : List α) (q q' : Pool α) : Prop where
  returns : q'.window.returns = q.window.returns + xs.length
  stored : q'.stored = q.stored ++ xs.take (q.capacity - q.stored.length)
  length : q'.stored.length = q.stored.length + min xs.length (q.capacity - q.stored.length)
  overflow : q'.window.overflow = q.window.overflow +
    (xs.length - min xs.length (q.capacity - q.stored.length))
  takes : q'.window.takes = q.window.takes
  misses : q'.window.misses = q.window.misses
  capacity : q'.capacity = q.capacity
  config : q'.config = q.config

/-- Offering items one by one stores them up to the capacity and counts what is refused. -/
theorem putEach_receives (q : Pool α) (xs : List α) : q.Receives xs (q.putEach xs) := by
  rw [putEach_eq]
  refine ⟨rfl, rfl, ?_, ?_, rfl, rfl, rfl, rfl⟩
  · rw [List.length_append, List.length_take, Nat.min_comm]
  · dsimp only
    omega

end Pool
end Telemetry
