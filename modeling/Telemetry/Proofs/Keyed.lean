/-
# What a map holds

The values of a map may each stand for several things: a batch for its
records, a batcher for all that waits in it.  `Keyed.total` is everything that
the values stand for, taken together, and a write to a key or its removal
changes it by what the key stood for before and by what it stands for then
(`Keyed.total_insert`, `Keyed.total_erase`).
-/

import Telemetry.Keyed
import Mathlib.Algebra.BigOperators.Group.Finset.Basic
import Mathlib.Tactic.Abel

namespace Telemetry
namespace Keyed

variable {α β : Type}

/-- What is found stands in the list. -/
theorem mem_of_find? {k : String} {v : α} {l : List (String × α)} (h : find? k l = some v) :
    (k, v) ∈ l := by
  induction l with
  | nil => simp [find?] at h
  | cons e rest ih =>
    obtain ⟨j, w⟩ := e
    by_cases hj : j = k
    · rw [find?, if_pos hj, Option.some.injEq] at h
      rw [hj, h]
      exact List.mem_cons_self
    · rw [find?, if_neg hj] at h
      exact List.mem_cons_of_mem _ (ih h)

/-- In a list without repeated keys every entry is the one that is found. -/
theorem find?_of_mem {k : String} {v : α} {l : List (String × α)}
    (hl : (l.map Prod.fst).Nodup) (h : (k, v) ∈ l) : find? k l = some v := by
  induction l with
  | nil => exact absurd h List.not_mem_nil
  | cons e rest ih =>
    rw [List.map_cons, List.nodup_cons] at hl
    rcases List.mem_cons.1 h with rfl | h
    · simp [find?]
    · have hk : e.1 ≠ k := fun hk => hl.1 (hk ▸ List.mem_map_of_mem h)
      rw [find?, if_neg hk]
      exact ih hl.2 h

/-- A key that does not stand in the list is not found. -/
theorem find?_eq_none {k : String} {l : List (String × α)} (h : k ∉ l.map Prod.fst) :
    find? k l = none := by
  cases hf : find? k l with
  | none => rfl
  | some v => exact absurd (List.mem_map_of_mem (f := Prod.fst) (mem_of_find? hf)) h

/-- **Look-up and entries agree.** -/
theorem get?_eq_some_iff {m : Keyed α} {k : String} {v : α} :
    m.get? k = some v ↔ (k, v) ∈ m.entries :=
  ⟨mem_of_find?, find?_of_mem m.distinct⟩

/-- The values of a map are what its keys are bound to. -/
theorem mem_values_iff {m : Keyed α} {v : α} : v ∈ m.values ↔ ∃ k, m.get? k = some v := by
  simp [values, get?_eq_some_iff]

/-- Writing what is there already changes nothing. -/
theorem put_of_find? {k : String} {v : α} {l : List (String × α)} (h : find? k l = some v) :
    put k v l = l := by
  induction l with
  | nil => simp [find?] at h
  | cons e rest ih =>
    obtain ⟨j, w⟩ := e
    by_cases hj : j = k
    · rw [find?, if_pos hj, Option.some.injEq] at h
      rw [put, if_pos hj, h, hj]
    · rw [find?, if_neg hj] at h
      rw [put, if_neg hj, ih h]

/-- A write of what is there already changes nothing. -/
theorem insert_of_get? {m : Keyed α} {k : String} {v : α} (h : m.get? k = some v) :
    m.insert k v = m := by
  obtain ⟨l, hl⟩ := m
  simp only [insert, put_of_find? (show find? k l = some v from h)]

/-- What a list of entries holds. -/
def sumOf (f : α → Multiset β) (l : List (String × α)) : Multiset β :=
  (l.map fun e => f e.2).sum

/-- No entries contribute nothing. -/
@[simp] theorem sumOf_nil (f : α → Multiset β) : sumOf f [] = 0 := rfl

/-- The first entry contributes what its value does. -/
@[simp] theorem sumOf_cons (f : α → Multiset β) (e : String × α) (l : List (String × α)) :
    sumOf f (e :: l) = f e.2 + sumOf f l := by
  simp [sumOf]

/-- Whatever is in a sum comes from an entry. -/
theorem mem_sumOf {f : α → Multiset β} {l : List (String × α)} {x : β} :
    x ∈ sumOf f l ↔ ∃ e ∈ l, x ∈ f e.2 := by
  induction l with
  | nil => simp
  | cons e rest ih => simp [ih]

/-- A write takes away what the old value contributed and adds what the new one does. -/
theorem sumOf_put (f : α → Multiset β) (k : String) (v : α) (l : List (String × α)) :
    sumOf f (put k v l) + (find? k l).elim 0 f = sumOf f l + f v := by
  induction l with
  | nil => simp [put, find?]
  | cons e rest ih =>
    obtain ⟨j, w⟩ := e
    by_cases hj : j = k
    · simp only [put, find?, if_pos hj, sumOf_cons, Option.elim_some]
      abel
    · simp only [put, find?, if_neg hj, sumOf_cons]
      rw [add_assoc, ih, add_assoc]

/-- Filtering a key out takes away what its value contributed. -/
theorem sumOf_filter_ne (f : α → Multiset β) (k : String) (l : List (String × α))
    (hl : (l.map Prod.fst).Nodup) :
    sumOf f (l.filter fun e => e.1 != k) + (find? k l).elim 0 f = sumOf f l := by
  induction l with
  | nil => simp [find?]
  | cons e rest ih =>
    obtain ⟨j, w⟩ := e
    rw [List.map_cons, List.nodup_cons] at hl
    have ih := ih hl.2
    by_cases hj : j = k
    · subst hj
      rw [find?_eq_none hl.1] at ih
      simp only [find?, List.filter_cons, bne_self_eq_false, Bool.false_eq_true, if_false, if_true,
        Option.elim_some, sumOf_cons]
      rw [← ih, Option.elim_none, add_zero, add_comm]
    · simp only [find?, List.filter_cons, bne_iff_ne, ne_eq, hj, not_false_eq_true, if_true,
        if_false, sumOf_cons]
      rw [add_assoc, ih]

/-- Everything that the values of a map stand for, taken together. -/
def total (f : α → Multiset β) (m : Keyed α) : Multiset β := sumOf f m.entries

/-- An empty map contributes nothing. -/
@[simp] theorem total_empty (f : α → Multiset β) : total f empty = 0 := rfl

/-- Values that stand for themselves. -/
theorem total_singleton (m : Keyed β) : total ({·}) m = (m.values : Multiset β) := by
  have hlist : ∀ l : List (String × β), sumOf ({·}) l = (l.map Prod.snd : Multiset β) := by
    intro l
    induction l with
    | nil => rfl
    | cons e rest ih =>
      rw [sumOf_cons, ih, List.map_cons, ← Multiset.cons_coe, Multiset.singleton_add]
  exact hlist m.entries

/-- **A write exchanges what the key stood for.** -/
theorem total_insert (f : α → Multiset β) (m : Keyed α) (k : String) (v : α) :
    total f (m.insert k v) + (m.get? k).elim 0 f = total f m + f v :=
  sumOf_put f k v m.entries

/-- **A removal takes out what the key stood for.** -/
theorem total_erase (f : α → Multiset β) (m : Keyed α) (k : String) :
    total f (m.erase k) + (m.get? k).elim 0 f = total f m :=
  sumOf_filter_ne f k m.entries m.distinct

/-- A value contributes no more than all of them together. -/
theorem le_total (f : α → Multiset β) {m : Keyed α} {k : String} {v : α}
    (h : m.get? k = some v) : f v ≤ total f m := by
  rw [← total_erase f m k, h]
  exact Multiset.le_add_left _ _

/-- What a map holds, one of its values holds. -/
theorem mem_total {f : α → Multiset β} {m : Keyed α} {x : β} :
    x ∈ total f m ↔ ∃ k v, m.get? k = some v ∧ x ∈ f v := by
  constructor
  · intro h
    obtain ⟨⟨k, v⟩, hm, hx⟩ := mem_sumOf.1 h
    exact ⟨k, v, get?_eq_some_iff.2 hm, hx⟩
  · rintro ⟨k, v, hk, hx⟩
    exact Multiset.mem_of_le (le_total f hk) hx

/-! ### Maps side by side -/

section Map

variable {f g : α → β} {p : String → Bool} {m : Keyed α} {k : String} {v : α}

/-- Every value under its key is turned into another one. -/
def map (f : α → β) (m : Keyed α) : Keyed β :=
  ⟨m.entries.map fun e => (e.1, f e.2), by
    rw [List.map_map]
    exact m.distinct⟩

/-- The keys for which `p` holds, with what stands under them. -/
def keep (p : String → Bool) (m : Keyed α) : Keyed α :=
  ⟨m.entries.filter fun e => p e.1, m.distinct.sublist (List.filter_sublist.map Prod.fst)⟩

/-- A map is its list of entries. -/
theorem ext_entries {m n : Keyed α} (h : m.entries = n.entries) : m = n := by
  cases m
  cases n
  simp only at h
  subst h
  rfl

/-- A function on the values does not change where a key is found. -/
theorem find?_map (f : α → β) (k : String) (l : List (String × α)) :
    find? k (l.map fun e => (e.1, f e.2)) = (find? k l).map f := by
  induction l with
  | nil => rfl
  | cons e rest ih =>
    rw [List.map_cons, find?, find?]
    split_ifs
    · rfl
    · exact ih

/-- A function on the values is applied to what is found. -/
theorem get?_map (f : α → β) (m : Keyed α) (k : String) : (m.map f).get? k = (m.get? k).map f :=
  find?_map f k m.entries

/-- A function on the values changes no key. -/
theorem contains_map (f : α → β) (m : Keyed α) (k : String) :
    (m.map f).contains k = m.contains k := by
  rw [contains, contains, get?_map, Option.isSome_map]

/-- Only what a function makes of the values that are there matters. -/
theorem map_congr (h : ∀ v ∈ m.values, f v = g v) : m.map f = m.map g :=
  ext_entries (List.map_congr_left fun e he => by rw [h e.2 (List.mem_map_of_mem he)])

/-- A write side by side; under the other keys both maps agree. -/
theorem map_insert (h : ∀ j w, m.get? j = some w → j ≠ k → f w = g w) :
    (m.insert k v).map f = (m.map g).insert k (f v) := by
  have hput : ∀ l : List (String × α), (∀ e ∈ l, e.1 ≠ k → f e.2 = g e.2) →
      (l.map Prod.fst).Nodup → (put k v l).map (fun e => (e.1, f e.2)) =
        put k (f v) (l.map fun e => (e.1, g e.2)) := by
    intro l
    induction l with
    | nil => exact fun _ _ => rfl
    | cons e rest ih =>
      intro hl hnodup
      rw [List.map_cons, List.nodup_cons] at hnodup
      have hrest : ∀ x ∈ rest, x.1 ≠ k → f x.2 = g x.2 := fun x hx =>
        hl x (List.mem_cons_of_mem e hx)
      by_cases he : e.1 = k
      · rw [put, if_pos he, List.map_cons, List.map_cons, put, if_pos he]
        refine congrArg _ (List.map_congr_left fun x hx => ?_)
        rw [hrest x hx fun hxk => hnodup.1 (he ▸ hxk ▸ List.mem_map_of_mem hx)]
      · rw [put, if_neg he, List.map_cons, List.map_cons, put, if_neg he, ih hrest hnodup.2,
          hl e List.mem_cons_self he]
  exact ext_entries (hput m.entries (fun e he => h e.1 e.2 (get?_eq_some_iff.2 he)) m.distinct)

/-- Entries can be dropped by key before or after a function is applied to the values. -/
theorem map_keep : (m.keep p).map f = (m.map f).keep p := by
  refine ext_entries ?_
  simp only [map, keep, List.filter_map]
  rfl

end Map

end Keyed
end Telemetry
