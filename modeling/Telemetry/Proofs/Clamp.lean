/-
# User attributes up to a limit

User attributes are recorded while they have fewer keys than the limit, and the
number of keys is counted beside the map.  So exactly the first writes count:
those up to the one that brings the last key which the limit allows
(`Keyed.Quota`).  A write behind them is refused even where its key is there
already (`Metadata.recorded_clamped`).
-/

import Telemetry.Proofs.Snapshots

namespace Telemetry

namespace Keyed

variable {α : Type} {n : Nat} {writes before after kept : List (String × α)}

/-- The shortest list of first writes that has `n` keys, or all of the writes if
they have fewer. -/
structure Quota (n : Nat) (writes kept : List (String × α)) : Prop where
  first : kept <+: writes
  shortest : ∀ before, before <+: kept → before ≠ kept → (keysOf before).card < n
  full : (keysOf kept).card = n ∨ kept = writes ∧ (keysOf writes).card < n

/-- More writes have no fewer keys. -/
theorem card_keysOf_mono (h : before <+: writes) : (keysOf before).card ≤ (keysOf writes).card := by
  obtain ⟨after, rfl⟩ := h
  refine Finset.card_le_card ?_
  rw [keysOf, keysOf, List.map_append, List.toFinset_append]
  exact Finset.subset_union_left

/-- While the limit is not reached, every write is admitted. -/
theorem admitted_of_card_lt (h : (keysOf (admitted n writes)).card < n) :
    admitted n writes = writes := by
  induction writes using List.reverseRecOn with
  | nil => rfl
  | append_singleton writes w ih =>
    rw [admitted_concat] at h ⊢
    by_cases hlt : (keysOf (admitted n writes)).card < n
    · rw [if_pos hlt, ih hlt]
    · rw [if_neg hlt] at h
      exact absurd h hlt

/-- Those that come before the quota is full have no more keys than the quota. -/
theorem card_admitted_le (n : Nat) (writes : List (String × α)) :
    (keysOf (admitted n writes)).card ≤ n := by
  induction writes using List.reverseRecOn with
  | nil => exact Nat.zero_le n
  | append_singleton writes w ih =>
    rw [admitted_concat]
    split_ifs with hlt
    · rw [keysOf_concat]
      exact (Finset.card_insert_le _ _).trans hlt
    · exact ih

/-- What is admitted stays so when more is written. -/
theorem admitted_initial (n : Nat) (before after : List (String × α)) :
    admitted n before <+: admitted n (before ++ after) := by
  induction after using List.reverseRecOn with
  | nil => rw [List.append_nil]
  | append_singleton after w ih =>
    rw [← List.append_assoc, admitted_concat]
    split_ifs
    · exact ih.trans (List.prefix_append _ _)
    · exact ih

/-- Once the limit is reached, nothing more is admitted. -/
theorem admitted_append (h : (keysOf (admitted n before)).card = n) (after : List (String × α)) :
    admitted n (before ++ after) = admitted n before := by
  induction after using List.reverseRecOn with
  | nil => rw [List.append_nil]
  | append_singleton after w ih =>
    rw [← List.append_assoc, admitted_concat, ih, if_neg h.not_lt]

/-- **What is admitted are the first writes, as many as the limit takes.** -/
theorem admitted_quota (n : Nat) (writes : List (String × α)) :
    Quota n writes (admitted n writes) := by
  induction writes using List.reverseRecOn with
  | nil =>
    refine ⟨List.prefix_rfl, fun before hb hne => absurd (List.prefix_nil.1 hb) hne, ?_⟩
    rcases Nat.eq_zero_or_pos n with rfl | hn
    · exact Or.inl rfl
    · exact Or.inr ⟨rfl, hn⟩
  | append_singleton writes w ih =>
    rw [admitted_concat]
    split_ifs with hlt
    · -- the limit was not reached, so all writes are admitted up to this one
      have hall := admitted_of_card_lt hlt
      rw [hall] at hlt ⊢
      refine ⟨List.prefix_rfl, fun before hb hne => ?_, ?_⟩
      · exact (card_keysOf_mono ((List.prefix_concat_iff.1 hb).resolve_left hne)).trans_lt hlt
      · have hle : (keysOf (writes ++ [w])).card ≤ n := by
          rw [keysOf_concat]
          exact (Finset.card_insert_le _ _).trans hlt
        exact hle.eq_or_lt.imp id fun h => ⟨rfl, h⟩
    · refine ⟨ih.first.trans (List.prefix_append _ _), ih.shortest, Or.inl ?_⟩
      exact (card_admitted_le n writes).antisymm (not_lt.1 hlt)

/-- A write is within the quota if and only if those before it have fewer keys
than the limit. -/
theorem length_lt_admitted_iff (w : String × α) (after : List (String × α)) :
    before.length < (admitted n (before ++ w :: after)).length ↔
      (keysOf (admitted n before)).card < n := by
  constructor
  · intro h
    by_contra hge
    rw [admitted_append ((card_admitted_le n before).antisymm (not_lt.1 hge))] at h
    exact absurd (admitted_quota n before).first.length_le h.not_ge
  · intro h
    have hwith : admitted n (before ++ [w]) = before ++ [w] := by
      rw [admitted_concat, if_pos h, admitted_of_card_lt h]
    have hlen := (admitted_initial n (before ++ [w]) after).length_le
    rw [hwith, List.append_assoc, List.length_append] at hlen
    exact hlen

/-- A map has as many entries as the writes have keys. -/
theorem size_ofList (writes : List (String × α)) :
    (ofList writes).size = (keysOf writes).card := by
  have hkeys : (ofList writes).keys.toFinset = keysOf writes := by
    ext k
    rw [List.mem_toFinset, ← contains_ofList, contains, Option.isSome_iff_exists]
    simp [keys, get?_eq_some_iff]
  rw [← hkeys, keys, List.toFinset_card_of_nodup (ofList writes).distinct, List.length_map, size]

end Keyed

namespace Metadata

variable {limits : Limits} {writes : List (String × Value)}

/-- A request of which only user attributes are recorded. -/
def recorded (limits : Limits) (writes : List (String × Value)) : Metadata :=
  writes.foldl (fun m w => (m.addUserAttribute w.1 w.2).2.2) (ofLimits limits)

/-- What the last write adds is decided by the request as the others leave it. -/
theorem recorded_concat (limits : Limits) (writes : List (String × Value)) (w : String × Value) :
    recorded limits (writes ++ [w]) =
      ((recorded limits writes).addUserAttribute w.1 w.2).2.2 :=
  List.foldl_concat ..

/-- Recording an attribute leaves the limits. -/
theorem addUserAttribute_limits (m : Metadata) (k : String) (v : Value) :
    (m.addUserAttribute k v).2.2.limits = m.limits := by
  unfold addUserAttribute
  split_ifs <;> rfl

/-- Recording any number of them does. -/
theorem recorded_limits (limits : Limits) (writes : List (String × Value)) :
    (recorded limits writes).limits = limits := by
  induction writes using List.reverseRecOn with
  | nil => rfl
  | append_singleton writes w ih => rw [recorded_concat, addUserAttribute_limits, ih]

/-- The attributes and their count follow the writes that are admitted. -/
theorem recorded_admits (limits : Limits) (writes : List (String × Value)) :
    (recorded limits writes).Admits (Keyed.admitted limits.userAttributes writes) := by
  induction writes using List.reverseRecOn with
  | nil => exact ⟨rfl, rfl⟩
  | append_singleton writes w ih =>
    have hadd := ih.addUserAttribute w.1 w.2
    rw [recorded_limits] at hadd
    rw [recorded_concat, Keyed.admitted_concat]
    exact hadd

/-- **The first writes count, up to the limit on their keys.**  The writes that
are kept are stored without a word.  Every later one is refused, also a write to
a key that is there; it changes nothing and is reported.  The map is that of the
last kept write to each key, and its keys were counted all the while. -/
theorem recorded_clamped (limits : Limits) (writes : List (String × Value)) :
    ∃ kept, Keyed.Quota limits.userAttributes writes kept ∧
      (∀ before k v after, writes = before ++ (k, v) :: after →
        (before.length < kept.length →
          ((recorded limits before).addUserAttribute k v).1 = true ∧
            ((recorded limits before).addUserAttribute k v).2.1 = []) ∧
        (kept.length ≤ before.length → (recorded limits before).addUserAttribute k v =
          (false, [.attributeDiscarded k limits.userAttributes], recorded limits before))) ∧
      (∀ k, (recorded limits writes).userAttributes.get? k = Keyed.lastUnder k kept) ∧
      ∀ before, before <+: writes →
        (recorded limits before).admitted = (recorded limits before).userAttributes.size ∧
          (recorded limits before).admitted ≤ limits.userAttributes := by
  refine ⟨Keyed.admitted limits.userAttributes writes, Keyed.admitted_quota _ _,
    ?calls, fun k => ?map, fun before _ => ?counter⟩
  case calls =>
    rintro before k v after rfl
    have hcount := (recorded_admits limits before).count
    have hlimits := recorded_limits limits before
    -- whether there is room is a matter of the counter, which counts the admitted keys
    rw [← not_lt, Keyed.length_lt_admitted_iff, ← hcount]
    constructor
    · intro h
      rw [addUserAttribute, hlimits, if_neg h.not_ge]
      exact ⟨rfl, rfl⟩
    · intro h
      rw [addUserAttribute, hlimits, if_pos (not_lt.1 h)]
  case map => rw [(recorded_admits limits writes).attributes, Keyed.get?_ofList]
  case counter =>
    have hadmits := recorded_admits limits before
    rw [hadmits.count, hadmits.attributes, Keyed.size_ofList]
    exact ⟨rfl, Keyed.card_admitted_le _ _⟩

/-- With room for two keys, the write that brings the second one is the last that
counts. -/
example : (recorded ⟨2, 10⟩ [("a", .text "1"), ("a", .text "2"), ("b", .text "3"),
    ("a", .text "4"), ("c", .text "5")]).userAttributes.entries =
      [("a", .text "2"), ("b", .text "3")] := by
  decide

end Metadata
end Telemetry
