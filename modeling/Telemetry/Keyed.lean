/-
# Finite maps with text keys

The entries keep the order in which their keys came; a second write to a key
replaces the value where it stands.  No key occurs twice, which the type
itself says.
-/

namespace Telemetry

/-- Values under distinct text keys. -/
structure Keyed (α : Type) where
  entries : List (String × α)
  distinct : (entries.map Prod.fst).Nodup

namespace Keyed

variable {α β : Type}

/-- The map without entries. -/
def empty : Keyed α := ⟨[], List.nodup_nil⟩

instance : Inhabited (Keyed α) := ⟨empty⟩

/-- The keys in the order of the entries. -/
def keys (m : Keyed α) : List String := m.entries.map Prod.fst

/-- The values in the order of the entries. -/
def values (m : Keyed α) : List α := m.entries.map Prod.snd

/-- How many keys have a value. -/
def size (m : Keyed α) : Nat := m.entries.length

/-- The value under a key in a list of entries. -/
def find? (k : String) : List (String × α) → Option α
  | [] => none
  | (j, v) :: rest => if j = k then some v else find? k rest

/-- The value under a key. -/
def get? (m : Keyed α) (k : String) : Option α := find? k m.entries

/-- Whether a key has a value. -/
def contains (m : Keyed α) (k : String) : Bool := (m.get? k).isSome

/-- The entries with `v` under `k`. -/
def put (k : String) (v : α) : List (String × α) → List (String × α)
  | [] => [(k, v)]
  | (j, w) :: rest => if j = k then (k, v) :: rest else (j, w) :: put k v rest

/-- The keys after a write are the old ones and the written one. -/
theorem mem_keys_put {k j : String} {v : α} {l : List (String × α)}
    (h : j ∈ (put k v l).map Prod.fst) : j = k ∨ j ∈ l.map Prod.fst := by
  induction l with
  | nil => simpa [put] using h
  | cons e rest ih =>
    obtain ⟨i, w⟩ := e
    by_cases hik : i = k
    · simp only [put, hik, if_true, List.map_cons, List.mem_cons] at h ⊢
      exact h.imp_right Or.inr
    · simp only [put, hik, if_false, List.map_cons, List.mem_cons] at h ⊢
      rcases h with h | h
      · exact Or.inr (Or.inl h)
      · exact (ih h).imp_right Or.inr

/-- A write does not repeat a key, since an entry of the same key is overwritten in place. -/
theorem nodup_keys_put {k : String} {v : α} {l : List (String × α)}
    (h : (l.map Prod.fst).Nodup) : ((put k v l).map Prod.fst).Nodup := by
  induction l with
  | nil => simp [put]
  | cons e rest ih =>
    obtain ⟨i, w⟩ := e
    rw [List.map_cons, List.nodup_cons] at h
    by_cases hik : i = k
    · subst hik
      simpa only [put, if_true, List.map_cons, List.nodup_cons] using h
    · simp only [put, hik, if_false, List.map_cons, List.nodup_cons]
      exact ⟨fun hm => (mem_keys_put hm).elim hik h.1, ih h.2⟩

/-- The map with `v` under `k`. -/
def insert (m : Keyed α) (k : String) (v : α) : Keyed α :=
  ⟨put k v m.entries, nodup_keys_put m.distinct⟩

/-- The map without the key `k`. -/
def erase (m : Keyed α) (k : String) : Keyed α :=
  ⟨m.entries.filter fun e => e.1 != k,
    m.distinct.sublist (List.filter_sublist.map Prod.fst)⟩

/-- A list reads back what was written last under the key, and at all other keys what it
had. -/
theorem find?_put (k j : String) (v : α) (l : List (String × α)) :
    find? j (put k v l) = if k = j then some v else find? j l := by
  induction l with
  | nil => simp [put, find?]
  | cons e rest ih =>
    obtain ⟨i, w⟩ := e
    by_cases hik : i = k
    · subst hik
      by_cases hij : i = j <;> simp [put, find?, hij]
    · by_cases hij : i = j
      · subst hij
        simp [put, find?, hik, Ne.symm hik]
      · simp [put, find?, hik, hij, ih]

/-- What stays when a key is filtered out is found as before, and the key itself is not. -/
theorem find?_filter_ne (k j : String) (l : List (String × α)) :
    find? j (l.filter fun e => e.1 != k) = if k = j then none else find? j l := by
  induction l with
  | nil => simp [find?]
  | cons e rest ih =>
    obtain ⟨i, w⟩ := e
    by_cases hik : i = k
    · subst hik
      by_cases hij : i = j
      · simpa [find?, hij] using ih
      · simpa [find?, hij] using ih
    · by_cases hij : i = j
      · subst hij
        simp [find?, hik, Ne.symm hik]
      · simp [find?, hik, hij, ih]

/-- Nothing is found in an empty map. -/
@[simp] theorem get?_empty (k : String) : (empty : Keyed α).get? k = none := rfl

/-- A write to a key is read back, and no other key is touched. -/
theorem get?_insert (m : Keyed α) (k j : String) (v : α) :
    (m.insert k v).get? j = if k = j then some v else m.get? j :=
  find?_put k j v m.entries

/-- An erased key has no value, and no other key is touched. -/
theorem get?_erase (m : Keyed α) (k j : String) :
    (m.erase k).get? j = if k = j then none else m.get? j :=
  find?_filter_ne k j m.entries

/-- The map of a list of writes, the last one to a key in force. -/
def ofList (writes : List (String × α)) : Keyed α :=
  writes.foldl (fun m e => m.insert e.1 e.2) empty

/-- Equality of maps, whatever the order of their entries. -/
def equalsBy (same : α → α → Bool) (m n : Keyed α) : Bool :=
  m.size == n.size && m.entries.all fun (k, v) =>
    match n.get? k with
    | some w => same v w
    | none => false

end Keyed
end Telemetry
