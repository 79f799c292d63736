/-!
# Maps in order of first insertion

A finite map that remembers the order in which its keys came in. Inserting under a key that is
already there replaces the value and keeps the place.

The view of a map is `get?`; `get?_insert` says what an insertion does to it, and `keys_insert`
what it does to the order. `get?_insertAll` and `keys_insertAll` say the same of a list of
insertions. Inserting a map is inserting, one after the other, what was inserted into it
(`insertAll_entries_insertAll`).
-/

namespace UncheckedErrors

/-- A map from `α` to `β`, as the list of its entries in order of first insertion. -/
structure OrderedMap (α : Type u) (β : Type v) where
  entries : List (α × β)
  deriving Repr

namespace OrderedMap

variable {α : Type u} {β : Type v} [DecidableEq α]

/-- The map without entries. -/
def empty : OrderedMap α β := ⟨[]⟩

/-- The keys, in order of first insertion. -/
def keys (m : OrderedMap α β) : List α := m.entries.map (·.1)

/-- The values, in order of first insertion of their keys. -/
def values (m : OrderedMap α β) : List β := m.entries.map (·.2)

/-- Number of entries. -/
def size (m : OrderedMap α β) : Nat := m.entries.length

/-- The value under `k` in a list of entries. -/
def lookup (k : α) : List (α × β) → Option β
  | [] => none
  | (k', v) :: rest => if k' = k then some v else lookup k rest

/-- The value under a key. -/
def get? (m : OrderedMap α β) (k : α) : Option β := lookup k m.entries

/-- Puts `v` under `k` in a list of entries. -/
def insertEntry (k : α) (v : β) : List (α × β) → List (α × β)
  | [] => [(k, v)]
  | (k', v') :: rest => if k' = k then (k', v) :: rest else (k', v') :: insertEntry k v rest

/-- Puts a value under a key. -/
def insert (m : OrderedMap α β) (k : α) (v : β) : OrderedMap α β :=
  ⟨insertEntry k v m.entries⟩

/-- Inserts a list of entries, first to last. -/
def insertAll (m : OrderedMap α β) (entries : List (α × β)) : OrderedMap α β :=
  entries.foldl (fun m e => m.insert e.1 e.2) m

@[simp] theorem get?_empty (k : α) : (empty : OrderedMap α β).get? k = none := rfl

theorem lookup_insertEntry (k k' : α) (v : β) (entries : List (α × β)) :
    lookup k' (insertEntry k v entries) = if k = k' then some v else lookup k' entries := by
  induction entries with
  | nil => simp [insertEntry, lookup]
  | cons e rest ih =>
    obtain ⟨k₀, v₀⟩ := e
    by_cases h : k₀ = k
    · subst h
      by_cases h' : k₀ = k' <;> simp [insertEntry, lookup, h']
    · by_cases h' : k₀ = k'
      · subst h'
        simp [insertEntry, lookup, h, Ne.symm h]
      · simp [insertEntry, lookup, h, h', ih]

/-- An insertion changes the value under its key and no other. -/
@[simp] theorem get?_insert (m : OrderedMap α β) (k k' : α) (v : β) :
    (m.insert k v).get? k' = if k = k' then some v else m.get? k' :=
  lookup_insertEntry k k' v m.entries

theorem map_fst_insertEntry (k : α) (v : β) (entries : List (α × β)) :
    (insertEntry k v entries).map (·.1) =
      if k ∈ entries.map (·.1) then entries.map (·.1) else entries.map (·.1) ++ [k] := by
  induction entries with
  | nil => simp [insertEntry]
  | cons e rest ih =>
    obtain ⟨k₀, v₀⟩ := e
    by_cases h : k₀ = k
    · simp [insertEntry, h]
    · have h' : ¬ k = k₀ := fun e => h e.symm
      simp only [insertEntry, h, ↓reduceIte, List.map_cons, ih, List.mem_cons, h', false_or]
      split <;> simp

/-- An insertion keeps the order of the keys; a new key comes last. -/
theorem keys_insert (m : OrderedMap α β) (k : α) (v : β) :
    (m.insert k v).keys = if k ∈ m.keys then m.keys else m.keys ++ [k] :=
  map_fst_insertEntry k v m.entries

theorem lookup_isSome_iff (k : α) (entries : List (α × β)) :
    (lookup k entries).isSome = true ↔ k ∈ entries.map (·.1) := by
  induction entries with
  | nil => simp [lookup]
  | cons e rest ih =>
    obtain ⟨k₀, v₀⟩ := e
    by_cases h : k₀ = k
    · simp [lookup, h]
    · have h' : ¬ k = k₀ := fun e => h e.symm
      simp [lookup, h, h', ih]

/-- A key has a value exactly if it was inserted. -/
theorem get?_isSome_iff (m : OrderedMap α β) (k : α) : (m.get? k).isSome = true ↔ k ∈ m.keys :=
  lookup_isSome_iff k m.entries

/-! ## Several insertions -/

@[simp] theorem insertAll_nil (m : OrderedMap α β) : m.insertAll [] = m := rfl

@[simp] theorem insertAll_cons (m : OrderedMap α β) (e : α × β) (entries : List (α × β)) :
    m.insertAll (e :: entries) = (m.insert e.1 e.2).insertAll entries := rfl

/-- Of several insertions under one key the last one counts. -/
theorem get?_insertAll (m : OrderedMap α β) (entries : List (α × β)) (k : α) :
    (m.insertAll entries).get? k =
      ((entries.filter (·.1 = k)).getLast?.map (·.2)).or (m.get? k) := by
  induction entries generalizing m with
  | nil => rfl
  | cons e entries ih =>
    rw [insertAll_cons, ih, get?_insert]
    by_cases h : e.1 = k
    · rw [List.filter_cons_of_pos (by simpa using h), List.getLast?_cons, if_pos h]
      cases (entries.filter (·.1 = k)).getLast? with
      | none => rfl
      | some _ => rfl
    · rw [List.filter_cons_of_neg (by simpa using h), if_neg h]

/-- The keys that are new come last, in order of first insertion. -/
theorem keys_insertAll (m : OrderedMap α β) (entries : List (α × β)) :
    (m.insertAll entries).keys =
      m.keys ++ ((entries.map (·.1)).removeAll m.keys).eraseDups := by
  induction entries generalizing m with
  | nil => simp
  | cons e entries ih =>
    rw [insertAll_cons, ih, keys_insert, List.map_cons]
    by_cases h : e.1 ∈ m.keys
    · simp [h, List.removeAll]
    · simp only [h, ↓reduceIte, List.append_assoc, List.removeAll, List.elem_eq_contains,
        List.contains_eq_mem, List.mem_append, List.mem_cons, List.not_mem_nil, or_false,
        decide_false, Bool.not_false, List.filter_cons_of_pos, List.eraseDups_cons,
        List.filter_filter, List.cons_append, List.nil_append]
      congr 3
      refine List.filter_congr fun k _ => ?_
      by_cases hk : k = e.1 <;> simp [hk]

theorem keys_insertAll_empty (entries : List (α × β)) :
    ((empty : OrderedMap α β).insertAll entries).keys = (entries.map (·.1)).eraseDups := by
  have hall : (entries.map (·.1)).removeAll [] = entries.map (·.1) :=
    List.filter_eq_self.mpr fun _ _ => rfl
  rw [keys_insertAll, show (empty : OrderedMap α β).keys = [] from rfl, hall, List.nil_append]

theorem nodup_keys_insert {m : OrderedMap α β} (h : m.keys.Nodup) (k : α) (v : β) :
    (m.insert k v).keys.Nodup := by
  rw [keys_insert]
  split
  · exact h
  · rename_i hk
    rw [List.nodup_append]
    refine ⟨h, by simp, ?_⟩
    rintro a ha b hb rfl
    exact hk (List.mem_singleton.mp hb ▸ ha)

theorem insertAll_append (m : OrderedMap α β) (xs ys : List (α × β)) :
    m.insertAll (xs ++ ys) = (m.insertAll xs).insertAll ys := List.foldl_append

/-- No key of a map comes twice, if the map was made by insertions. -/
theorem nodup_keys_insertAll {m : OrderedMap α β} (h : m.keys.Nodup) (entries : List (α × β)) :
    (m.insertAll entries).keys.Nodup := by
  induction entries generalizing m with
  | nil => exact h
  | cons e entries ih => exact ih (nodup_keys_insert h e.1 e.2)

/-- An entry of a map is the value under its key. -/
theorem get?_of_mem {m : OrderedMap α β} (h : m.keys.Nodup) {e : α × β} (he : e ∈ m.entries) :
    m.get? e.1 = some e.2 := by
  obtain ⟨entries⟩ := m
  show lookup e.1 entries = some e.2
  change (entries.map (·.1)).Nodup at h
  change e ∈ entries at he
  induction entries with
  | nil => cases he
  | cons e' entries ih =>
    rw [List.map_cons, List.nodup_cons] at h
    unfold lookup
    rcases List.mem_cons.mp he with rfl | he
    · exact if_pos rfl
    · have hne : e'.1 ≠ e.1 := fun heq => h.1 (heq ▸ List.mem_map_of_mem he)
      rw [if_neg hne]
      exact ih h.2 he

/-- The values are those under the keys, if no key comes twice. -/
theorem values_eq_map_keys {m : OrderedMap α β} (h : m.keys.Nodup) (default : β) :
    m.values = m.keys.map fun k => (m.get? k).getD default := by
  rw [values, keys, List.map_map]
  refine List.map_congr_left fun e he => ?_
  rw [Function.comp_apply, get?_of_mem h he, Option.getD_some]

/-! ## Maps inserted into maps -/

/-- A later insertion under the same key makes an earlier one void. -/
theorem insert_insert (m : OrderedMap α β) (k : α) (v w : β) :
    (m.insert k v).insert k w = m.insert k w := by
  obtain ⟨entries⟩ := m
  refine congrArg OrderedMap.mk ?_
  show insertEntry k w (insertEntry k v entries) = insertEntry k w entries
  induction entries with
  | nil => simp [insertEntry]
  | cons e rest ih =>
    by_cases h : e.1 = k
    · simp [insertEntry, h]
    · simp only [insertEntry, if_neg h, ih]

/-- A key that has its place already can be given its value before or after another key. -/
theorem insert_comm {m : OrderedMap α β} {k k' : α} (hk : k ∈ m.keys) (hne : k' ≠ k) (v v' : β) :
    (m.insert k' v').insert k v = (m.insert k v).insert k' v' := by
  obtain ⟨entries⟩ := m
  refine congrArg OrderedMap.mk ?_
  show insertEntry k v (insertEntry k' v' entries) = insertEntry k' v' (insertEntry k v entries)
  replace hk : k ∈ entries.map (·.1) := hk
  induction entries with
  | nil => cases hk
  | cons e rest ih =>
    rw [List.map_cons, List.mem_cons] at hk
    by_cases h : e.1 = k
    · simp [insertEntry, h, hne.symm]
    · have hrest := ih (hk.resolve_left fun heq => h heq.symm)
      by_cases h' : e.1 = k'
      · simp [insertEntry, h', hne]
      · simp only [insertEntry, if_neg h, if_neg h', hrest]

/-- The keys after an insertion are the new one and those from before. -/
theorem mem_keys_insert {m : OrderedMap α β} {k k' : α} {v : β} :
    k' ∈ (m.insert k v).keys ↔ k' = k ∨ k' ∈ m.keys := by
  rw [keys_insert]
  split
  · rename_i hk
    exact ⟨.inr, fun h => h.elim (fun heq => heq ▸ hk) id⟩
  · rw [List.mem_append, List.mem_singleton, Or.comm]

/-- So it can also be given its value before or after several others. -/
theorem insert_insertAll_comm {m : OrderedMap α β} {k : α} (hk : k ∈ m.keys)
    {entries : List (α × β)} (hnot : k ∉ entries.map (·.1)) (v : β) :
    (m.insertAll entries).insert k v = (m.insert k v).insertAll entries := by
  induction entries generalizing m with
  | nil => rfl
  | cons e entries ih =>
    rw [List.map_cons, List.mem_cons, not_or] at hnot
    rw [insertAll_cons, insertAll_cons, ih (mem_keys_insert.mpr (.inr hk)) hnot.2,
      insert_comm hk (Ne.symm hnot.1)]

/-- What a map got last can as well be inserted after it. -/
theorem insertAll_insertEntry {entries : List (α × β)} (h : (entries.map (·.1)).Nodup)
    (m : OrderedMap α β) (k : α) (v : β) :
    m.insertAll (insertEntry k v entries) = (m.insertAll entries).insert k v := by
  induction entries generalizing m with
  | nil => rfl
  | cons e entries ih =>
    rw [List.map_cons, List.nodup_cons] at h
    by_cases hk : e.1 = k
    · subst hk
      rw [insertAll_cons, insert_insertAll_comm (mem_keys_insert.mpr (.inl rfl)) h.1,
        insert_insert, insertEntry, if_pos rfl, insertAll_cons]
    · rw [insertEntry, if_neg hk, insertAll_cons, insertAll_cons, ih h.2]

/-- To insert a map is to insert, one after the other, what was inserted into it. -/
theorem insertAll_entries_insertAll {n : OrderedMap α β} (h : n.keys.Nodup) (m : OrderedMap α β)
    (entries : List (α × β)) :
    m.insertAll (n.insertAll entries).entries = (m.insertAll n.entries).insertAll entries := by
  induction entries generalizing n with
  | nil => rfl
  | cons e entries ih =>
    rw [insertAll_cons, insertAll_cons, ih (nodup_keys_insert h e.1 e.2), insert,
      insertAll_insertEntry h]

end OrderedMap

end UncheckedErrors
