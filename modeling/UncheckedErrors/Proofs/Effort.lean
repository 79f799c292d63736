import UncheckedErrors.Proofs.Readers

/-!
# What reading takes

Reading a form takes steps and mentions named types. An `Effort` holds both, and `reads` is the
reader that gives a value at such an effort: it fails when there are fewer steps at hand, and enters
the names into the table otherwise. A reader is understood once it is known to be such a reader; the
laws of this module put the efforts of its parts together (`reads_bind`, `after_reads`,
`within_reads`) and account for parts that are nested deeper (`reads_sub`).
-/

namespace UncheckedErrors

/-- The steps at hand that reading takes, and the names it mentions, in order. -/
@[ext] structure Effort where
  steps : Nat
  names : List TypeName
  deriving DecidableEq, Repr

namespace Effort

/-- What takes nothing. -/
def none : Effort := ⟨0, []⟩

/-- A form without parts. -/
def leaf : Effort := ⟨leafSteps, []⟩

/-- The mention of a name. -/
def mention (n : TypeName) : Effort := ⟨0, [n]⟩

/-- One after the other: the steps are at hand again for the second. -/
instance : Append Effort := ⟨fun e f => ⟨max e.steps f.steps, e.names ++ f.names⟩⟩

/-- The same with `n` steps less at hand. -/
def under (n : Nat) (e : Effort) : Effort := ⟨if e.steps = 0 then 0 else e.steps + n, e.names⟩

/-- A form whose parts take `e`, nested `n` steps deep. -/
def nested (n : Nat) (e : Effort) : Effort := (leaf ++ e).under n

@[simp] theorem steps_append (e f : Effort) : (e ++ f).steps = max e.steps f.steps := rfl

@[simp] theorem names_append (e f : Effort) : (e ++ f).names = e.names ++ f.names := rfl

@[simp] theorem names_under (n : Nat) (e : Effort) : (e.under n).names = e.names := rfl

theorem steps_append_le {s : Nat} {e f : Effort} :
    (e ++ f).steps ≤ s ↔ e.steps ≤ s ∧ f.steps ≤ s :=
  Nat.max_le

@[simp] theorem none_append (e : Effort) : none ++ e = e := by
  ext1
  · exact Nat.zero_max _
  · rfl

@[simp] theorem append_none (e : Effort) : e ++ none = e := by
  ext1
  · exact Nat.max_zero _
  · exact List.append_nil _

theorem append_assoc (e f g : Effort) : e ++ f ++ g = e ++ (f ++ g) := by
  ext1
  · exact Nat.max_assoc ..
  · exact List.append_assoc ..

@[simp] theorem under_none (n : Nat) : none.under n = none := rfl

theorem under_append (n : Nat) (e f : Effort) : (e ++ f).under n = e.under n ++ f.under n := by
  ext1
  · simp only [under, steps_append]
    split <;> split <;> split <;> omega
  · rfl

theorem under_under (m n : Nat) (e : Effort) : (e.under m).under n = e.under (m + n) := by
  ext1
  · simp only [under]
    split <;> split <;> omega
  · rfl

theorem steps_under_le (n : Nat) (e : Effort) : (e.under n).steps ≤ e.steps + n := by
  show (if e.steps = 0 then 0 else e.steps + n) ≤ e.steps + n
  split <;> omega

theorem steps_nested (n : Nat) (e : Effort) : (e.nested n).steps = max leafSteps e.steps + n := by
  have : 0 < max leafSteps e.steps := Nat.lt_of_lt_of_le (by decide) (Nat.le_max_left ..)
  rw [nested, under, if_neg]
  · rfl
  · exact Nat.ne_of_gt this

@[simp] theorem names_nested (n : Nat) (e : Effort) : (e.nested n).names = e.names := rfl

theorem nested_under (m n : Nat) (e : Effort) : (e.nested m).under n = e.nested (m + n) :=
  under_under m n _

end Effort

/-- The table with several names mentioned, first to last. -/
def TypeTable.mentionAll (table : TypeTable) (names : List TypeName) : TypeTable :=
  names.foldl mention table

namespace TypeTable

/-- Mentioning names defines nothing. -/
theorem definition?_mentionAll (table : TypeTable) (names : List TypeName) (n : TypeName) :
    (table.mentionAll names).definition? n = table.definition? n := by
  induction names generalizing table with
  | nil => rfl
  | cons m names ih => rw [mentionAll, List.foldl_cons, ← mentionAll, ih, definition?_mention]

/-- The names after several mentions. -/
theorem mem_names_mentionAll (table : TypeTable) (names : List TypeName) (n : TypeName) :
    n ∈ (table.mentionAll names).names ↔ n ∈ table.names ∨ n ∈ names := by
  induction names generalizing table with
  | nil => simp [mentionAll]
  | cons m names ih =>
    rw [mentionAll, List.foldl_cons, ← mentionAll, ih, names_mention]
    by_cases h : m ∈ table.names <;> grind

end TypeTable

/-- Gives `a` at some effort, with `s` steps at hand. -/
def reads {α : Type} (s : Nat) (e : Effort) (a : α) : Reader α := fun table =>
  if e.steps ≤ s then .ok (a, table.mentionAll e.names) else .error .tooDeep

/-- Goes on after some effort, with `s` steps at hand. -/
def after {α : Type} (s : Nat) (e : Effort) (r : Reader α) : Reader α := fun table =>
  if e.steps ≤ s then r (table.mentionAll e.names) else .error .tooDeep

/-- A form that is taken apart without a mistake. -/
@[simp] theorem liftM_ok {α : Type} (a : α) : (liftM (Except.ok a : Shape α) : Reader α) = pure a :=
  rfl

section

variable {α β : Type} (s : Nat) (e f : Effort)

@[simp] theorem reads_none (a : α) : reads s .none a = pure a := by
  funext table
  exact if_pos (Nat.zero_le s)

@[simp] theorem reads_bind (a : α) (k : α → Reader β) : reads s e a >>= k = after s e (k a) := by
  funext table
  show (reads s e a table >>= fun (a, table) => k a table) = _
  unfold reads after
  split
  · rfl
  · rfl

@[simp] theorem map_reads (k : α → β) (a : α) : k <$> reads s e a = reads s e (k a) := by
  rw [map_eq_pure_bind, reads_bind]
  rfl

@[simp] theorem after_pure (a : α) : after s e (pure a) = reads s e a := rfl

@[simp] theorem after_reads (a : α) : after s e (reads s f a) = reads s (e ++ f) a := by
  funext table
  unfold after reads
  by_cases he : e.steps ≤ s
  · by_cases hf : f.steps ≤ s
    · rw [if_pos he, if_pos hf, if_pos (Effort.steps_append_le.mpr ⟨he, hf⟩), Effort.names_append,
        TypeTable.mentionAll, TypeTable.mentionAll, TypeTable.mentionAll, List.foldl_append]
    · rw [if_pos he, if_neg hf, if_neg (fun h => hf (Effort.steps_append_le.mp h).2)]
  · rw [if_neg he, if_neg (fun h => he (Effort.steps_append_le.mp h).1)]

/-- Fewer steps at hand are steps that it takes in addition. -/
theorem reads_sub (n : Nat) (a : α) : reads (s - n) e a = reads s (e.under n) a := by
  funext table
  unfold reads
  have : e.steps ≤ s - n ↔ (e.under n).steps ≤ s := by
    simp only [Effort.under]
    split <;> omega
  simp only [this, Effort.names_under]

/-- Without steps at hand no form is read. -/
theorem reads_leaf_zero (a : α) : reads 0 (.leaf ++ e) a = throw .tooDeep := by
  funext table
  exact if_neg fun h => absurd (Effort.steps_append_le.mp h).1 (by decide)

/-- A form takes four steps. -/
theorem within_reads (a : α) : (reads s e a).within s = reads s (.leaf ++ e) a := by
  funext table
  unfold Reader.within reads
  by_cases hs : s < leafSteps
  · rw [if_pos hs, if_neg]
    exact fun h => absurd (Effort.steps_append_le.mp h).1 (Nat.not_le.mpr hs)
  · rw [if_neg hs]
    by_cases he : e.steps ≤ s
    · rw [if_pos he, if_pos (Effort.steps_append_le.mpr ⟨Nat.not_lt.mp hs, he⟩)]
      rfl
    · rw [if_neg he, if_neg (fun h => he (Effort.steps_append_le.mp h).2)]
      rfl

end

end UncheckedErrors
