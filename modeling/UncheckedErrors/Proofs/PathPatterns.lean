import Mathlib.Data.List.Infix
import UncheckedErrors.Load
import UncheckedErrors.Proofs.Pieces

/-!
# Patterns and the elements of paths

Patterns are compared with package paths as texts, but what they say is about whole elements
(`matchesPattern_iff`): `base/...` asks for the elements of `base` at the start of a path,
`./base/...` for them anywhere in a row, `./rest` for the elements of `rest` at the end, and any
other pattern for the path itself.

The comparisons put a slash on the open sides of what they look for. A slash stands between two
elements and nowhere else, so what is found between slashes is a run of elements
(`elements_infix_iff` and its companions), also where elements are empty.
-/

namespace UncheckedErrors

/-- The elements of a path: what stands between its slashes. -/
def elements (path : List Char) : List (List Char) := Text.splitAtChar (· == '/') path

/-- The elements of a path that is a string, each as its characters. -/
def pathElements (path : String) : List (List Char) := elements path.toList

/-- A pattern that starts with `./`. -/
def IsRelative (pattern : String) : Prop := ∃ rest, pattern = "./" ++ rest

/-- A pattern that ends with `/...`. -/
def IsOpenEnded (pattern : String) : Prop := ∃ base, pattern = base ++ "/..."

/-! ## Runs of elements -/

theorem elements_append_slash (xs ys : List Char) :
    elements (xs ++ '/' :: ys) = elements xs ++ elements ys :=
  splitAtChar_append_cons (by rfl) xs ys

theorem elements_cons_slash (xs : List Char) : elements ('/' :: xs) = [] :: elements xs :=
  elements_append_slash [] xs

theorem elements_concat_slash (xs : List Char) : elements (xs ++ ['/']) = elements xs ++ [[]] :=
  elements_append_slash xs []

theorem exists_elements_cons (xs : List Char) : ∃ x rest, elements xs = x :: rest :=
  List.exists_cons_of_ne_nil (splitAtChar_ne_nil _ xs)

theorem exists_elements_concat (xs : List Char) : ∃ rest x, elements xs = rest ++ [x] := by
  have hne : elements xs ≠ [] := splitAtChar_ne_nil _ xs
  exact ⟨_, _, (List.dropLast_append_getLast hne).symm⟩

/-- Elements written with a slash in front of each. -/
def slashed (pieces : List (List Char)) : List Char := pieces.flatMap ('/' :: ·)

@[simp] theorem slashed_append (xs ys : List (List Char)) :
    slashed (xs ++ ys) = slashed xs ++ slashed ys := List.flatMap_append

@[simp] theorem slashed_elements (xs : List Char) : slashed (elements xs) = '/' :: xs :=
  flatMap_cons_splitAtChar '/' xs

/-- A slash follows every run of elements that a slash ends. -/
theorem exists_slashed_concat (pieces : List (List Char)) :
    ∃ rest, slashed pieces ++ ['/'] = '/' :: rest := by
  cases pieces with
  | nil => exact ⟨[], rfl⟩
  | cons piece pieces => exact ⟨_, rfl⟩

/-- What stands in a path between slashes is a run of its elements. -/
theorem elements_infix_iff {xs ys : List Char} :
    elements xs <:+: elements ys ↔ '/' :: xs ++ ['/'] <:+: '/' :: ys ++ ['/'] := by
  constructor
  · rintro ⟨before, after, h⟩
    have hslashed := congrArg slashed h
    obtain ⟨rest, hrest⟩ := exists_slashed_concat after
    refine ⟨slashed before, rest, ?_⟩
    rw [slashed_append, slashed_append, slashed_elements, slashed_elements] at hslashed
    calc slashed before ++ ('/' :: xs ++ ['/']) ++ rest
        = slashed before ++ '/' :: xs ++ '/' :: rest := by simp
      _ = slashed before ++ '/' :: xs ++ slashed after ++ ['/'] := by rw [← hrest]; simp
      _ = '/' :: ys ++ ['/'] := by rw [hslashed]
  · rintro ⟨before, after, h⟩
    -- the slashes at both ends of the path open and close it with an empty element
    obtain ⟨first, front, hfront⟩ := exists_elements_cons before
    obtain ⟨back, last, hback⟩ := exists_elements_concat after
    have helements : elements before ++ (elements xs ++ elements after) =
        [] :: (elements ys ++ [[]]) := by
      rw [← elements_append_slash, ← elements_append_slash, ← elements_concat_slash,
        ← elements_cons_slash]
      congr 1
      simpa using h
    rw [hfront, hback, List.cons_append, List.cons.injEq, ← List.append_assoc,
      ← List.append_assoc] at helements
    have hinside := (List.append_inj' helements.2 rfl).1
    exact ⟨front, back, hinside⟩

/-- What stands at the start of a path in front of a slash is a run of its first elements. -/
theorem elements_prefix_iff {xs ys : List Char} :
    elements xs <+: elements ys ↔ xs ++ ['/'] <+: ys ++ ['/'] := by
  constructor
  · rintro ⟨after, h⟩
    have hslashed := congrArg slashed h
    obtain ⟨rest, hrest⟩ := exists_slashed_concat after
    refine ⟨rest, ?_⟩
    rw [slashed_append, slashed_elements, slashed_elements, List.cons_append, List.cons.injEq]
      at hslashed
    calc xs ++ ['/'] ++ rest
        = xs ++ '/' :: rest := by simp
      _ = xs ++ slashed after ++ ['/'] := by rw [← hrest]; simp
      _ = ys ++ ['/'] := by rw [hslashed.2]
  · rintro ⟨after, h⟩
    obtain ⟨back, last, hback⟩ := exists_elements_concat after
    have helements : elements xs ++ elements after = elements ys ++ [[]] := by
      rw [← elements_append_slash, ← elements_concat_slash]
      congr 1
      simpa using h
    rw [hback, ← List.append_assoc] at helements
    exact ⟨back, (List.append_inj' helements rfl).1⟩

/-- What stands at the end of a path behind a slash is a run of its last elements. -/
theorem elements_suffix_iff {xs ys : List Char} :
    elements xs <:+ elements ys ↔ '/' :: xs <:+ '/' :: ys := by
  constructor
  · rintro ⟨before, h⟩
    have hslashed := congrArg slashed h
    rw [slashed_append, slashed_elements, slashed_elements] at hslashed
    exact ⟨slashed before, hslashed⟩
  · rintro ⟨before, h⟩
    obtain ⟨first, front, hfront⟩ := exists_elements_cons before
    have helements : elements before ++ elements xs = [] :: elements ys := by
      rw [← elements_append_slash, ← elements_cons_slash, h]
    rw [hfront, List.cons_append, List.cons.injEq] at helements
    exact ⟨front, helements.2⟩

/-! ## What the comparisons find -/

theorem occursIn_iff {part whole : List Char} : occursIn part whole = true ↔ part <:+: whole := by
  induction whole with
  | nil =>
    rw [occursIn, List.isEmpty_iff, List.infix_nil]
  | cons c cs ih =>
    rw [occursIn, Bool.or_eq_true, List.isPrefixOf_iff_prefix, ih, List.infix_cons_iff]

theorem withoutDots?_append (base : List Char) :
    withoutDots? (base ++ "/...".toList) = some base := by
  have hsuffix : "/...".toList.isSuffixOf (base ++ "/...".toList) = true :=
    List.isSuffixOf_iff_suffix.mpr (List.suffix_append _ _)
  have htake : (base ++ "/...".toList).take ((base ++ "/...".toList).length - 4) = base := by
    rw [List.length_append, show "/...".toList.length = 4 from rfl, Nat.add_sub_cancel,
      List.take_left]
  rw [withoutDots?, if_pos hsuffix, htake]

theorem withoutDots?_eq_none {pattern : String} (h : ¬ IsOpenEnded pattern) :
    withoutDots? pattern.toList = none := by
  refine if_neg fun hsuffix => h ?_
  obtain ⟨base, hbase⟩ := List.isSuffixOf_iff_suffix.mp hsuffix
  refine ⟨String.ofList base, ?_⟩
  rw [← String.toList_inj, String.toList_append, String.toList_ofList, hbase]

/-- A path is this one or below it if its elements start with those of this one. -/
theorem at_or_below_iff {base path : List Char} :
    (path == base || (base ++ ['/']).isPrefixOf path) = true ↔ elements base <+: elements path := by
  rw [elements_prefix_iff, List.prefix_concat_iff, List.append_cancel_right_eq, Bool.or_eq_true,
    List.isPrefixOf_iff_prefix, beq_iff_eq, eq_comm]

theorem matchesAbsolute_open (base path : List Char) :
    matchesAbsolute (base ++ "/...".toList) path = true ↔ elements base <+: elements path := by
  rw [matchesAbsolute, withoutDots?_append]
  exact at_or_below_iff

theorem matchesAbsolute_of_not_isOpenEnded {pattern : String} (h : ¬ IsOpenEnded pattern)
    (path : List Char) : matchesAbsolute pattern.toList path = true ↔ path = pattern.toList := by
  rw [matchesAbsolute, withoutDots?_eq_none h]
  exact beq_iff_eq

theorem matchesRelative_open (base path : List Char) :
    matchesRelative (base ++ "/...".toList) path = true ↔ elements base <:+: elements path := by
  rw [matchesRelative, withoutDots?_append]
  show (path == base || (base ++ ['/']).isPrefixOf path || occursIn _ _) = true ↔ _
  rw [Bool.or_eq_true, at_or_below_iff, occursIn_iff, ← elements_infix_iff]
  exact or_iff_right_of_imp List.IsPrefix.isInfix

theorem matchesRelative_of_not_isOpenEnded {pattern : String} (h : ¬ IsOpenEnded pattern)
    (path : List Char) :
    matchesRelative pattern.toList path = true ↔
      elements pattern.toList <:+ elements path := by
  rw [matchesRelative, withoutDots?_eq_none h]
  show (path == pattern.toList || ('/' :: pattern.toList).isSuffixOf path) = true ↔ _
  rw [Bool.or_eq_true, List.isSuffixOf_iff_suffix, beq_iff_eq, elements_suffix_iff,
    List.suffix_cons_iff, List.cons.injEq, and_iff_right rfl, eq_comm]

/-! ## Patterns -/

/-- The paths that a pattern selects, told by whole elements. -/
inductive Selects : String → String → Prop
  | all {path : String} : Selects "..." path
  | allBelow {path : String} : Selects "./..." path
  | below {base path : String} :
    ¬ IsRelative (base ++ "/...") → pathElements base <+: pathElements path →
      Selects (base ++ "/...") path
  | anywhereBelow {base path : String} :
    pathElements base <:+: pathElements path → Selects ("./" ++ base ++ "/...") path
  | anywhere {rest path : String} :
    ¬ IsOpenEnded rest → pathElements rest <:+ pathElements path → Selects ("./" ++ rest) path
  | exactly {path : String} : ¬ IsRelative path → ¬ IsOpenEnded path → Selects path path

theorem matchesPattern_all (path : String) : matchesPattern "..." path = true := rfl

theorem matchesPattern_allBelow (path : String) : matchesPattern "./..." path = true := rfl

theorem matchesPattern_relative {rest : String} (h : rest ≠ "...") (path : String) :
    matchesPattern ("./" ++ rest) path = matchesRelative rest.toList path.toList := by
  have hlist : ("./" ++ rest).toList = '.' :: '/' :: rest.toList := String.toList_append
  have hall : "./" ++ rest ≠ "..." := by
    intro heq
    rw [← String.toList_inj, hlist] at heq
    simp at heq
  have hbelow : "./" ++ rest ≠ "./..." := by
    intro heq
    rw [← String.toList_inj, hlist] at heq
    exact h (String.toList_inj.mp (List.cons.inj (List.cons.inj heq).2).2)
  rw [matchesPattern, if_neg (by simp [hall, hbelow]), hlist]
  rfl

theorem matchesPattern_absolute {pattern : String} (hall : pattern ≠ "...")
    (h : ¬ IsRelative pattern) (path : String) :
    matchesPattern pattern path = matchesAbsolute pattern.toList path.toList := by
  have hbelow : pattern ≠ "./..." := fun heq => h ⟨"...", heq⟩
  rw [matchesPattern, if_neg (by simp [hall, hbelow])]
  split
  · rename_i rest hlist
    refine absurd ⟨String.ofList rest, ?_⟩ h
    rw [← String.toList_inj, hlist, String.toList_append]
    show '.' :: '/' :: rest = '.' :: '/' :: (String.ofList rest).toList
    rw [String.toList_ofList]
  · rfl

theorem append_dots_ne (base : String) : base ++ "/..." ≠ "..." := by
  intro heq
  have hlength := congrArg String.length heq
  rw [String.length_append, show "/...".length = 4 from rfl, show "...".length = 3 from rfl]
    at hlength
  omega

theorem matchesPattern_below {base : String} (h : ¬ IsRelative (base ++ "/...")) (path : String) :
    matchesPattern (base ++ "/...") path = true ↔ pathElements base <+: pathElements path := by
  rw [matchesPattern_absolute (append_dots_ne base) h, String.toList_append, matchesAbsolute_open,
    pathElements, pathElements]

theorem matchesPattern_anywhereBelow (base path : String) :
    matchesPattern ("./" ++ base ++ "/...") path = true ↔
      pathElements base <:+: pathElements path := by
  rw [String.append_assoc, matchesPattern_relative (append_dots_ne base), String.toList_append,
    matchesRelative_open, pathElements, pathElements]

theorem matchesPattern_anywhere {rest : String} (hdots : rest ≠ "...") (h : ¬ IsOpenEnded rest)
    (path : String) :
    matchesPattern ("./" ++ rest) path = true ↔ pathElements rest <:+ pathElements path := by
  rw [matchesPattern_relative hdots, matchesRelative_of_not_isOpenEnded h, pathElements,
    pathElements]

theorem matchesPattern_exactly {pattern : String} (hdots : pattern ≠ "...")
    (hrelative : ¬ IsRelative pattern) (h : ¬ IsOpenEnded pattern) (path : String) :
    matchesPattern pattern path = true ↔ path = pattern := by
  rw [matchesPattern_absolute hdots hrelative, matchesAbsolute_of_not_isOpenEnded h,
    String.toList_inj]

/-- A pattern matches a path exactly if it selects it by whole elements. -/
theorem matchesPattern_iff (pattern path : String) :
    matchesPattern pattern path = true ↔ Selects pattern path := by
  constructor
  · intro h
    by_cases hrelative : IsRelative pattern
    · obtain ⟨rest, rfl⟩ := hrelative
      by_cases hopen : IsOpenEnded rest
      · obtain ⟨base, rfl⟩ := hopen
        rw [← String.append_assoc] at h ⊢
        exact .anywhereBelow ((matchesPattern_anywhereBelow base path).mp h)
      · by_cases hdots : rest = "..."
        · rw [hdots]
          exact .allBelow
        · exact .anywhere hopen ((matchesPattern_anywhere hdots hopen path).mp h)
    · by_cases hopen : IsOpenEnded pattern
      · obtain ⟨base, rfl⟩ := hopen
        exact .below hrelative ((matchesPattern_below hrelative path).mp h)
      · by_cases hdots : pattern = "..."
        · rw [hdots]
          exact .all
        · rw [(matchesPattern_exactly hdots hrelative hopen path).mp h]
          exact .exactly hrelative hopen
  · intro h
    cases h with
    | all => exact matchesPattern_all path
    | allBelow => exact matchesPattern_allBelow path
    | below hrelative hrun => exact (matchesPattern_below hrelative path).mpr hrun
    | anywhereBelow hrun => exact (matchesPattern_anywhereBelow _ path).mpr hrun
    | @anywhere rest _ hopen hrun =>
      by_cases hdots : rest = "..."
      · rw [hdots]
        exact matchesPattern_allBelow path
      · exact (matchesPattern_anywhere hdots hopen path).mpr hrun
    | exactly hrelative hopen =>
      by_cases hdots : pattern = "..."
      · rw [hdots]
        exact matchesPattern_all _
      · exact (matchesPattern_exactly hdots hrelative hopen pattern).mpr rfl

/-- An element is never matched in part. -/
example : matchesPattern "net/..." "network" = false ∧ matchesPattern "./http" "net/http" = true :=
  by decide

end UncheckedErrors
