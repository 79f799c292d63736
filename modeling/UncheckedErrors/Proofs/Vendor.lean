import UncheckedErrors.Exclusion.Vendor

/-!
# Vendored prefixes, piece by piece

No path runs across a character that cannot stand in it. So a symbol can be cut at any such
character, and its vendored prefixes are those of the pieces (`stripVendorFrom_append`).
-/

namespace UncheckedErrors

/-- A text that starts with an element and a slash: what follows a later element `vendor` counts
first. -/
theorem afterVendor?_of_slash {cs rest : List Char} (htake : cs.takeWhile isPathChar ≠ [])
    (hdrop : cs.dropWhile isPathChar = '/' :: rest) :
    afterVendor? cs = (afterVendor? rest).or
      (if cs.takeWhile isPathChar = "vendor".toList then some rest else none) := by
  rw [afterVendor?]
  split
  · rename_i d element tail htake' hdrop'
    obtain rfl : tail = rest := by
      rw [hdrop] at hdrop'
      exact (List.cons.inj hdrop').2.symm
    rw [htake']
    cases afterVendor? tail with
    | none => simp only [Option.none_or, beq_iff_eq]
    | some r => rfl
  · rename_i hno
    cases htake' : cs.takeWhile isPathChar with
    | nil => exact absurd htake' htake
    | cons d element => exact absurd hdrop (hno d element rest htake')

/-- A text that does not start with an element and a slash starts with no vendored prefix. -/
theorem afterVendor?_of_not_slash {cs : List Char}
    (h : ∀ rest, cs.takeWhile isPathChar ≠ [] → cs.dropWhile isPathChar ≠ '/' :: rest) :
    afterVendor? cs = none := by
  rw [afterVendor?]
  split
  · rename_i d element rest htake hdrop
    exact absurd hdrop (h rest (by rw [htake]; exact List.cons_ne_nil _ _))
  · rfl

/-- A character that no path runs across. -/
def isSeparator (c : Char) : Bool := !isPathChar c && c != '/'

section

variable {c : Char} (hc : isSeparator c)

include hc

theorem isPathChar_of_isSeparator : isPathChar c = false := by
  simp only [isSeparator, Bool.and_eq_true, Bool.not_eq_true'] at hc
  exact hc.1

theorem takeWhile_append_separator (xs ys : List Char) :
    (xs ++ c :: ys).takeWhile isPathChar = xs.takeWhile isPathChar := by
  have hstop : (c :: ys).takeWhile isPathChar = [] := by
    rw [List.takeWhile_cons_of_neg (by simp [isPathChar_of_isSeparator hc])]
  rw [List.takeWhile_append, hstop, List.append_nil]
  split
  · rename_i hlength
    exact ((List.takeWhile_prefix isPathChar).eq_of_length hlength).symm
  · rfl

theorem dropWhile_append_separator (xs ys : List Char) :
    (xs ++ c :: ys).dropWhile isPathChar = xs.dropWhile isPathChar ++ c :: ys := by
  have hstop : (c :: ys).dropWhile isPathChar = c :: ys := by
    rw [List.dropWhile_cons_of_neg (by simp [isPathChar_of_isSeparator hc])]
  rw [List.dropWhile_append, hstop]
  split
  · rename_i hempty
    rw [List.isEmpty_iff.mp hempty, List.nil_append]
  · rfl

/-- What follows the last element `vendor` is looked for up to a separator. -/
theorem afterVendor?_append (xs ys : List Char) :
    afterVendor? (xs ++ c :: ys) = (afterVendor? xs).map (· ++ c :: ys) := by
  induction hn : xs.length using Nat.strongRecOn generalizing xs with
  | ind n ih =>
  have htake := takeWhile_append_separator hc xs ys
  have hdrop := dropWhile_append_separator hc xs ys
  by_cases hslash : ∃ rest, xs.takeWhile isPathChar ≠ [] ∧ xs.dropWhile isPathChar = '/' :: rest
  · obtain ⟨rest, hne, heq⟩ := hslash
    have hlength := length_dropWhile_le isPathChar xs
    rw [heq, List.length_cons] at hlength
    have hrest := ih rest.length (by omega) rest rfl
    rw [heq, List.cons_append] at hdrop
    rw [afterVendor?_of_slash hne heq, afterVendor?_of_slash (htake ▸ hne) hdrop, hrest, htake]
    cases afterVendor? rest with
    | some r => rfl
    | none =>
      rw [Option.map_none, Option.none_or, Option.none_or]
      split
      · rfl
      · rfl
  · have hnone : ∀ rest, xs.takeWhile isPathChar ≠ [] → xs.dropWhile isPathChar ≠ '/' :: rest :=
      fun rest hne heq => hslash ⟨rest, hne, heq⟩
    rw [afterVendor?_of_not_slash hnone]
    refine afterVendor?_of_not_slash fun rest hne heq => ?_
    rw [htake] at hne
    rw [hdrop] at heq
    cases htail : xs.dropWhile isPathChar with
    | nil =>
      -- The separator itself would have to be the slash.
      rw [htail, List.nil_append] at heq
      exact (by simpa [isSeparator] using hc : _ ∧ c ≠ '/').2 (List.cons.inj heq).1
    | cons d tail =>
      rw [htail, List.cons_append] at heq
      exact hnone tail hne ((List.cons.inj heq).1 ▸ htail)

end

/-! ## Stripping -/

theorem stripVendorFrom_inside (c : Char) (cs : List Char) :
    stripVendorFrom true (c :: cs) = c :: stripVendorFrom (isPathChar c) cs := by
  rw [stripVendorFrom]
  rfl

theorem stripVendorFrom_of_some {c : Char} {cs rest : List Char}
    (h : afterVendor? (c :: cs) = some rest) :
    stripVendorFrom false (c :: cs) = stripVendorFrom false rest := by
  rw [stripVendorFrom]
  split
  · rename_i hf
    cases hf
  · split
    · rename_i rest' hrest
      rw [h] at hrest
      rw [Option.some.inj hrest]
    · rename_i hnone
      rw [h] at hnone
      cases hnone

theorem stripVendorFrom_of_none {c : Char} {cs : List Char} (h : afterVendor? (c :: cs) = none) :
    stripVendorFrom false (c :: cs) = c :: stripVendorFrom (isPathChar c) cs := by
  rw [stripVendorFrom]
  split
  · rfl
  · split
    · rename_i rest hrest
      rw [h] at hrest
      cases hrest
    · rfl

/-- The vendored prefixes of a text are those of the pieces before and behind a separator. -/
theorem stripVendorFrom_append {c : Char} (hc : isSeparator c) (inside : Bool)
    (xs ys : List Char) :
    stripVendorFrom inside (xs ++ c :: ys) =
      stripVendorFrom inside xs ++ c :: stripVendorFrom false ys := by
  have hpath := isPathChar_of_isSeparator hc
  fun_induction stripVendorFrom inside xs with
  | case1 inside =>
    rw [List.nil_append, List.nil_append]
    cases inside with
    | true => rw [stripVendorFrom_inside, hpath]
    | false =>
      have hnone : afterVendor? (c :: ys) = none :=
        afterVendor?_of_not_slash fun _ hne => absurd (takeWhile_append_separator hc [] ys) hne
      rw [stripVendorFrom_of_none hnone, hpath]
  | case2 d xs ih =>
    rw [List.cons_append, stripVendorFrom_inside, ih, List.cons_append]
  | case3 inside d xs houtside rest hrest ih =>
    have happend := afterVendor?_append hc (d :: xs) ys
    rw [hrest, Option.map_some, List.cons_append] at happend
    rw [List.cons_append, eq_false_of_ne_true houtside, stripVendorFrom_of_some happend, ih]
  | case4 inside d xs houtside hnone ih =>
    have happend := afterVendor?_append hc (d :: xs) ys
    rw [hnone, Option.map_none, List.cons_append] at happend
    rw [List.cons_append, eq_false_of_ne_true houtside, stripVendorFrom_of_none happend, ih,
      List.cons_append]

end UncheckedErrors
