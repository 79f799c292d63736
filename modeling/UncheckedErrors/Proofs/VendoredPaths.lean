import Mathlib.Data.List.Infix
import Mathlib.Data.List.TakeWhile
import UncheckedErrors.Proofs.Pieces
import UncheckedErrors.Proofs.Vendor

/-!
# Vendored paths and vendored symbols

A rule for a package is looked up under the path that `unvendored` gives, a rule for a symbol under
the text that `stripVendor` gives. Both drop everything up to the last element `vendor`, but
`stripVendor` does not take `+` for a part of an element, though import paths may have it.

So the two agree on a path and a name in it exactly if no `+` stands in front of `vendor/`, where
that starts an element or follows a `+` (`stripVendor_eq_unvendored_iff`).
-/

namespace UncheckedErrors

/-- A package path: elements between slashes, none of them empty. Besides `+` their characters are
those that `stripVendor` allows; in an import path the letters and digits among them are ASCII. -/
def IsPackagePath (path : String) : Prop :=
  ∀ element ∈ Text.splitAtChar (· == '/') path.toList,
    element ≠ [] ∧ ∀ c ∈ element, isPathChar c = true ∨ c = '+'

instance (path : String) : Decidable (IsPackagePath path) :=
  decidable_of_iff
    ((Text.splitAtChar (· == '/') path.toList).all fun element =>
      !element.isEmpty && element.all fun c => isPathChar c || c == '+')
    (by simp [IsPackagePath])

/-- Whether the last of the characters can stand in an element; `inside` tells it for the character
in front of them. -/
def endsInside (inside : Bool) (cs : List Char) : Bool := cs.foldl (fun _ c => isPathChar c) inside

@[simp] theorem endsInside_nil (inside : Bool) : endsInside inside [] = inside := rfl

@[simp] theorem endsInside_cons (inside : Bool) (c : Char) (cs : List Char) :
    endsInside inside (c :: cs) = endsInside (isPathChar c) cs := rfl

@[simp] theorem endsInside_append (inside : Bool) (xs ys : List Char) :
    endsInside inside (xs ++ ys) = endsInside (endsInside inside xs) ys := List.foldl_append

theorem isPathChar_slash : isPathChar '/' = false := by decide

theorem isPathChar_plus : isPathChar '+' = false := by decide

theorem isSeparator_plus : isSeparator '+' = true := by decide

/-! ## The element -/

theorem vendorElement_append (rest : List Char) :
    vendorElement ++ rest = "vendor".toList ++ '/' :: rest := rfl

theorem vendorElement_ne_nil : vendorElement ≠ [] := List.cons_ne_nil _ _

theorem slash_mem_vendorElement : '/' ∈ vendorElement := by decide

/-! ## What is stripped -/

/-- The prefix that is dropped consists of elements, the last of which is `vendor`. -/
theorem exists_of_afterVendor? {cs rest : List Char} (h : afterVendor? cs = some rest) :
    ∃ front, cs = front ++ vendorElement ++ rest ∧ endsInside false front = false := by
  fun_induction afterVendor? cs with
  | case1 cs c element tail hd htake r hr ih =>
    obtain ⟨front, htail, hfront⟩ := ih (hr.trans h)
    refine ⟨c :: element ++ '/' :: front, ?_, ?_⟩
    · rw [← List.takeWhile_append_dropWhile (p := isPathChar) (l := cs), htake, hd, htail]
      simp
    · rw [endsInside_append, endsInside_cons, isPathChar_slash]
      exact hfront
  | case2 cs c element tail hd htake hnone hvendor =>
    obtain rfl := Option.some.inj h
    refine ⟨[], ?_, rfl⟩
    rw [← List.takeWhile_append_dropWhile (p := isPathChar) (l := cs), htake, hd,
      eq_of_beq hvendor]
    rfl
  | case3 => cases h
  | case4 => cases h

theorem isPathChar_of_mem_vendor {c : Char} (h : c ∈ "vendor".toList) : isPathChar c = true :=
  List.all_eq_true.mp (by decide : "vendor".toList.all isPathChar = true) c h

theorem takeWhile_vendorElement (rest : List Char) :
    (vendorElement ++ rest).takeWhile isPathChar = "vendor".toList := by
  rw [vendorElement_append,
    List.takeWhile_append_of_pos fun c hc => isPathChar_of_mem_vendor hc,
    List.takeWhile_cons_of_neg (by decide), List.append_nil]

theorem dropWhile_vendorElement (rest : List Char) :
    (vendorElement ++ rest).dropWhile isPathChar = '/' :: rest := by
  rw [vendorElement_append,
    List.dropWhile_append_of_pos fun c hc => isPathChar_of_mem_vendor hc,
    List.dropWhile_cons_of_neg (by decide)]

theorem afterVendor?_vendorElement (rest : List Char) :
    (afterVendor? (vendorElement ++ rest)).isSome := by
  have htake := takeWhile_vendorElement rest
  rw [afterVendor?_of_slash (by rw [htake]; decide) (dropWhile_vendorElement rest), htake,
    if_pos rfl]
  cases afterVendor? rest with
  | none => rfl
  | some r => rfl

/-- There is no vendored prefix behind the last element `vendor`. -/
theorem afterVendor?_of_afterVendor? {cs rest : List Char} (h : afterVendor? cs = some rest) :
    afterVendor? rest = none := by
  fun_induction afterVendor? cs with
  | case1 cs c element tail hd htake r hr ih => exact ih (hr.trans h)
  | case2 cs c element tail hd htake hnone hvendor =>
    obtain rfl := Option.some.inj h
    exact hnone
  | case3 => cases h
  | case4 => cases h

/-- Stripping only leaves characters out. -/
theorem stripVendorFrom_sublist (inside : Bool) (cs : List Char) :
    (stripVendorFrom inside cs).Sublist cs := by
  fun_induction stripVendorFrom inside cs with
  | case1 => exact List.Sublist.refl []
  | case2 c cs ih => exact ih.cons_cons c
  | case3 inside c cs _ rest hrest ih =>
    obtain ⟨front, hcs, -⟩ := exists_of_afterVendor? hrest
    exact ih.trans (hcs ▸ List.sublist_append_right _ _)
  | case4 inside c cs _ _ ih => exact ih.cons_cons c

/-- One character further the same is asked of the rest, unless `vendor/` stands right here. -/
theorem endsInside_of_prefix_cons_iff {inside : Bool} {c : Char} {cs : List Char}
    (hhere : inside = false → ¬ vendorElement <+: c :: cs) :
    (∀ front, (front ++ vendorElement) <+: cs → endsInside (isPathChar c) front = true) ↔
      ∀ front, (front ++ vendorElement) <+: c :: cs → endsInside inside front = true := by
  constructor
  · intro h front hfront
    cases front with
    | nil =>
      cases inside with
      | true => rfl
      | false => exact absurd hfront (hhere rfl)
    | cons d front =>
      rw [List.cons_append, List.cons_prefix_cons] at hfront
      rw [endsInside_cons, hfront.1]
      exact h front hfront.2
  · intro h front hfront
    exact h (c :: front) (List.cons_prefix_cons.mpr ⟨rfl, hfront⟩)

/-- A text that starts with `vendor/` starts with a vendored prefix. -/
theorem not_prefix_of_afterVendor?_eq_none {cs : List Char} (h : afterVendor? cs = none) :
    ¬ vendorElement <+: cs := by
  rintro ⟨rest, rfl⟩
  have hsome := afterVendor?_vendorElement rest
  rw [h] at hsome
  cases hsome

/-- A text has no vendored prefix if `vendor/` stands nowhere in it but behind a part of an
element. -/
theorem stripVendorFrom_eq_self_iff (inside : Bool) (cs : List Char) :
    stripVendorFrom inside cs = cs ↔
      ∀ front, (front ++ vendorElement) <+: cs → endsInside inside front = true := by
  fun_induction stripVendorFrom inside cs with
  | case1 inside =>
    refine iff_of_true rfl fun front hfront => ?_
    exact absurd (List.append_eq_nil_iff.mp (List.prefix_nil.mp hfront)).2 vendorElement_ne_nil
  | case2 c cs ih =>
    exact (List.cons_inj_right c).trans
      (ih.trans (endsInside_of_prefix_cons_iff fun h => Bool.noConfusion h))
  | case3 inside c cs houtside rest hrest ih =>
    obtain ⟨front, hcs, hfront⟩ := exists_of_afterVendor? hrest
    rw [eq_false_of_ne_true houtside]
    refine iff_of_false ?_ fun h => ?_
    · intro heq
      have hlength := (stripVendorFrom_sublist false rest).length_le
      have hlt := length_lt_of_afterVendor? hrest
      rw [heq] at hlength
      omega
    · have htrue := h front (hcs ▸ List.prefix_append _ _)
      rw [hfront] at htrue
      cases htrue
  | case4 inside c cs houtside hnone ih =>
    exact (List.cons_inj_right c).trans
      (ih.trans (endsInside_of_prefix_cons_iff fun _ => not_prefix_of_afterVendor?_eq_none hnone))

/-- What is dropped has no `+`. -/
theorem count_plus_stripVendorFrom (inside : Bool) (cs : List Char) :
    (stripVendorFrom inside cs).count '+' = cs.count '+' := by
  induction hn : cs.length using Nat.strongRecOn generalizing inside cs with
  | ind n ih =>
  by_cases hplus : '+' ∈ cs
  · obtain ⟨xs, ys, rfl, hxs⟩ := List.eq_append_cons_of_mem hplus
    rw [List.length_append, List.length_cons] at hn
    rw [stripVendorFrom_append isSeparator_plus, List.count_append, List.count_append,
      List.count_cons_self, List.count_cons_self, ih xs.length (by omega) inside xs rfl,
      ih ys.length (by omega) false ys rfl]
  · have hstrip : '+' ∉ stripVendorFrom inside cs :=
      fun h => hplus ((stripVendorFrom_sublist inside cs).mem h)
    rw [List.count_eq_zero.mpr hstrip, List.count_eq_zero.mpr hplus]

/-! ## The last element `vendor` -/

/-- The element `vendor` between two slashes. -/
def vendorBetween : List Char := '/' :: vendorElement

theorem unvendored_toList (path : String) :
    (unvendored path).toList =
      (afterLast? vendorBetween ('/' :: path.toList)).getD path.toList := by
  rw [vendorBetween, afterLast?, List.isPrefixOf_cons_cons, beq_self_eq_true, Bool.true_and,
    List.length_cons, List.drop_succ_cons]
  unfold unvendored
  dsimp only
  cases afterLast? ('/' :: vendorElement) path.toList with
  | some rest => exact String.toList_ofList
  | none =>
    dsimp only
    split
    · exact String.toList_ofList
    · rfl

theorem exists_of_afterLast? {part cs rest : List Char} (h : afterLast? part cs = some rest) :
    ∃ front, cs = front ++ part ++ rest := by
  fun_induction afterLast? part cs with
  | case1 => cases h
  | case2 c cs r hr ih =>
    obtain ⟨front, hcs⟩ := ih (hr.trans h)
    exact ⟨c :: front, by rw [hcs]; rfl⟩
  | case3 c cs hnone hstart =>
    obtain ⟨rest', hrest'⟩ := List.isPrefixOf_iff_prefix.mp hstart
    refine ⟨[], ?_⟩
    obtain rfl := Option.some.inj h
    rw [← hrest', List.drop_left]
    rfl
  | case4 => cases h

theorem afterLast?_eq_none_iff {part : List Char} (hpart : part ≠ []) (cs : List Char) :
    afterLast? part cs = none ↔ ¬ part <:+: cs := by
  induction cs with
  | nil => exact iff_of_true rfl fun h => hpart (List.infix_nil.mp h)
  | cons c cs ih =>
    rw [List.infix_cons_iff, not_or, ← ih, ← List.isPrefixOf_iff_prefix, afterLast?]
    cases afterLast? part cs with
    | some r => simp
    | none =>
      dsimp only
      split
      · simp_all
      · simp_all

/-- A part that starts with a slash is not met before the first slash. -/
theorem afterLast?_append_of_notMem {part xs : List Char} (h : '/' ∉ xs) (ys : List Char) :
    afterLast? ('/' :: part) (xs ++ ys) = afterLast? ('/' :: part) ys := by
  induction xs with
  | nil => rfl
  | cons c xs ih =>
    rw [List.mem_cons, not_or] at h
    have hhere : ('/' :: part).isPrefixOf (c :: (xs ++ ys)) = false := by
      rw [List.isPrefixOf_cons_cons, beq_eq_false_iff_ne.mpr h.1, Bool.false_and]
    rw [List.cons_append, afterLast?, ih h.2]
    split
    · rename_i r hr
      exact hr.symm
    · rename_i hnone
      rw [hhere, hnone]
      rfl

/-- A part without `sep` stands on one side of it. -/
theorem prefix_append_cons_iff {part : List Char} {sep : Char} (hsep : sep ∉ part)
    (xs ys : List Char) : part <+: xs ++ sep :: ys ↔ part <+: xs := by
  refine ⟨fun h => ?_, fun h => h.trans (List.prefix_append _ _)⟩
  rcases List.prefix_or_prefix_of_prefix h (List.prefix_append xs (sep :: ys)) with h' | h'
  · exact h'
  · obtain ⟨tail, rfl⟩ := h'
    rw [List.prefix_append_right_inj] at h
    cases tail with
    | nil => exact (List.append_nil xs).symm ▸ List.prefix_rfl
    | cons c tail =>
      rw [List.cons_prefix_cons] at h
      simp [h.1] at hsep

/-- So the last one is the last one behind `sep`, or else the last one in front of it. -/
theorem afterLast?_append_cons {part : List Char} {sep : Char} (hsep : sep ∉ part)
    (hpart : part ≠ []) (xs ys : List Char) :
    afterLast? part (xs ++ sep :: ys) =
      (afterLast? part ys).or ((afterLast? part xs).map (· ++ sep :: ys)) := by
  induction xs with
  | nil =>
    have hhere : ¬ part.isPrefixOf (sep :: ys) = true := by
      rw [List.isPrefixOf_iff_prefix]
      intro h
      exact hpart (List.prefix_nil.mp ((prefix_append_cons_iff hsep [] ys).mp h))
    have hnil : afterLast? part [] = none := rfl
    rw [List.nil_append, hnil, afterLast?, if_neg hhere]
    cases afterLast? part ys with
    | none => rfl
    | some r => rfl
  | cons c xs ih =>
    have hhere : part.isPrefixOf (c :: (xs ++ sep :: ys)) = part.isPrefixOf (c :: xs) := by
      rw [Bool.eq_iff_iff, List.isPrefixOf_iff_prefix, List.isPrefixOf_iff_prefix]
      exact prefix_append_cons_iff hsep (c :: xs) ys
    rw [List.cons_append, afterLast?, afterLast?, ih, hhere]
    cases afterLast? part ys with
    | some r => rfl
    | none =>
      cases afterLast? part xs with
      | some r => rfl
      | none =>
        dsimp only [Option.map_none, Option.none_or]
        split
        · rename_i hstart
          have hle := (List.isPrefixOf_iff_prefix.mp hstart).length_le
          rw [← List.cons_append, List.drop_append_of_le_length hle]
          rfl
        · rfl

/-! ## Package paths -/

/-- The text neither starts with a slash nor has two of them in a row. -/
def NoGap (cs : List Char) : Prop := ¬ ['/', '/'] <:+: '/' :: cs

theorem NoGap.of_prefix {xs ys : List Char} (h : NoGap (xs ++ ys)) : NoGap xs :=
  fun hgap => h (hgap.trans (List.prefix_append ('/' :: xs) ys).isInfix)

theorem NoGap.of_slash {xs ys : List Char} (h : NoGap (xs ++ '/' :: ys)) : NoGap ys :=
  fun hgap => h (hgap.trans (List.suffix_append ('/' :: xs) ('/' :: ys)).isInfix)

section

variable {path : String} (h : IsPackagePath path)

include h

theorem IsPackagePath.noGap : NoGap path.toList := by
  -- A piece in front of such a slash would be empty.
  have hpieces : ∀ xs ys, path.toList = xs ++ '/' :: ys →
      ∀ piece ∈ Text.splitAtChar (· == '/') ys, piece ≠ [] := by
    intro xs ys hpath piece hpiece
    refine (h piece ?_).1
    rw [hpath, splitAtChar_append_cons (by rfl)]
    exact List.mem_append_right _ hpiece
  rintro ⟨xs, ys, hgap⟩
  cases xs with
  | nil =>
    have hpath : path.toList = [] ++ '/' :: ys := (List.cons.inj hgap).2.symm
    refine (h [] ?_).1 rfl
    rw [hpath, splitAtChar_append_cons (by rfl)]
    exact List.mem_cons_self
  | cons d xs =>
    have hpath : path.toList = xs ++ '/' :: ([] ++ '/' :: ys) := by
      simpa using (List.cons.inj hgap).2.symm
    refine hpieces xs _ hpath [] ?_ rfl
    rw [splitAtChar_append_cons (by rfl)]
    exact List.mem_cons_self

theorem IsPackagePath.chars {c : Char} (hc : c ∈ path.toList) :
    isPathChar c = true ∨ c = '+' ∨ c = '/' := by
  by_cases hslash : c = '/'
  · exact .inr (.inr hslash)
  · obtain ⟨piece, hpiece, hmem⟩ :=
      exists_piece_of_mem (p := (· == '/')) hc (by simpa using hslash)
    exact ((h piece hpiece).2 c hmem).imp_right .inl

end

theorem not_isPathChar_of_dropWhile {cs rest : List Char} {d : Char}
    (hdrop : cs.dropWhile isPathChar = d :: rest) : ¬ isPathChar d = true := by
  have hhead := List.head?_dropWhile_not isPathChar cs
  rw [hdrop] at hhead
  simpa using hhead

theorem slash_notMem_takeWhile (cs : List Char) : '/' ∉ cs.takeWhile isPathChar := by
  intro hmem
  have hpath := List.mem_takeWhile_imp hmem
  rw [isPathChar_slash] at hpath
  cases hpath

/-- Another first element than `vendor`. -/
theorem not_vendorBetween_isPrefixOf {cs : List Char}
    (hvendor : cs.takeWhile isPathChar ≠ "vendor".toList) :
    ¬ vendorBetween.isPrefixOf ('/' :: cs) = true := by
  rw [List.isPrefixOf_iff_prefix, vendorBetween, List.cons_prefix_cons]
  rintro ⟨-, tail, htail⟩
  refine hvendor ?_
  rw [← htail, takeWhile_vendorElement]

/-- One element only. -/
theorem afterLast?_vendorBetween_of_notMem {cs : List Char} (hslash : '/' ∉ cs) :
    afterLast? vendorBetween ('/' :: cs) = none := by
  have hlast : afterLast? vendorBetween (cs ++ []) = none := afterLast?_append_of_notMem hslash []
  rw [List.append_nil] at hlast
  have hhere : ¬ vendorBetween.isPrefixOf ('/' :: cs) = true := by
    rw [List.isPrefixOf_iff_prefix, vendorBetween, List.cons_prefix_cons]
    exact fun hstart => hslash (hstart.2.mem slash_mem_vendorElement)
  rw [afterLast?, hlast, if_neg hhere]

/-- In a path without `+` both look for the same element `vendor`. -/
theorem afterVendor?_eq_afterLast? {cs : List Char}
    (hchars : ∀ c ∈ cs, isPathChar c = true ∨ c = '/') (hgap : NoGap cs) :
    afterVendor? cs = afterLast? vendorBetween ('/' :: cs) := by
  induction hn : cs.length using Nat.strongRecOn generalizing cs with
  | ind n ih =>
  have hsplit := List.takeWhile_append_dropWhile (p := isPathChar) (l := cs)
  have hslash : '/' ∉ cs.takeWhile isPathChar := slash_notMem_takeWhile cs
  cases hdrop : cs.dropWhile isPathChar with
  | nil =>
    rw [hdrop, List.append_nil] at hsplit
    rw [hsplit] at hslash
    rw [afterVendor?_of_not_slash (by simp [hdrop]), afterLast?_vendorBetween_of_notMem hslash]
  | cons d rest =>
    have hmem : d ∈ cs := (List.dropWhile_sublist _).mem (hdrop ▸ List.mem_cons_self)
    obtain rfl : d = '/' := (hchars d hmem).resolve_left (not_isPathChar_of_dropWhile hdrop)
    rw [hdrop] at hsplit
    have hne : cs.takeWhile isPathChar ≠ [] := by
      intro hempty
      rw [hempty, List.nil_append] at hsplit
      exact hgap (hsplit ▸ (List.prefix_append ['/', '/'] rest).isInfix)
    have hlength := length_dropWhile_le isPathChar cs
    rw [hdrop, List.length_cons] at hlength
    rw [← hsplit] at hchars hgap
    have hrest := ih rest.length (by omega)
      (fun c hc => hchars c (List.mem_append_right _ (List.mem_cons_of_mem _ hc)))
      hgap.of_slash rfl
    have hlater : afterLast? vendorBetween cs = afterLast? vendorBetween ('/' :: rest) := by
      rw [← hsplit]
      exact afterLast?_append_of_notMem hslash _
    rw [afterVendor?_of_slash hne hdrop, hrest, afterLast?.eq_2 _ _ cs, hlater]
    cases afterLast? vendorBetween ('/' :: rest) with
    | some r => rfl
    | none =>
      dsimp only [Option.none_or]
      by_cases hvendor : cs.takeWhile isPathChar = "vendor".toList
      · rw [if_pos hvendor]
        rw [hvendor] at hsplit
        subst hsplit
        rfl
      · rw [if_neg hvendor, if_neg (not_vendorBetween_isPrefixOf hvendor)]

section

variable {cs : List Char} (hchars : ∀ c ∈ cs, isPathChar c = true ∨ c = '/') (hgap : NoGap cs)

include hchars hgap

theorem stripVendorFrom_of_afterVendor?_eq_none (h : afterVendor? cs = none) :
    stripVendorFrom false cs = cs := by
  rw [stripVendorFrom_eq_self_iff]
  rintro front ⟨rest, hrest⟩
  by_contra hfront
  rw [Bool.not_eq_true] at hfront
  rw [afterVendor?_eq_afterLast? hchars hgap, afterLast?_eq_none_iff (by decide)] at h
  -- The characters in front of `vendor/` end in a slash, counting the one in front of the path.
  refine h ?_
  rcases List.eq_nil_or_concat front with rfl | ⟨init, last, rfl⟩
  · exact ⟨[], rest, by rw [← hrest]; rfl⟩
  · have hlast : last = '/' := by
      have hmem : last ∈ cs := by
        rw [← hrest]
        simp
      refine (hchars last hmem).resolve_left ?_
      simpa using hfront
    exact ⟨'/' :: init, rest, by rw [← hrest, hlast]; simp [vendorBetween]⟩

/-- A path without `+` is stripped up to the last element `vendor`. -/
theorem stripVendorFrom_eq_getD :
    stripVendorFrom false cs = (afterLast? vendorBetween ('/' :: cs)).getD cs := by
  rw [← afterVendor?_eq_afterLast? hchars hgap]
  cases hafter : afterVendor? cs with
  | none => exact stripVendorFrom_of_afterVendor?_eq_none hchars hgap hafter
  | some rest =>
    have hstrip : stripVendorFrom false cs = stripVendorFrom false rest := by
      cases cs with
      | nil =>
        have hlt := length_lt_of_afterVendor? hafter
        exact absurd hlt (Nat.not_lt_zero _)
      | cons c cs => exact stripVendorFrom_of_some hafter
    obtain ⟨front, hcs, -⟩ := exists_of_afterVendor? hafter
    have hslash : cs = front ++ "vendor".toList ++ '/' :: rest := by
      rw [hcs, List.append_assoc, vendorElement_append, List.append_assoc]
    rw [hslash] at hchars hgap
    rw [hstrip, Option.getD_some]
    refine stripVendorFrom_of_afterVendor?_eq_none (fun c hc => hchars c ?_) hgap.of_slash
      (afterVendor?_of_afterVendor? hafter)
    exact List.mem_append_right _ (List.mem_cons_of_mem _ hc)

end

/-! ## Paths with a name -/

/-- A text without slash does not change what stands in front of it. -/
theorem afterVendor?_append_of_notMem {tail : List Char} (htail : '/' ∉ tail) (cs : List Char) :
    afterVendor? (cs ++ tail) = (afterVendor? cs).map (· ++ tail) := by
  induction hn : cs.length using Nat.strongRecOn generalizing cs with
  | ind n ih =>
  have hsplit := List.takeWhile_append_dropWhile (p := isPathChar) (l := cs)
  have hall : ∀ c ∈ cs.takeWhile isPathChar, isPathChar c = true := fun c hc =>
    List.mem_takeWhile_imp hc
  cases hdrop : cs.dropWhile isPathChar with
  | nil =>
    have hnot : ∀ rest, (cs ++ tail).dropWhile isPathChar ≠ '/' :: rest := by
      intro rest hrest
      rw [hdrop, List.append_nil] at hsplit
      rw [hsplit] at hall
      rw [List.dropWhile_append_of_pos hall] at hrest
      exact htail ((List.dropWhile_sublist _).mem (hrest ▸ List.mem_cons_self))
    rw [afterVendor?_of_not_slash fun rest _ => hnot rest,
      afterVendor?_of_not_slash (by simp [hdrop]), Option.map_none]
  | cons d rest =>
    have hd : ¬ isPathChar d = true := not_isPathChar_of_dropWhile hdrop
    rw [hdrop] at hsplit
    have htake : (cs ++ tail).takeWhile isPathChar = cs.takeWhile isPathChar := by
      conv => lhs; rw [← hsplit]
      rw [List.append_assoc, List.takeWhile_append_of_pos hall, List.cons_append,
        List.takeWhile_cons_of_neg hd, List.append_nil]
    have hdrop' : (cs ++ tail).dropWhile isPathChar = d :: (rest ++ tail) := by
      conv => lhs; rw [← hsplit]
      rw [List.append_assoc, List.dropWhile_append_of_pos hall, List.cons_append,
        List.dropWhile_cons_of_neg hd]
    by_cases hslash : cs.takeWhile isPathChar ≠ [] ∧ d = '/'
    · obtain ⟨hne, rfl⟩ := hslash
      have hlength := length_dropWhile_le isPathChar cs
      rw [hdrop, List.length_cons] at hlength
      rw [afterVendor?_of_slash (htake ▸ hne) hdrop', afterVendor?_of_slash hne hdrop, htake,
        ih rest.length (by omega) rest rfl]
      cases afterVendor? rest with
      | some r => rfl
      | none => split <;> rfl
    · rw [afterVendor?_of_not_slash fun rest' hne heq =>
          hslash ⟨htake ▸ hne, (List.cons.inj (hdrop'.symm.trans heq)).1⟩,
        afterVendor?_of_not_slash fun rest' hne heq =>
          hslash ⟨hne, (List.cons.inj (hdrop.symm.trans heq)).1⟩, Option.map_none]

theorem stripVendorFrom_append_of_notMem {tail : List Char} (htail : '/' ∉ tail) (inside : Bool)
    (cs : List Char) :
    stripVendorFrom inside (cs ++ tail) = stripVendorFrom inside cs ++ tail := by
  fun_induction stripVendorFrom inside cs with
  | case1 inside =>
    refine (stripVendorFrom_eq_self_iff inside tail).mpr fun front hfront => ?_
    exact absurd (hfront.mem (List.mem_append_right _ slash_mem_vendorElement)) htail
  | case2 c cs ih => rw [List.cons_append, stripVendorFrom_inside, ih, List.cons_append]
  | case3 inside c cs houtside rest hrest ih =>
    have happend := afterVendor?_append_of_notMem htail (c :: cs)
    rw [hrest, Option.map_some, List.cons_append] at happend
    rw [List.cons_append, eq_false_of_ne_true houtside, stripVendorFrom_of_some happend, ih]
  | case4 inside c cs houtside hnone ih =>
    have happend := afterVendor?_append_of_notMem htail (c :: cs)
    rw [hnone, Option.map_none, List.cons_append] at happend
    rw [List.cons_append, eq_false_of_ne_true houtside, stripVendorFrom_of_none happend, ih,
      List.cons_append]

/-- `vendor/` stands behind these characters, where an element starts or behind a `+`. -/
def VendorBehind (path front : List Char) : Prop :=
  (front ++ vendorElement) <+: path ∧ endsInside false front = false

/-- Behind a `+`, `vendor/` counts wherever it does so in what follows. -/
theorem vendorBehind_append_plus {xs : List Char} (hxs : '+' ∉ xs) (ys : List Char) :
    (∀ front, VendorBehind (xs ++ '+' :: ys) front → '+' ∉ front) ↔
      ∀ front, ¬ VendorBehind ys front := by
  constructor
  · rintro h front ⟨hstart, hfront⟩
    refine h (xs ++ '+' :: front) ⟨?_, ?_⟩ (by simp)
    · rw [List.append_assoc, List.prefix_append_right_inj]
      exact List.cons_prefix_cons.mpr ⟨rfl, hstart⟩
    · rw [endsInside_append, endsInside_cons, isPathChar_plus, hfront]
  · rintro h front ⟨hstart, hfront⟩ hplus
    obtain ⟨init, rest, rfl, hinit⟩ := List.eq_append_cons_of_mem hplus
    obtain ⟨tail, htail⟩ := hstart
    rw [List.append_assoc, List.append_assoc, List.cons_append] at htail
    -- Both texts are cut at their first `+`.
    have hcut : rest ++ (vendorElement ++ tail) = ys := by
      rcases List.append_eq_append_iff.mp htail with ⟨as, rfl, has⟩ | ⟨as, rfl, has⟩
      · cases as with
        | nil => exact (List.cons.inj has).2
        | cons a as => simp [← (List.cons.inj has).1] at hxs
      · cases as with
        | nil => exact (List.cons.inj has).2.symm
        | cons a as => simp [← (List.cons.inj has).1] at hinit
    rw [endsInside_append, endsInside_cons, isPathChar_plus] at hfront
    exact h rest ⟨⟨tail, by rw [List.append_assoc, hcut]⟩, hfront⟩

/-- The name does not matter, if it has no slash: it stays where it is on both sides. -/
theorem stripVendor_eq_iff {n : String} (hn : '/' ∉ n.toList) (p : String) :
    stripVendor (p ++ "." ++ n) = unvendored p ++ "." ++ n ↔
      stripVendorFrom false p.toList =
        (afterLast? vendorBetween ('/' :: p.toList)).getD p.toList := by
  have hname : '/' ∉ '.' :: n.toList := by simp [hn]
  have hleft : (stripVendor (p ++ "." ++ n)).toList =
      stripVendorFrom false p.toList ++ '.' :: n.toList := by
    rw [← stripVendorFrom_append_of_notMem hname, stripVendor, String.toList_ofList]
    simp
  have hright : (unvendored p ++ "." ++ n).toList =
      (unvendored p).toList ++ '.' :: n.toList := by simp
  rw [← String.toList_inj, hleft, hright, List.append_left_inj, unvendored_toList]

/-- In front of the first `+` the two agree, so what follows it decides. -/
theorem stripVendorFrom_eq_getD_iff {xs ys : List Char} (hxs : '+' ∉ xs)
    (hchars : ∀ c ∈ xs, isPathChar c = true ∨ c = '/') (hgap : NoGap xs) :
    stripVendorFrom false (xs ++ '+' :: ys) =
        (afterLast? vendorBetween ('/' :: (xs ++ '+' :: ys))).getD (xs ++ '+' :: ys) ↔
      ∀ front, VendorBehind (xs ++ '+' :: ys) front → '+' ∉ front := by
  have hvendor : '+' ∉ vendorBetween := by decide
  have hcut := afterLast?_append_cons hvendor (by decide) ('/' :: xs) ys
  rw [List.cons_append] at hcut
  rw [vendorBehind_append_plus hxs, hcut]
  cases hlast : afterLast? vendorBetween ys with
  | some rest =>
    obtain ⟨front, hys⟩ := exists_of_afterLast? hlast
    refine iff_of_false (fun h => ?_) fun h => h (front ++ ['/']) ⟨⟨rest, ?_⟩, ?_⟩
    · -- What is left would have lost the first `+`.
      have hcount := congrArg (List.count '+') h
      rw [Option.some_or, Option.getD_some, count_plus_stripVendorFrom, List.count_append,
        List.count_cons_self, hys, List.count_append] at hcount
      omega
    · simp [hys, vendorBetween]
    · rw [endsInside_append, endsInside_cons, isPathChar_slash, endsInside_nil]
  | none =>
    rw [Option.none_or, stripVendorFrom_append isSeparator_plus,
      stripVendorFrom_eq_getD hchars hgap]
    have hrest : ((afterLast? vendorBetween ('/' :: xs)).map (· ++ '+' :: ys)).getD
        (xs ++ '+' :: ys) = (afterLast? vendorBetween ('/' :: xs)).getD xs ++ '+' :: ys := by
      cases afterLast? vendorBetween ('/' :: xs) with
      | some r => rfl
      | none => rfl
    rw [hrest, List.append_right_inj, List.cons_inj_right, stripVendorFrom_eq_self_iff]
    refine forall_congr' fun front => ?_
    rw [VendorBehind, not_and, Bool.not_eq_false]

/-- Stripping a path with a name in it gives the unvendored path with that name exactly if no `+`
stands in front of `vendor/`, where that starts an element or follows a `+`. A name of Go has no
slash. -/
theorem stripVendor_eq_unvendored_iff {p n : String} (hp : IsPackagePath p)
    (hn : '/' ∉ n.toList) :
    stripVendor (p ++ "." ++ n) = unvendored p ++ "." ++ n ↔
      ∀ front, VendorBehind p.toList front → '+' ∉ front := by
  have hgap := hp.noGap
  have hchars {cs : List Char} (hsub : cs ⊆ p.toList) (hcs : '+' ∉ cs) :
      ∀ c ∈ cs, isPathChar c = true ∨ c = '/' := fun c hc =>
    (hp.chars (hsub hc)).imp_right fun h => h.resolve_left fun h => hcs (h ▸ hc)
  rw [stripVendor_eq_iff hn]
  by_cases hplus : '+' ∈ p.toList
  · obtain ⟨xs, ys, hpath, hxs⟩ := List.eq_append_cons_of_mem hplus
    have hsub : xs ⊆ p.toList := hpath ▸ List.subset_append_left _ _
    rw [hpath] at hgap ⊢
    exact stripVendorFrom_eq_getD_iff hxs (hchars hsub hxs) hgap.of_prefix
  · refine iff_of_true (stripVendorFrom_eq_getD (hchars (List.Subset.refl _) hplus) hgap) ?_
    rintro front ⟨hstart, -⟩ hmem
    exact hplus (hstart.mem (List.mem_append_left _ hmem))

theorem stripVendor_nested_vendor :
    IsPackagePath "a/vendor/b/vendor/c++" ∧
      stripVendor ("a/vendor/b/vendor/c++" ++ "." ++ "F") =
        unvendored "a/vendor/b/vendor/c++" ++ "." ++ "F" := by
  have hp : IsPackagePath "a/vendor/b/vendor/c++" := by decide
  refine ⟨hp, (stripVendor_eq_unvendored_iff hp (by decide)).mpr ?_⟩
  rintro front ⟨hstart, -⟩
  -- The path ends in `c++`, so `vendor/` is followed by every `+`.
  have hinits : ∀ front ∈ ("a/vendor/b/vendor/c++".toList).inits,
      (front ++ vendorElement) <+: "a/vendor/b/vendor/c++".toList → '+' ∉ front := by decide
  exact hinits front ((List.mem_inits _ _).mpr ((List.prefix_append _ _).trans hstart)) hstart

/-- The element in front of the `+` stays where it stands. -/
theorem stripVendor_plus_element :
    IsPackagePath "a+b/vendor/x" ∧ unvendored "a+b/vendor/x" = "x" ∧
      stripVendor ("a+b/vendor/x" ++ "." ++ "F") ≠ unvendored "a+b/vendor/x" ++ "." ++ "F" := by
  have hp : IsPackagePath "a+b/vendor/x" := by decide
  have hx : unvendored "a+b/vendor/x" = "x" := by decide
  refine ⟨hp, hx, fun h => ?_⟩
  have hcount := congrArg (fun s => s.toList.count '+') h
  rw [hx] at hcount
  simp only [stripVendor, String.toList_ofList, count_plus_stripVendorFrom] at hcount
  revert hcount
  decide

end UncheckedErrors
