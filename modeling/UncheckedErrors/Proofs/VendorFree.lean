import UncheckedErrors.Proofs.VendoredPaths

/-!
# Nothing vendored is left

Rules and calls are normalised separately, and either may be normalised already. So it matters that
a path or symbol that went through `unvendored` or `stripVendor` is not changed by it again
(`vendor_free_once_stripped`).

A prefix that is left out ends in a slash, so an element could also start right behind it. Stripping
puts no `vendor/` together at such a place: behind its first letter nothing is left out up to its
slash, so it stood there before, and a prefix with it (`endsInside_of_stripVendorFrom`). What
`unvendored` keeps follows the last element `vendor` with a slash after it, so there is none in it
(`not_vendorBetween_infix_unvendored`).
-/

namespace UncheckedErrors

/-! ## Symbols -/

/-- An element that stands behind a part of itself stays in the text, and the slash after it. -/
theorem prefix_of_stripVendorFrom_inside {element cs : List Char}
    (helement : ∀ c ∈ element, isPathChar c = true)
    (h : (element ++ ['/']) <+: stripVendorFrom true cs) : (element ++ ['/']) <+: cs := by
  induction element generalizing cs with
  | nil =>
    cases cs with
    | nil => simp [stripVendorFrom] at h
    | cons c cs =>
      rw [stripVendorFrom_inside, List.nil_append, List.cons_prefix_cons] at h
      exact List.cons_prefix_cons.mpr ⟨h.1, List.nil_prefix⟩
  | cons d element ih =>
    cases cs with
    | nil => simp [stripVendorFrom] at h
    | cons c cs =>
      rw [stripVendorFrom_inside, List.cons_append, List.cons_prefix_cons] at h
      obtain ⟨rfl, h⟩ := h
      rw [helement d List.mem_cons_self] at h
      exact List.cons_prefix_cons.mpr
        ⟨rfl, ih (fun c hc => helement c (List.mem_cons_of_mem _ hc)) h⟩

/-- So the text that is left starts with `vendor/` only if it started so before. -/
theorem prefix_vendorElement_of_stripVendorFrom {c : Char} {cs : List Char}
    (h : vendorElement <+: c :: stripVendorFrom (isPathChar c) cs) : vendorElement <+: c :: cs := by
  have hvendor : vendorElement = 'v' :: ("endor".toList ++ ['/']) := rfl
  rw [hvendor, List.cons_prefix_cons] at h ⊢
  obtain ⟨rfl, h⟩ := h
  refine ⟨rfl, prefix_of_stripVendorFrom_inside (fun d hd => ?_) h⟩
  exact isPathChar_of_mem_vendor (List.mem_cons_of_mem 'v' hd)

/-- In what is left `vendor/` stands nowhere but behind a part of an element. -/
theorem endsInside_of_stripVendorFrom (inside : Bool) (cs : List Char) :
    ∀ front, (front ++ vendorElement) <+: stripVendorFrom inside cs →
      endsInside inside front = true := by
  fun_induction stripVendorFrom inside cs with
  | case1 inside =>
    intro front hfront
    exact absurd (List.append_eq_nil_iff.mp (List.prefix_nil.mp hfront)).2 vendorElement_ne_nil
  | case2 c cs ih => exact (endsInside_of_prefix_cons_iff fun h => Bool.noConfusion h).mp ih
  | case3 inside c cs houtside rest hrest ih =>
    rw [eq_false_of_ne_true houtside]
    exact ih
  | case4 inside c cs houtside hnone ih =>
    refine (endsInside_of_prefix_cons_iff fun _ hhere => ?_).mp ih
    exact not_prefix_of_afterVendor?_eq_none hnone (prefix_vendorElement_of_stripVendorFrom hhere)

theorem toList_stripVendor (symbol : String) :
    (stripVendor symbol).toList = stripVendorFrom false symbol.toList := by
  rw [stripVendor, String.toList_ofList]

/-- A symbol is left as it is exactly if it has no vendored prefix. -/
theorem stripVendor_eq_self_iff (symbol : String) :
    stripVendor symbol = symbol ↔ ∀ front, ¬ VendorBehind symbol.toList front := by
  rw [← String.toList_inj, toList_stripVendor, stripVendorFrom_eq_self_iff]
  refine forall_congr' fun front => ?_
  rw [VendorBehind, not_and, Bool.not_eq_false]

theorem not_vendorBehind_stripVendor (symbol : String) (front : List Char) :
    ¬ VendorBehind (stripVendor symbol).toList front := by
  rintro ⟨hstart, hfront⟩
  rw [toList_stripVendor] at hstart
  rw [endsInside_of_stripVendorFrom false _ front hstart] at hfront
  cases hfront

/-! ## Paths -/

/-- Behind the start of the last occurrence there is no other one, also none that begins in it. -/
theorem not_infix_of_afterLast? {c : Char} {part cs rest : List Char}
    (h : afterLast? (c :: part) cs = some rest) : ¬ (c :: part) <:+: part ++ rest := by
  fun_induction afterLast? (c :: part) cs with
  | case1 => cases h
  | case2 d cs r hr ih => exact ih (hr.trans h)
  | case3 d cs hnone hstart =>
    obtain ⟨tail, htail⟩ := List.isPrefixOf_iff_prefix.mp hstart
    obtain rfl := Option.some.inj h
    rw [List.cons_append, List.cons.injEq] at htail
    rw [List.length_cons, List.drop_succ_cons, ← htail.2, List.drop_left, htail.2]
    exact (afterLast?_eq_none_iff (List.cons_ne_nil _ _) cs).mp hnone
  | case4 => cases h

/-- What is kept of a path has no element `vendor` with a slash after it. -/
theorem not_vendorBetween_infix_unvendored (path : String) :
    ¬ vendorBetween <:+: '/' :: (unvendored path).toList := by
  rw [unvendored_toList]
  cases hlast : afterLast? vendorBetween ('/' :: path.toList) with
  | none => exact (afterLast?_eq_none_iff (List.cons_ne_nil _ _) _).mp hlast
  | some rest =>
    -- The slash in front of what is kept is that of the element `vendor`.
    intro hbetween
    have hsuffix : '/' :: rest <:+ vendorElement ++ rest := ⟨"vendor".toList, rfl⟩
    exact not_infix_of_afterLast? hlast (hbetween.trans hsuffix.isInfix)

/-- Unvendoring keeps an end of the path. -/
theorem unvendored_suffix (path : String) : (unvendored path).toList <:+ path.toList := by
  rw [unvendored_toList]
  cases hlast : afterLast? vendorBetween ('/' :: path.toList) with
  | none => exact List.suffix_refl _
  | some rest =>
    obtain ⟨front, hpath⟩ := exists_of_afterLast? hlast
    cases front with
    | nil => exact ⟨vendorElement, (List.cons.inj hpath).2.symm⟩
    | cons d front => exact ⟨front ++ vendorBetween, (List.cons.inj hpath).2.symm⟩

/-- A path is left as it is exactly if it has no element `vendor` with a slash after it. -/
theorem unvendored_eq_self_iff (path : String) :
    unvendored path = path ↔ ¬ vendorBetween <:+: '/' :: path.toList := by
  refine ⟨fun h => h ▸ not_vendorBetween_infix_unvendored path, fun h => ?_⟩
  have hlast : afterLast? vendorBetween ('/' :: path.toList) = none :=
    (afterLast?_eq_none_iff (List.cons_ne_nil _ _) _).mpr h
  rw [← String.toList_inj, unvendored_toList, hlast, Option.getD_none]

/-- Stripping once is enough. A stripped symbol has no vendored prefix, and stripping it changes
nothing; what is kept of a path is an end of it that neither starts with `vendor/` nor has
`/vendor/` in it, and nothing changes if that is unvendored again. -/
theorem vendor_free_once_stripped (symbol path : String) :
    (stripVendor (stripVendor symbol) = stripVendor symbol ∧
        (stripVendor symbol).toList.Sublist symbol.toList ∧
        ∀ front, ¬ VendorBehind (stripVendor symbol).toList front) ∧
      unvendored (unvendored path) = unvendored path ∧
        (unvendored path).toList <:+ path.toList ∧
        ¬ vendorElement <+: (unvendored path).toList ∧
        ¬ vendorBetween <:+: (unvendored path).toList := by
  have hbehind := not_vendorBehind_stripVendor symbol
  have hbetween := not_vendorBetween_infix_unvendored path
  have hparts := hbetween
  rw [List.infix_cons_iff, not_or, vendorBetween, List.cons_prefix_cons, not_and] at hparts
  refine ⟨⟨(stripVendor_eq_self_iff _).mpr hbehind, ?_, hbehind⟩,
    (unvendored_eq_self_iff _).mpr hbetween, unvendored_suffix path, hparts.1 rfl, hparts.2⟩
  rw [toList_stripVendor]
  exact stripVendorFrom_sublist false _

/-- The two elements `vendor` share a slash, and neither is left. -/
example : unvendored "a/vendor/vendor/b" = "b" := by decide

end UncheckedErrors
