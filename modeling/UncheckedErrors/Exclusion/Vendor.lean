import UncheckedErrors.Text.Word

/-!
# Vendored paths

A package that is vendored into another one has a path with an element `vendor` in it. Rules are
written for the path behind it.

* `unvendored`: a package path without everything up to the last element `vendor`.
* `stripVendor`: the same for every path inside a symbol. A path starts after a character that
  cannot stand in an element, so both `a/vendor/os.Remove` and `(*a/vendor/os.File).Close` are
  covered.
-/

namespace UncheckedErrors

/-- What follows the last occurrence of `part`, if there is one. -/
def afterLast? (part : List Char) : List Char → Option (List Char)
  | [] => none
  | c :: cs =>
    match afterLast? part cs with
    | some rest => some rest
    | none => if part.isPrefixOf (c :: cs) then some ((c :: cs).drop part.length) else none

/-- The element that marks vendored packages, with its slash. -/
def vendorElement : List Char := "vendor/".toList

/-- A package path without everything up to the last element `vendor`. -/
def unvendored (path : String) : String :=
  let cs := path.toList
  match afterLast? ('/' :: vendorElement) cs with
  | some rest => String.ofList rest
  | none =>
    if vendorElement.isPrefixOf cs then String.ofList (cs.drop vendorElement.length) else path

/-- The characters that an element of a path is made of. -/
def isPathChar (c : Char) : Bool :=
  Text.isWord c || c == '.' || c == '-' || c == '~'

theorem length_dropWhile_le (p : Char → Bool) (cs : List Char) :
    (cs.dropWhile p).length ≤ cs.length :=
  (List.dropWhile_sublist p).length_le

/-- Of a text that starts with elements, each followed by a slash, what comes after the last
element `vendor` among them. -/
def afterVendor? (cs : List Char) : Option (List Char) :=
  match cs.takeWhile isPathChar, _h : cs.dropWhile isPathChar with
  | c :: element, '/' :: rest =>
    match afterVendor? rest with
    | some rest => some rest
    | none => if c :: element == "vendor".toList then some rest else none
  | _, _ => none
termination_by cs.length
decreasing_by
  have := length_dropWhile_le isPathChar cs
  rw [_h, List.length_cons] at this
  omega

theorem length_lt_of_afterVendor? {cs rest : List Char} (h : afterVendor? cs = some rest) :
    rest.length < cs.length := by
  fun_induction afterVendor? cs with
  | case1 cs c element tail hd _ r hr ih =>
    have hle := length_dropWhile_le isPathChar cs
    have hlt := ih (hr.trans h)
    rw [hd, List.length_cons] at hle
    omega
  | case2 cs c element tail hd =>
    have hle := length_dropWhile_le isPathChar cs
    rw [hd, List.length_cons] at hle
    simp only [Option.some.injEq] at h
    subst h
    omega
  | case3 => simp at h
  | case4 => simp at h

/-- The text without vendored prefixes; `inside` tells whether the character before it can stand
in an element of a path. -/
def stripVendorFrom (inside : Bool) (cs : List Char) : List Char :=
  match cs with
  | [] => []
  | c :: cs =>
    if inside then c :: stripVendorFrom (isPathChar c) cs
    else
      match _h : afterVendor? (c :: cs) with
      | some rest => stripVendorFrom false rest
      | none => c :: stripVendorFrom (isPathChar c) cs
termination_by cs.length
decreasing_by
  · simp
  · exact length_lt_of_afterVendor? _h
  · simp

/-- A symbol without the vendored prefixes of the paths in it. -/
def stripVendor (symbol : String) : String :=
  String.ofList (stripVendorFrom false symbol.toList)

end UncheckedErrors
