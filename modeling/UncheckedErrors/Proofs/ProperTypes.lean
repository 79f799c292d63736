import Mathlib.Data.Set.Basic
import UncheckedErrors.Proofs.Pieces
import UncheckedErrors.Proofs.Places.TypeTexts

/-!
# Types with unambiguous texts

`GoType.Proper` says which types can be told apart by their texts: names are identifiers and import
paths, basic types do not share names with other predeclared types, and no part of a type is a tuple
or invalid. `GoType.shown` is a type without what its text leaves out, the names of embedded fields;
the text is the same without them (`GoType.text_shown`).
-/

namespace UncheckedErrors

/-! ## Names -/

/-- A letter, a digit or `_`. Which characters beyond ASCII are letters or digits makes no
difference here, so all of them count. -/
def isNameChar (c : Char) : Bool := c.isAlphanum || c == '_' || 128 ≤ c.toNat

/-- The keywords that a type can start with. The other keywords of Go would do no harm as names. -/
def typeKeywords : List String := ["chan", "func", "interface", "map", "struct"]

/-- A name that can be given to a type, a field or a method. -/
def IsIdentifier (name : String) : Prop :=
  (name.toList.head?.any fun c => isNameChar c && !c.isDigit) = true ∧
    name.toList.all isNameChar = true ∧ name ∉ typeKeywords

instance (name : String) : Decidable (IsIdentifier name) :=
  inferInstanceAs (Decidable (_ ∧ _ ∧ _))

/-- A character of an element of an import path. -/
def isElementChar (c : Char) : Bool :=
  isNameChar c || c == '-' || c == '.' || c == '~' || c == '+'

/-- An element of an import path: it starts with a letter or a digit. -/
def isElement (cs : List Char) : Bool :=
  (cs.head?.any fun c => isNameChar c && c != '_') && cs.all isElementChar

/-- A path that can be imported: elements between slashes. -/
def IsImportPath (path : String) : Prop :=
  (Text.splitAtChar (· == '/') path.toList).all isElement = true

instance (path : String) : Decidable (IsImportPath path) := inferInstanceAs (Decidable (_ = true))

/-- A character of a name, with or without an import path in front. -/
def isWordChar (c : Char) : Bool := isElementChar c || c == '/'

theorem isWordChar_of_isNameChar {c : Char} (h : isNameChar c = true) : isWordChar c = true := by
  simp [isWordChar, isElementChar, h]

theorem IsIdentifier.ne_nil {name : String} (h : IsIdentifier name) : name.toList ≠ [] := by
  intro hnil
  have hstart := h.1
  rw [hnil] at hstart
  cases hstart

theorem IsIdentifier.isWordChar {name : String} (h : IsIdentifier name) :
    ∀ c ∈ name.toList, isWordChar c = true :=
  fun c hc => isWordChar_of_isNameChar (List.all_eq_true.mp h.2.1 c hc)

theorem IsIdentifier.ne_dot {name : String} (h : IsIdentifier name) :
    ∀ c ∈ name.toList, (c != '.') = true := by
  intro c hc
  rw [bne_iff_ne]
  rintro rfl
  exact absurd (List.all_eq_true.mp h.2.1 _ hc) (by decide)

theorem IsImportPath.isWordChar {path : String} (h : IsImportPath path) :
    ∀ c ∈ path.toList, isWordChar c = true := by
  intro c hc
  by_cases hslash : c = '/'
  · subst hslash
    rfl
  · obtain ⟨element, helement, hmem⟩ :=
      exists_piece_of_mem (p := (· == '/')) hc (by simpa using hslash)
    have hchars := (Bool.and_eq_true_iff.mp (List.all_eq_true.mp h element helement)).2
    rw [UncheckedErrors.isWordChar, List.all_eq_true.mp hchars c hmem, Bool.true_or]

theorem isNameChar_of_isElement {c : Char} {cs : List Char} (h : isElement (c :: cs) = true) :
    isNameChar c = true :=
  (Bool.and_eq_true_iff.mp (Bool.and_eq_true_iff.mp h).1).1

/-- A path starts with the first character of its first element. -/
theorem IsImportPath.exists_cons {path : String} (h : IsImportPath path) :
    ∃ c cs, path.toList = c :: cs ∧ isNameChar c = true := by
  unfold IsImportPath at h
  cases hpath : path.toList with
  | nil =>
    rw [hpath] at h
    cases h
  | cons c cs =>
    rw [hpath, Text.splitAtChar] at h
    have hc : isNameChar c = true := by
      split at h
      · cases h
      · split at h
        · exact isNameChar_of_isElement (List.all_eq_true.mp h _ List.mem_cons_self)
        · exact isNameChar_of_isElement (List.all_eq_true.mp h _ List.mem_cons_self)
    exact ⟨c, cs, rfl, hc⟩

/-! ## Types that are told apart -/

namespace GoType

/-- The types that the text of a type is unambiguous for. `basics` are the names of the basic
types, none of which is the name of another predeclared type; a function with a last parameter that
may come many times has a slice there. -/
inductive Proper (basics : Set String) : GoType → Prop
  | basic {name : String} (hname : IsIdentifier name) (hbasic : name ∈ basics) :
    Proper basics (.basic name)
  | predeclared {name : String} (hname : IsIdentifier name) (hbasic : name ∉ basics) :
    Proper basics (.named ⟨none, name⟩)
  | named {pkg name : String} (hpkg : IsImportPath pkg) (hname : IsIdentifier name) :
    Proper basics (.named ⟨some pkg, name⟩)
  | pointer {elem : GoType} (helem : Proper basics elem) : Proper basics (.pointer elem)
  | slice {elem : GoType} (helem : Proper basics elem) : Proper basics (.slice elem)
  | array {length : Int} {elem : GoType} (helem : Proper basics elem) :
    Proper basics (.array length elem)
  | map {key value : GoType} (hkey : Proper basics key) (hvalue : Proper basics value) :
    Proper basics (.map key value)
  | chan {elem : GoType} (helem : Proper basics elem) : Proper basics (.chan elem)
  | struct {fields : List Field}
      (hnames : ∀ f ∈ fields, f.embedded = false → IsIdentifier f.name)
      (htypes : ∀ f ∈ fields, Proper basics f.type) : Proper basics (.struct fields)
  | interface {methods : List Method} {embedded : List GoType}
      (hnames : ∀ m ∈ methods, IsIdentifier m.name)
      (hkinds : ∀ m ∈ methods, m.type.kind = .signature)
      (htypes : ∀ m ∈ methods, Proper basics m.type)
      (hembedded : ∀ t ∈ embedded, Proper basics t) : Proper basics (.interface methods embedded)
  | signature {params results : List GoType} {variadic : Bool}
      (hparams : ∀ t ∈ params, Proper basics t) (hresults : ∀ t ∈ results, Proper basics t)
      (hvariadic : variadic = true → ∃ front elem, params = front ++ [.slice elem]) :
    Proper basics (.signature params results variadic)

mutual

/-- A type as far as its text shows it: an embedded field goes by its type alone. -/
def shown : GoType → GoType
  | .basic name => .basic name
  | .named name => .named name
  | .pointer t => .pointer t.shown
  | .slice t => .slice t.shown
  | .array length t => .array length t.shown
  | .map key value => .map key.shown value.shown
  | .chan t => .chan t.shown
  | .tuple ts => .tuple (shownAll ts)
  | .struct fields => .struct (shownFields fields)
  | .interface methods embedded => .interface (shownMethods methods) (shownAll embedded)
  | .signature params results variadic => .signature (shownAll params) (shownAll results) variadic
  | .invalid => .invalid

/-- The types of a list as far as their texts show them. -/
def shownAll : List GoType → List GoType
  | [] => []
  | t :: ts => t.shown :: shownAll ts

/-- The fields of a struct as far as its text shows them. -/
def shownFields : List Field → List Field
  | [] => []
  | .mk name type embedded :: fields =>
    .mk (if embedded then "" else name) type.shown embedded :: shownFields fields

/-- The methods of an interface as far as its text shows them. -/
def shownMethods : List Method → List Method
  | [] => []
  | .mk name type :: methods => .mk name type.shown :: shownMethods methods

end

end GoType

/-- A field as far as the text of its struct shows it. -/
def Field.shown (f : Field) : Field :=
  .mk (if f.embedded then "" else f.name) f.type.shown f.embedded

/-- A method as far as the text of its interface shows it. -/
def Method.shown (m : Method) : Method := .mk m.name m.type.shown

namespace GoType

theorem shownAll_eq_map (ts : List GoType) : shownAll ts = ts.map shown := by
  induction ts with
  | nil => rw [shownAll, List.map_nil]
  | cons t ts ih => rw [shownAll, ih, List.map_cons]

theorem shownFields_eq_map (fields : List Field) : shownFields fields = fields.map Field.shown := by
  induction fields with
  | nil => rw [shownFields, List.map_nil]
  | cons f fields ih =>
    obtain ⟨name, type, embedded⟩ := f
    rw [shownFields, ih, List.map_cons]
    rfl

theorem shownMethods_eq_map (methods : List Method) :
    shownMethods methods = methods.map Method.shown := by
  induction methods with
  | nil => rw [shownMethods, List.map_nil]
  | cons m methods ih =>
    obtain ⟨name, type⟩ := m
    rw [shownMethods, ih, List.map_cons]
    rfl

/-! ## The texts of types as they are shown -/

open Places (paramTexts_singleton paramTexts_cons_cons methodTexts_eq_map repeated)

/-- The text of the tail of a function type. -/
def tailText (t : GoType) : String :=
  signatureText (paramTexts t.variadic t.params) (texts t.results)

variable {t : GoType}

theorem text_repeated_shown (h : t.shown.text = t.text) :
    (repeated t.shown).text = (repeated t).text := by
  cases t with
  | slice elem =>
    rw [shown, text, text] at h
    exact (String.append_right_inj "[]").mp h
  | _ => exact h

theorem tailText_shown (h : t.shown.text = t.text) : t.shown.tailText = t.tailText := by
  cases t with
  | signature params results variadic =>
    rw [shown, text, text] at h
    exact (String.append_right_inj "func").mp h
  | _ => rfl

theorem methodTexts_cons (name : String) (t : GoType) (methods : List Method) :
    methodTexts (.mk name t :: methods) = (name ++ t.tailText) :: methodTexts methods := by
  rw [methodTexts_eq_map, List.map_cons, ← methodTexts_eq_map]
  rfl

mutual

/-- What the text of a type does not show is not needed to write it. -/
theorem text_shown : ∀ t : GoType, t.shown.text = t.text
  | .basic _ | .named _ | .invalid => rfl
  | .pointer t => by rw [shown, text, text, text_shown t]
  | .slice t => by rw [shown, text, text, text_shown t]
  | .array _ t => by rw [shown, text, text, text_shown t]
  | .map key value => by rw [shown, text, text, text_shown key, text_shown value]
  | .chan t => by rw [shown, text, text, text_shown t]
  | .tuple ts => by rw [shown, text, text, texts_shownAll ts]
  | .struct fields => by rw [shown, text, text, fieldTexts_shownFields fields]
  | .interface methods embedded => by
    rw [shown, text, text, methodTexts_shownMethods methods, texts_shownAll embedded]
  | .signature params results variadic => by
    rw [shown, text, text, paramTexts_shownAll variadic params, texts_shownAll results]

theorem texts_shownAll : ∀ ts : List GoType, texts (shownAll ts) = texts ts
  | [] => rfl
  | t :: ts => by rw [shownAll, texts, texts, text_shown t, texts_shownAll ts]

theorem paramTexts_shownAll (variadic : Bool) :
    ∀ ts : List GoType, paramTexts variadic (shownAll ts) = paramTexts variadic ts
  | [] => rfl
  | [t] => by
    rw [shownAll, shownAll, paramTexts_singleton, paramTexts_singleton, text_shown t,
      text_repeated_shown (text_shown t)]
  | t :: u :: ts => by
    have ih := paramTexts_shownAll variadic (u :: ts)
    rw [shownAll] at ih
    rw [shownAll, shownAll, paramTexts_cons_cons, paramTexts_cons_cons, ih, text_shown t]

theorem fieldTexts_shownFields : ∀ fields : List Field,
    fieldTexts (shownFields fields) = fieldTexts fields
  | [] => rfl
  | .mk name t embedded :: fields => by
    rw [shownFields, fieldTexts, fieldTexts, text_shown t, fieldTexts_shownFields fields]
    cases embedded <;> rfl

theorem methodTexts_shownMethods : ∀ methods : List Method,
    methodTexts (shownMethods methods) = methodTexts methods
  | [] => rfl
  | .mk name t :: methods => by
    rw [shownMethods, methodTexts_cons, methodTexts_cons, tailText_shown (text_shown t),
      methodTexts_shownMethods methods]

end

end GoType

end UncheckedErrors
