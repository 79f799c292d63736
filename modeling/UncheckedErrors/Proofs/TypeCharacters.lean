import Mathlib.Data.List.Basic
import UncheckedErrors.Proofs.ProperTypes

/-!
# Texts of types as characters

The text of a type of each sort, as a list of characters with the parts in it, and how such a text
starts. The first word or sign shows the sort of the type (`GoType.Proper.kindAt_chars`), whatever
follows, if it starts with a character that closes a type (`GoType.Closes`). A name stands for one
type (`GoType.Proper.eq_of_text_eq`), and no type starts with a name that something else than the
end of the type comes after (`GoType.Proper.name_append_ne`).
-/

namespace UncheckedErrors

open Places (texts_eq_map fieldTexts_eq_map methodTexts_eq_map paramTexts_false paramTexts_concat)

namespace GoType

/-! ## Words -/

theorem takeWhile_append_of_stops {p : Char → Bool} {xs zs : List Char}
    (hxs : ∀ c ∈ xs, p c = true) (hzs : ∀ c ∈ zs.head?, p c = false) :
    (xs ++ zs).takeWhile p = xs := by
  rw [List.takeWhile_append_of_pos hxs]
  cases zs with
  | nil => exact List.append_nil xs
  | cons c zs => rw [List.takeWhile_cons_of_neg (by simp [hzs c rfl]), List.append_nil]

/-- Characters up to a place where `p` fails are told from what follows. -/
theorem append_inj_of_stops {p : Char → Bool} {xs ys zs ws : List Char}
    (hxs : ∀ c ∈ xs, p c = true) (hys : ∀ c ∈ ys, p c = true)
    (hzs : ∀ c ∈ zs.head?, p c = false) (hws : ∀ c ∈ ws.head?, p c = false)
    (h : xs ++ zs = ys ++ ws) : xs = ys ∧ zs = ws := by
  have htake := congrArg (List.takeWhile p) h
  rw [takeWhile_append_of_stops hxs hzs, takeWhile_append_of_stops hys hws] at htake
  subst htake
  exact ⟨rfl, List.append_cancel_left h⟩

theorem stops_cons {p : Char → Bool} {c : Char} (hc : p c = false) (cs : List Char) :
    ∀ d ∈ (c :: cs).head?, p d = false := by
  intro d hd
  obtain rfl := Option.some.inj hd
  exact hc

/-- The characters that a type in a text may be followed by. -/
def closers : List Char := [',', ';', ')', ']', '}']

/-- A text that may follow a type: none, or one that starts with a character that closes it. -/
def Closes (rest : List Char) : Prop := ∀ c ∈ rest.head?, c ∈ closers

theorem closes_nil : Closes [] := nofun

theorem closes_cons {c : Char} (h : c ∈ closers) (rest : List Char) : Closes (c :: rest) := by
  intro d hd
  obtain rfl := Option.some.inj hd
  exact h

theorem not_closes_blank (rest : List Char) : ¬ Closes (' ' :: rest) := by
  intro h
  exact absurd (h _ rfl) (by decide)

theorem Closes.isWordChar {rest : List Char} (h : Closes rest) :
    ∀ c ∈ rest.head?, isWordChar c = false := by
  have hclosers : (closers.all fun c => !UncheckedErrors.isWordChar c) = true := by decide
  exact fun c hc => by simpa using List.all_eq_true.mp hclosers c (h c hc)

/-! ## The texts as characters -/

/-- The text of a type. -/
def chars (t : GoType) : List Char := t.text.toList

/-- Items with a separator and a blank between them. -/
def listed {α : Type} (sep : Char) (write : α → List Char) : List α → List Char
  | [] => []
  | a :: as => write a ++ as.flatMap fun b => sep :: ' ' :: write b

theorem toList_intercalate_map {α : Type} (sep : Char) (write : α → String) (as : List α) :
    ((String.ofList [sep, ' ']).intercalate (as.map write)).toList =
      listed sep (fun a => (write a).toList) as := by
  induction as with
  | nil => rfl
  | cons a as ih =>
    cases as with
    | nil => simp [listed]
    | cons b as =>
      rw [List.map_cons, List.map_cons, String.intercalate_cons_cons, ← List.map_cons,
        String.toList_append, ih]
      simp [listed]

/-- A parameter as it is written: whether it may come many times, and its type, or then the type of
one of them. -/
def paramItems (variadic : Bool) (params : List GoType) : List (Bool × GoType) :=
  match variadic, params.getLast? with
  | true, some (.slice elem) => params.dropLast.map (false, ·) ++ [(true, elem)]
  | _, _ => params.map (false, ·)

/-- The text of a parameter. -/
def paramText (param : Bool × GoType) : String := (if param.1 then "..." else "") ++ param.2.text

/-- The text of a field. -/
def fieldText (f : Field) : String :=
  if f.embedded then f.type.text else f.name ++ " " ++ f.type.text

/-- The text of what an interface declares or embeds. -/
def memberText : Method ⊕ GoType → String
  | .inl m => m.name ++ m.type.tailText
  | .inr t => t.text

/-- What an interface declares and embeds. -/
def members (methods : List Method) (embedded : List GoType) : List (Method ⊕ GoType) :=
  methods.map .inl ++ embedded.map .inr

/-- The text of the results of a function; several are written as a tuple. -/
def resultChars : List GoType → List Char
  | [] => []
  | [t] => ' ' :: t.chars
  | ts => ' ' :: (tuple ts).chars

theorem chars_named (pkg name : String) :
    (named ⟨some pkg, name⟩).chars = pkg.toList ++ '.' :: name.toList := by
  simp [chars, text, TypeName.text]

theorem chars_pointer (t : GoType) : (pointer t).chars = "*".toList ++ t.chars := by
  simp [chars, text]

theorem chars_slice (t : GoType) : (slice t).chars = "[]".toList ++ t.chars := by
  simp [chars, text]

theorem chars_array (n : Int) (t : GoType) :
    (array n t).chars = '[' :: (n.repr.toList ++ ']' :: t.chars) := by
  simp [chars, text, Int.toString_eq_repr]

theorem chars_map (key value : GoType) :
    (map key value).chars = "map[".toList ++ (key.chars ++ ']' :: value.chars) := by
  simp [chars, text]

theorem chars_chan (t : GoType) : (chan t).chars = "chan ".toList ++ t.chars := by
  simp [chars, text]

theorem chars_tuple (ts : List GoType) :
    (tuple ts).chars = '(' :: (listed ',' chars ts ++ [')']) := by
  have hlisted := toList_intercalate_map ',' text ts
  rw [← texts_eq_map] at hlisted
  simp only [chars, text, String.toList_append]
  exact congrArg (fun cs => '(' :: (cs ++ [')'])) hlisted

theorem chars_struct (fields : List Field) :
    (struct fields).chars =
      "struct\x7b".toList ++ (listed ';' (fieldText · |>.toList) fields ++ ['\x7d']) := by
  have hlisted := toList_intercalate_map ';' fieldText fields
  have htexts : fieldTexts fields = fields.map fieldText := fieldTexts_eq_map fields
  simp only [chars, text, htexts, String.toList_append, List.append_assoc]
  exact congrArg (fun cs => "struct\x7b".toList ++ (cs ++ ['\x7d'])) hlisted

theorem chars_interface (methods : List Method) (embedded : List GoType) :
    (interface methods embedded).chars =
      "interface\x7b".toList ++
        (listed ';' (memberText · |>.toList) (members methods embedded) ++ ['\x7d']) := by
  have hlisted := toList_intercalate_map ';' memberText (members methods embedded)
  have htexts : methodTexts methods ++ texts embedded =
      (members methods embedded).map memberText := by
    rw [methodTexts_eq_map, texts_eq_map, members, List.map_append, List.map_map, List.map_map]
    rfl
  simp only [chars, text, htexts, String.toList_append, List.append_assoc]
  exact congrArg (fun cs => "interface\x7b".toList ++ (cs ++ ['\x7d'])) hlisted

theorem chars_signature (params results : List GoType) (variadic : Bool) :
    (signature params results variadic).chars =
      "func".toList ++ (signature params results variadic).tailText.toList := by
  simp only [chars, text, String.toList_append]
  rfl

theorem paramTexts_eq_items {variadic : Bool} {params : List GoType}
    (h : variadic = true → ∃ front elem, params = front ++ [.slice elem]) :
    paramTexts variadic params = (paramItems variadic params).map paramText := by
  have hplain : ∀ ts : List GoType, (ts.map (false, ·)).map paramText = ts.map text := by
    intro ts
    rw [List.map_map]
    refine List.map_congr_left fun t _ => ?_
    simp [paramText]
  cases variadic with
  | false =>
    rw [paramTexts_false, paramItems, hplain]
    exact nofun
  | true =>
    obtain ⟨front, elem, rfl⟩ := h rfl
    rw [paramTexts_concat]
    simp [paramItems, hplain, paramText, Places.repeated]

theorem toList_signatureText (params : List String) (results : List GoType) :
    (signatureText params (texts results)).toList =
      '(' :: ((", ".intercalate params).toList ++ ')' :: resultChars results) := by
  cases results with
  | nil => simp [texts, signatureText, resultChars]
  | cons first others =>
    cases others with
    | nil => simp [texts, signatureText, resultChars, chars]
    | cons second rest =>
      have hunfold : signatureText params (texts (first :: second :: rest)) =
          "(" ++ ", ".intercalate params ++ ")" ++
            (" (" ++ ", ".intercalate (texts (first :: second :: rest)) ++ ")") := rfl
      rw [hunfold]
      simp [resultChars, chars, text]

theorem toList_tailText {params results : List GoType} {variadic : Bool}
    (h : variadic = true → ∃ front elem, params = front ++ [.slice elem]) :
    (signature params results variadic).tailText.toList =
      '(' :: (listed ',' (paramText · |>.toList) (paramItems variadic params) ++
        ')' :: resultChars results) := by
  have hparams := toList_intercalate_map ',' paramText (paramItems variadic params)
  rw [← paramTexts_eq_items h] at hparams
  have hsignature := toList_signatureText (paramTexts variadic params) results
  exact hsignature.trans (congrArg (fun cs => '(' :: (cs ++ ')' :: resultChars results)) hparams)

/-! ## How a type starts -/

/-- The sort of a type as its text shows it: basic and defined types are both names. -/
def shownKind : GoType → TypeKind
  | .basic _ => .named
  | t => t.kind

/-- The sort of the type that a text starts with. -/
def kindAt (cs : List Char) : TypeKind :=
  match cs.takeWhile isWordChar, cs.dropWhile isWordChar with
  | [], '*' :: _ => .pointer
  | [], '[' :: ']' :: _ => .slice
  | [], '[' :: _ => .array
  | [], _ => .tuple
  | word, _ =>
    if word = "map".toList then .map
    else if word = "chan".toList then .chan
    else if word = "func".toList then .signature
    else if word = "struct".toList then .struct
    else if word = "interface".toList then .interface
    else .named

theorem isDigit_of_mem_repr {n : Nat} {c : Char} (h : c ∈ n.repr.toList) : c.isDigit = true := by
  rw [Nat.repr_eq_ofList_toDigits, String.toList_ofList] at h
  exact Nat.isDigit_of_mem_toDigits (by decide) (by decide) h

/-- A length is written without a closing bracket. -/
theorem ne_of_mem_repr {n : Int} {c : Char} (h : c ∈ n.repr.toList) : (c != ']') = true := by
  rw [bne_iff_ne]
  rintro rfl
  rw [Int.repr_eq_if] at h
  split at h
  · exact absurd (isDigit_of_mem_repr h) (by decide)
  · rw [String.toList_append, List.mem_append] at h
    rcases h with h | h
    · exact absurd h (by decide)
    · exact absurd (isDigit_of_mem_repr h) (by decide)

theorem repr_toList_ne_nil (n : Int) : n.repr.toList ≠ [] := by
  rw [Int.repr_eq_if]
  split <;> simp

theorem dash_mem_repr_iff {n : Int} : '-' ∈ n.repr.toList ↔ n < 0 := by
  rw [Int.repr_eq_if]
  split
  · exact iff_of_false (fun h => absurd (isDigit_of_mem_repr h) (by decide)) (by omega)
  · exact iff_of_true (by simp) (by omega)

theorem eq_of_natRepr_toList_eq {m n : Nat} (h : m.repr.toList = n.repr.toList) : m = n := by
  have hdigits : Nat.toDigits 10 m = Nat.toDigits 10 n := by
    simpa only [Nat.repr_eq_ofList_toDigits, String.toList_ofList] using h
  calc
    m = Nat.ofDigitChars 10 (Nat.toDigits 10 m) 0 := Nat.ofDigitChars_ten_toDigits.symm
    _ = Nat.ofDigitChars 10 (Nat.toDigits 10 n) 0 := by rw [hdigits]
    _ = n := Nat.ofDigitChars_ten_toDigits

/-- A length can be read off its text. -/
theorem eq_of_repr_toList_eq {m n : Int} (h : m.repr.toList = n.repr.toList) : m = n := by
  have hsign : m < 0 ↔ n < 0 := by
    rw [← dash_mem_repr_iff, ← dash_mem_repr_iff, h]
  rw [Int.repr_eq_if, Int.repr_eq_if] at h
  by_cases hm : 0 ≤ m
  · rw [if_pos hm, if_pos (by omega)] at h
    have hnat := eq_of_natRepr_toList_eq h
    omega
  · rw [if_neg hm, if_neg (by omega), String.toList_append, String.toList_append] at h
    have hnat := eq_of_natRepr_toList_eq (List.append_cancel_left h)
    omega

theorem kindAt_array {c : Char} (hc : c ≠ ']') (cs : List Char) :
    kindAt ('[' :: c :: cs) = .array := by
  have htake : ('[' :: c :: cs).takeWhile isWordChar = [] := rfl
  have hdrop : ('[' :: c :: cs).dropWhile isWordChar = '[' :: c :: cs := rfl
  unfold kindAt
  rw [htake, hdrop]
  split <;> simp_all

theorem kindAt_word {word rest : List Char} (hne : word ≠ [])
    (hword : ∀ c ∈ word, isWordChar c = true) (hkeyword : String.ofList word ∉ typeKeywords)
    (hrest : ∀ c ∈ rest.head?, isWordChar c = false) : kindAt (word ++ rest) = .named := by
  have hkey : ∀ key ∈ typeKeywords, word ≠ key.toList := by
    rintro key hkey rfl
    exact hkeyword (String.ofList_toList.symm ▸ hkey)
  unfold kindAt
  rw [takeWhile_append_of_stops hword hrest]
  split
  · exact absurd rfl hne
  · exact absurd rfl hne
  · exact absurd rfl hne
  · exact absurd rfl hne
  · rw [if_neg (hkey "map" (by decide)), if_neg (hkey "chan" (by decide)),
      if_neg (hkey "func" (by decide)), if_neg (hkey "struct" (by decide)),
      if_neg (hkey "interface" (by decide))]

variable {basics : Set String} {t u : GoType}

/-- The text of a name, with or without an import path, is one word and no keyword. -/
theorem Proper.word (h : Proper basics t) (hkind : t.shownKind = .named) :
    t.chars ≠ [] ∧ (∀ c ∈ t.chars, isWordChar c = true) ∧ t.text ∉ typeKeywords := by
  cases h with
  | basic hname => exact ⟨hname.ne_nil, hname.isWordChar, hname.2.2⟩
  | predeclared hname => exact ⟨hname.ne_nil, hname.isWordChar, hname.2.2⟩
  | @named pkg name hpkg hname =>
    have hdot : '.' ∈ (GoType.named ⟨some pkg, name⟩).chars := by simp [chars_named]
    refine ⟨List.ne_nil_of_mem hdot, ?_, fun hkeyword => ?_⟩
    · simp only [chars_named, List.mem_append, List.mem_cons]
      rintro c (hc | rfl | hc)
      · exact hpkg.isWordChar c hc
      · decide
      · exact hname.isWordChar c hc
    · have hnodot : ∀ key ∈ typeKeywords, '.' ∉ key.toList := by decide
      exact hnodot _ hkeyword hdot
  | _ => cases hkind

/-- The text of a type shows its sort. -/
theorem Proper.kindAt_chars (h : Proper basics t) {rest : List Char} (hrest : Closes rest) :
    kindAt (t.chars ++ rest) = t.shownKind := by
  by_cases hkind : t.shownKind = .named
  · obtain ⟨hne, hword, hkeyword⟩ := h.word hkind
    rw [hkind]
    exact kindAt_word hne hword (by rwa [chars, String.ofList_toList]) hrest.isWordChar
  · cases h with
    | basic | predeclared | named => exact absurd rfl hkind
    | pointer => rw [chars_pointer]; rfl
    | slice => rw [chars_slice]; rfl
    | @array length elem =>
      obtain ⟨c, cs, hrepr⟩ := List.exists_cons_of_ne_nil (repr_toList_ne_nil length)
      have hc : c ≠ ']' := bne_iff_ne.mp (ne_of_mem_repr (hrepr ▸ List.mem_cons_self))
      rw [chars_array, hrepr]
      exact kindAt_array hc _
    | map => rw [chars_map]; rfl
    | chan => rw [chars_chan]; rfl
    | struct => rw [chars_struct]; rfl
    | interface => rw [chars_interface]; rfl
    | signature _ _ hvariadic =>
      rw [chars_signature, toList_tailText hvariadic]
      rfl

/-- Two types of which the texts start one text are of one sort. -/
theorem Proper.shownKind_eq (ht : Proper basics t) (hu : Proper basics u)
    {rest rest' : List Char} (hrest : Closes rest) (hrest' : Closes rest')
    (h : t.chars ++ rest = u.chars ++ rest') : t.shownKind = u.shownKind := by
  rw [← ht.kindAt_chars hrest, h, hu.kindAt_chars hrest']

/-- A character that the text of a type can start with. -/
def isStart (c : Char) : Bool := isNameChar c || c == '*' || c == '['

theorem isStart_of_isNameChar {c : Char} (h : isNameChar c = true) : isStart c = true := by
  simp [isStart, h]

theorem exists_cons_of_isIdentifier {name : String} (h : IsIdentifier name) :
    ∃ c cs, name.toList = c :: cs ∧ isStart c = true := by
  obtain ⟨c, cs, hname⟩ := List.exists_cons_of_ne_nil h.ne_nil
  exact ⟨c, cs, hname, isStart_of_isNameChar
    (List.all_eq_true.mp h.2.1 c (hname ▸ List.mem_cons_self))⟩

theorem Proper.exists_cons (h : Proper basics t) :
    ∃ c cs, t.chars = c :: cs ∧ isStart c = true := by
  cases h with
  | basic hname | predeclared hname => exact exists_cons_of_isIdentifier hname
  | named hpkg =>
    obtain ⟨c, cs, hpath, hc⟩ := hpkg.exists_cons
    exact ⟨c, _, by rw [chars_named, hpath]; rfl, isStart_of_isNameChar hc⟩
  | pointer => exact ⟨'*', _, chars_pointer _, by decide⟩
  | slice => exact ⟨'[', _, chars_slice _, by decide⟩
  | array => exact ⟨'[', _, chars_array _ _, by decide⟩
  | map => exact ⟨'m', _, chars_map _ _, by decide⟩
  | chan => exact ⟨'c', _, chars_chan _, by decide⟩
  | struct => exact ⟨'s', _, chars_struct _, by decide⟩
  | interface => exact ⟨'i', _, chars_interface _ _, by decide⟩
  | signature => exact ⟨'f', _, chars_signature _ _ _, by decide⟩

theorem ne_of_isStart {c d : Char} (hc : isStart c = true) (hd : isStart d = false) : c ≠ d := by
  rintro rfl
  rw [hc] at hd
  cases hd

theorem exists_cons_ne {cs : List Char} (h : ∃ c cs', cs = c :: cs' ∧ isStart c = true) {d : Char}
    (hd : isStart d = false) : ∃ c cs', cs = c :: cs' ∧ c ≠ d := by
  obtain ⟨c, cs', hcs, hc⟩ := h
  exact ⟨c, cs', hcs, ne_of_isStart hc hd⟩

/-- No type starts with a closing character, a parenthesis or a dot. -/
theorem Proper.chars_append_ne_cons (ht : Proper basics t) {c : Char} (hc : isStart c = false)
    (rest cs : List Char) : t.chars ++ rest ≠ c :: cs := by
  obtain ⟨d, ds, hchars, hd⟩ := ht.exists_cons
  rw [hchars]
  exact fun h => ne_of_isStart hd hc (List.cons.inj h).1

theorem Proper.chars_append_ne_tuple (ht : Proper basics t) (ts : List GoType)
    (rest rest' : List Char) : t.chars ++ rest ≠ (tuple ts).chars ++ rest' := by
  rw [chars_tuple]
  exact ht.chars_append_ne_cons (by decide) _ _

/-! ## Names -/

/-- The name of a package's type is what follows the last dot. -/
theorem named_inj {pkg pkg' name name' : String} (hname : IsIdentifier name)
    (hname' : IsIdentifier name')
    (h : (GoType.named ⟨some pkg, name⟩).text = (GoType.named ⟨some pkg', name'⟩).text) :
    pkg = pkg' ∧ name = name' := by
  have hchars := congrArg (·.toList.reverse) h
  have hrev : name.toList.reverse ++ '.' :: pkg.toList.reverse =
      name'.toList.reverse ++ '.' :: pkg'.toList.reverse := by
    simpa [text, TypeName.text] using hchars
  obtain ⟨hnames, hpkgs⟩ := append_inj_of_stops
    (fun c hc => hname.ne_dot c (List.mem_reverse.mp hc))
    (fun c hc => hname'.ne_dot c (List.mem_reverse.mp hc)) (stops_cons rfl _) (stops_cons rfl _)
    hrev
  exact ⟨String.toList_inj.mp (List.reverse_injective (List.cons.inj hpkgs).2),
    String.toList_inj.mp (List.reverse_injective hnames)⟩

/-- A name stands for one type. -/
theorem Proper.eq_of_text_eq (ht : Proper basics t) (hu : Proper basics u)
    (hkindt : t.shownKind = .named) (hkindu : u.shownKind = .named) (h : t.text = u.text) :
    t = u := by
  have hdot : ∀ {name pkg name' : String}, IsIdentifier name →
      name ≠ (GoType.named ⟨some pkg, name'⟩).text := by
    rintro name pkg name' hname rfl
    have hmem : '.' ∈ (GoType.named ⟨some pkg, name'⟩).chars := by simp [chars_named]
    exact absurd (hname.ne_dot '.' hmem) (by decide)
  cases ht with
  | basic hname hbasic =>
    cases hu with
    | basic => exact congrArg GoType.basic h
    | predeclared _ hnot =>
      cases h
      exact absurd hbasic hnot
    | named => exact absurd h (hdot hname)
    | _ => cases hkindu
  | predeclared hname hnot =>
    cases hu with
    | basic _ hbasic =>
      cases h
      exact absurd hbasic hnot
    | predeclared => exact congrArg (fun name => GoType.named ⟨none, name⟩) h
    | named => exact absurd h (hdot hname)
    | _ => cases hkindu
  | named _ hname =>
    cases hu with
    | basic hname' | predeclared hname' => exact absurd h.symm (hdot hname')
    | named _ hname' =>
      obtain ⟨rfl, rfl⟩ := named_inj hname hname' h
      rfl
    | _ => cases hkindu
  | _ => cases hkindt

/-- A name with something behind it that is not part of the name does not start a type. -/
theorem Proper.name_append_ne (hu : Proper basics u) {name : String} (hname : IsIdentifier name)
    {c : Char} (hword : isWordChar c = false) (hcloser : c ∉ closers) (cs : List Char)
    {rest : List Char} (hrest : Closes rest) : name.toList ++ c :: cs ≠ u.chars ++ rest := by
  intro h
  have hstops := stops_cons hword cs
  have hkind : u.shownKind = .named := by
    rw [← hu.kindAt_chars hrest, ← h]
    exact kindAt_word hname.ne_nil hname.isWordChar (by simpa using hname.2.2) hstops
  obtain ⟨-, hrests⟩ :=
    append_inj_of_stops hname.isWordChar (hu.word hkind).2.1 hstops hrest.isWordChar h
  subst hrests
  exact hcloser (hrest c rfl)

end GoType

end UncheckedErrors
