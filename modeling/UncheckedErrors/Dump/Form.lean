import UncheckedErrors.Datum.Basic

/-!
# Forms

A dump is built of forms, lists that start with a symbol: the tag. The readers take forms apart
with the functions of this module. A function that takes operands gives them out only if the form
is long enough, so no reader can reach past the end of a form.

`ShapeError` lists what can be wrong with a form, and `ShapeError.message` says it. A datum that is
nested too deeply to be shown is reported for its depth alone (`ShapeError.within`).
-/

namespace UncheckedErrors

/-- The families of forms that a tag is looked up in. -/
inductive FormFamily where
  | type | object | expression | statement | declaration | topLevel
  deriving DecidableEq, Repr

/-- A family of forms as messages call it. -/
def FormFamily.text : FormFamily → String
  | .type => "type"
  | .object => "object"
  | .expression => "expression"
  | .statement => "statement"
  | .declaration => "declaration"
  | .topLevel => "top-level"

/-- What is wrong with a form. -/
inductive ShapeError where
  | notSymbol (found : Datum)
  | notString (found : Datum)
  | notInteger (found : Datum)
  /-- Not a list; a tag may have been expected. -/
  | notList (tag : Option String) (found : Datum)
  /-- A form with another tag, or an empty list. -/
  | wrongTag (expected : String) (found : Option String)
  /-- A form with too few elements, its tag included. -/
  | tooShort (tag : String) (least found : Nat)
  | unknownForm (family : FormFamily) (tag : String)
  | unknownStructMember (tag : String)
  | unknownInterfaceMember (tag : String)
  | duplicateOption (key : String)
  /-- An option that does not hold exactly one element. -/
  | notSingle (key : String)
  | missingOption (tag key : String)
  | errorRedefined
  | duplicateTypedef (name : String)
  | selectorName
  | selectionShape
  | unknownSelectionKind (kind : String)
  | selectionWithoutObject (name : String)
  /-- A `go` or `defer` of something else than a call. -/
  | notCall (tag : String)
  | namesRequired
  | noSource (filename : String)
  /-- Forms are nested beyond what the readers take. -/
  | tooDeep

/-- A datum and its sort. -/
def ShapeError.found (d : Datum) : String := d.sort ++ ": " ++ d.display

/-- What is wrong, in words. -/
def ShapeError.message : ShapeError → String
  | .notSymbol d => "expected symbol, got " ++ found d
  | .notString d => "expected string, got " ++ found d
  | .notInteger d => "expected integer, got " ++ found d
  | .notList none d => "expected list, got " ++ found d
  | .notList (some tag) d => "expected list (" ++ tag ++ " ...), got " ++ found d
  | .wrongTag expected actual =>
    "expected (" ++ expected ++ " ...), got (" ++ actual.getD "<empty>" ++ " ...)"
  | .tooShort tag least count =>
    "(" ++ tag ++ " ...) too short: expected at least " ++ toString least ++ " elements, got " ++
      toString count
  | .unknownForm family tag => "unknown " ++ family.text ++ " form: (" ++ tag ++ " ...)"
  | .unknownStructMember tag => "unknown struct member: (" ++ tag ++ " ...)"
  | .unknownInterfaceMember tag => "unknown interface member: (" ++ tag ++ " ...)"
  | .duplicateOption key => "duplicate (" ++ key ++ " ...) option"
  | .notSingle key => "(" ++ key ++ " ...) takes exactly one element"
  | .missingOption tag key => "(" ++ tag ++ " ...) requires (" ++ key ++ " ...)"
  | .errorRedefined => "the predeclared error type cannot be redefined"
  | .duplicateTypedef name => "duplicate typedef for " ++ name
  | .selectorName => "selector name must be an (ident ...)"
  | .selectionShape => "(selection KIND RECV (index I...)) expected"
  | .unknownSelectionKind kind => "unknown selection kind " ++ Text.quoted kind
  | .selectionWithoutObject name => "selection of " ++ Text.quoted name ++ " has no (obj ...)"
  | .notCall tag => "(" ++ tag ++ " ...) requires a (call ...)"
  | .namesRequired => "(value-spec ...) requires (names IDENT...)"
  | .noSource filename =>
    "(file " ++ Text.quoted filename ++ " ...) has neither (source) nor (source-path)"
  | .tooDeep => "forms nested too deeply to read"

/-- The datum that a mistake shows. -/
def ShapeError.datum? : ShapeError → Option Datum
  | .notSymbol d | .notString d | .notInteger d | .notList _ d => some d
  | _ => none

/-- The mistake as it is reported with `steps` steps at hand: two for the report, and those that the
form of the datum takes. -/
def ShapeError.within (steps : Nat) (e : ShapeError) : ShapeError :=
  if e.datum?.any (steps < ·.displayDepth + 2) then .tooDeep else e

/-- The outcome of taking a form apart. -/
abbrev Shape := Except ShapeError

/-- The text of a string or a symbol. -/
def Datum.asString : Datum → Shape String
  | .symbol name => return name
  | .string text => return text
  | d => throw (.notString d)

/-- The value of an integer. -/
def Datum.asInt : Datum → Shape Int
  | .int value => return value
  | d => throw (.notInteger d)

/-- A package path; the empty one stands for no package. -/
def Datum.asPackage (d : Datum) : Shape (Option String) := do
  let path ← d.asString
  return if path.isEmpty then none else some path

/-- A form: its tag and what follows it. -/
structure Form where
  tag : String
  args : List Datum

namespace Form

/-- The error for a form that needs at least `least` elements. -/
def tooShort (form : Form) (least : Nat) : ShapeError :=
  .tooShort form.tag least (form.args.length + 1)

/-- Checks the number of elements of a form, its tag included. -/
def atLeast (form : Form) (least : Nat) : Shape Unit :=
  if form.args.length + 1 < least then throw (form.tooShort least) else return

/-- A list with at least one element, the first of which is a symbol. An empty list is too short
for the `least` elements that are asked for. -/
def ofItems (least : Nat) : List Datum → Shape Form
  | [] => throw (.tooShort "" least 0)
  | .symbol tag :: args => return ⟨tag, args⟩
  | d :: _ => throw (.notSymbol d)

/-- A form with at least `least` elements. -/
def ofDatum (least : Nat) (d : Datum) : Shape Form := do
  match d with
  | .list items =>
    let form ← ofItems least items
    form.atLeast least
    return form
  | d => throw (.notList none d)

/-- A form with a given tag and at least `least` elements. -/
def tagged (tag : String) (least : Nat) (d : Datum) : Shape Form := do
  match d with
  | .list [] => throw (.wrongTag tag none)
  | .list (.symbol actual :: args) =>
    if actual ≠ tag then throw (.wrongTag tag (some actual))
    let form : Form := ⟨actual, args⟩
    form.atLeast least
    return form
  | .list (head :: _) => throw (.notSymbol head)
  | d => throw (.notList (some tag) d)

/-- The first operand, and what follows it. -/
def operand (form : Form) : Shape (Datum × List Datum) :=
  match form.args with
  | a :: rest => return (a, rest)
  | _ => throw (form.tooShort 2)

/-- The first two operands, and what follows them. -/
def operands2 (form : Form) : Shape (Datum × Datum × List Datum) :=
  match form.args with
  | a :: b :: rest => return (a, b, rest)
  | _ => throw (form.tooShort 3)

/-- The first three operands, and what follows them. -/
def operands3 (form : Form) : Shape (Datum × Datum × Datum × List Datum) :=
  match form.args with
  | a :: b :: c :: rest => return (a, b, c, rest)
  | _ => throw (form.tooShort 4)

/-- The first four operands, and what follows them. -/
def operands4 (form : Form) : Shape (Datum × Datum × Datum × Datum × List Datum) :=
  match form.args with
  | a :: b :: c :: d :: rest => return (a, b, c, d, rest)
  | _ => throw (form.tooShort 5)

end Form

/-- Options of a form: what follows the tag of each, under its tag. -/
abbrev Options := List (String × List Datum)

namespace Options

/-- What an option holds. -/
def get? (options : Options) (key : String) : Option (List Datum) :=
  (options.find? (·.1 == key)).map (·.2)

/-- What an option holds, nothing if it is absent. -/
def getAll (options : Options) (key : String) : List Datum := (options.get? key).getD []

/-- The one element of an option, if the option is there. -/
def single? (options : Options) (key : String) : Shape (Option Datum) :=
  match options.get? key with
  | none => return none
  | some [d] => return some d
  | some _ => throw (.notSingle key)

/-- The one element of an option that the form `tag` has to have. -/
def required (options : Options) (tag key : String) : Shape Datum := do
  match ← options.single? key with
  | some d => return d
  | none => throw (.missingOption tag key)

end Options

/-- The key of an option: the tag of a form, if it is one of `keys`. -/
def optionKey? (keys : List String) : Datum → Option (String × List Datum)
  | .list (.symbol tag :: args) => if keys.contains tag then some (tag, args) else none
  | _ => none

/-- Separates the options with one of the `keys` from the other elements of a form. No option may
come twice. `seen` holds the options that came before. -/
def splitOptionsFrom (keys : List String) (seen : Options) :
    List Datum → Shape (List Datum × Options)
  | [] => return ([], seen)
  | d :: rest =>
    match optionKey? keys d with
    | some (key, args) =>
      if (seen.get? key).isSome then throw (.duplicateOption key)
      else splitOptionsFrom keys (seen ++ [(key, args)]) rest
    | none => do
      let (others, options) ← splitOptionsFrom keys seen rest
      return (d :: others, options)

/-- Separates the options with one of the `keys` from the other elements of a form. -/
def splitOptions (keys : List String) (items : List Datum) : Shape (List Datum × Options) :=
  splitOptionsFrom keys [] items

/-- The options with one of the `keys` among the elements of a form. -/
def optionsOf (keys : List String) (items : List Datum) : Shape Options :=
  (·.2) <$> splitOptions keys items

end UncheckedErrors
