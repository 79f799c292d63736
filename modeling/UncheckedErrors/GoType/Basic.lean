/-!
# Go types

The terms of Go's type system that the analysis looks at. A named type is only its name here; what
it stands for is looked up in a table of definitions, so recursive types are finite terms.

`GoType.text` writes a type with full package paths, the form that exclusion rules are matched
against.
-/

namespace UncheckedErrors

/-- The name of a defined type. Predeclared types have no package. -/
structure TypeName where
  pkg : Option String
  name : String
  deriving DecidableEq, Repr

/-- The name `name` in the package with this path; an empty path stands for no package. -/
def TypeName.ofPath (path name : String) : TypeName :=
  ⟨if path.isEmpty then none else some path, name⟩

/-- The name with its package path in front. -/
def TypeName.text (n : TypeName) : String :=
  match n.pkg with
  | some pkg => pkg ++ "." ++ n.name
  | none => n.name

/-- The name of the predeclared type `error`. -/
def TypeName.error : TypeName := ⟨none, "error"⟩

mutual

/-- A Go type. -/
inductive GoType where
  | basic (name : String)
  | named (name : TypeName)
  | pointer (elem : GoType)
  | slice (elem : GoType)
  | array (length : Int) (elem : GoType)
  | map (key value : GoType)
  | chan (elem : GoType)
  | tuple (elems : List GoType)
  | struct (fields : List Field)
  /-- The methods an interface declares itself, and what it embeds. -/
  | interface (methods : List Method) (embedded : List GoType)
  | signature (params results : List GoType) (variadic : Bool)
  | invalid

/-- A field of a struct. Those of an embedded one are promoted. -/
inductive Field where
  | mk (name : String) (type : GoType) (embedded : Bool)

/-- A method that an interface declares. -/
inductive Method where
  | mk (name : String) (type : GoType)

end

instance : Inhabited GoType := ⟨.invalid⟩

/-- The name of a field. -/
def Field.name : Field → String
  | .mk name _ _ => name

/-- The type of a field. -/
def Field.type : Field → GoType
  | .mk _ type _ => type

/-- Whether a field is embedded. -/
def Field.embedded : Field → Bool
  | .mk _ _ embedded => embedded

/-- The name of a method. -/
def Method.name : Method → String
  | .mk name _ => name

/-- The type of a method. -/
def Method.type : Method → GoType
  | .mk _ type => type

/-- The sorts of types. -/
inductive TypeKind where
  | basic | named | pointer | slice | array | map | chan | tuple | struct | interface | signature
  | invalid
  deriving DecidableEq, Repr

namespace GoType

/-- The sort of a type. -/
def kind : GoType → TypeKind
  | .basic _ => .basic
  | .named _ => .named
  | .pointer _ => .pointer
  | .slice _ => .slice
  | .array _ _ => .array
  | .map _ _ => .map
  | .chan _ => .chan
  | .tuple _ => .tuple
  | .struct _ => .struct
  | .interface _ _ => .interface
  | .signature _ _ _ => .signature
  | .invalid => .invalid

/-- The predeclared type `error`. -/
def error : GoType := .named .error

/-- Whether a type is the predeclared `error`. A type that merely has its method is not. -/
def isError : GoType → Bool
  | .named n => n = .error
  | _ => false

/-- What a pointer, slice, array or channel holds. -/
def elem? : GoType → Option GoType
  | .pointer t | .slice t | .array _ t | .chan t => some t
  | _ => none

/-- The type without one level of pointer. -/
def deref : GoType → GoType
  | .pointer t => t
  | t => t

/-- Parameters and results, each already written, as the tail of a function type. -/
def signatureText (params results : List String) : String :=
  "(" ++ ", ".intercalate params ++ ")" ++
    match results with
    | [] => ""
    | [result] => " " ++ result
    | results => " (" ++ ", ".intercalate results ++ ")"

mutual

/-- A type, written with full package paths. -/
def text : GoType → String
  | .basic name => name
  | .named name => name.text
  | .pointer t => "*" ++ t.text
  | .slice t => "[]" ++ t.text
  | .array length t => "[" ++ toString length ++ "]" ++ t.text
  | .map key value => "map[" ++ key.text ++ "]" ++ value.text
  | .chan t => "chan " ++ t.text
  | .tuple ts => "(" ++ ", ".intercalate (texts ts) ++ ")"
  | .struct fields => "struct\x7b" ++ "; ".intercalate (fieldTexts fields) ++ "\x7d"
  | .interface methods embedded =>
    "interface\x7b" ++ "; ".intercalate (methodTexts methods ++ texts embedded) ++ "\x7d"
  | .signature params results variadic =>
    "func" ++ signatureText (paramTexts variadic params) (texts results)
  | .invalid => "invalid type"

/-- The types of a list, each written. -/
def texts : List GoType → List String
  | [] => []
  | t :: ts => t.text :: texts ts

/-- The parameters of a function, each written; the last one of a variadic function is written by
its element. -/
def paramTexts (variadic : Bool) : List GoType → List String
  | [] => []
  | [.slice t] => if variadic then ["..." ++ t.text] else ["[]" ++ t.text]
  | [t] => if variadic then ["..." ++ t.text] else [t.text]
  | t :: ts => t.text :: paramTexts variadic ts

/-- The fields of a struct, each written; an embedded one has no name. -/
def fieldTexts : List Field → List String
  | [] => []
  | .mk name type embedded :: fields =>
    (if embedded then type.text else name ++ " " ++ type.text) :: fieldTexts fields

/-- The methods of an interface, each written. A type that is no signature counts as one without
parameters and results. -/
def methodTexts : List Method → List String
  | [] => []
  | .mk name (.signature params results variadic) :: methods =>
    (name ++ signatureText (paramTexts variadic params) (texts results)) :: methodTexts methods
  | .mk name _ :: methods => (name ++ signatureText [] []) :: methodTexts methods

end

/-- A type that may be missing, written. -/
def textOf : Option GoType → String
  | some t => t.text
  | none => "<nil>"

end GoType

end UncheckedErrors
