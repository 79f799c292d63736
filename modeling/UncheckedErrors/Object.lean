import UncheckedErrors.GoType.Basic
import UncheckedErrors.Text.Case
import UncheckedErrors.Text.Blank

/-!
# Objects and selections

What an identifier stands for, and how a selector `x.f` was resolved.

* `Object.fullName`: the name that exclusion rules use, such as `fmt.Printf` or
  `(*os.File).Close`.
* `Object.id`: the identity of a method, under which an unexported name is qualified by its
  package.
-/

namespace UncheckedErrors

inductive ObjectKind where
  | func | builtin | var | const | typeName | pkgName | nil
  deriving DecidableEq, Repr

/-- What an identifier stands for. -/
inductive Object where
  /-- A function, or with a receiver a method: a concrete method has its receiver type, a method
  of an interface the interface that declares it, and then also its type. -/
  | func (pkg : Option String) (name : String) (recv type : Option GoType)
  | builtin (name : String)
  | var (pkg : Option String) (name : String) (type : Option GoType)
  | const (pkg : Option String) (name : String)
  | typeName (pkg : Option String) (name : String)
  | pkgName (path : String)
  | nil

namespace Object

def kind : Object → ObjectKind
  | .func .. => .func
  | .builtin _ => .builtin
  | .var .. => .var
  | .const .. => .const
  | .typeName .. => .typeName
  | .pkgName _ => .pkgName
  | .nil => .nil

def lastElement (path : String) : String :=
  ((Text.splitOnChar '/' path).getLast?).getD path

/-- The bare name of an object; an imported package goes by the last element of its path. -/
def name : Object → String
  | .func _ name _ _ | .builtin name | .var _ name _ | .const _ name | .typeName _ name => name
  | .pkgName path => lastElement path
  | .nil => "nil"

/-- The package an object belongs to; for an imported package its own path. -/
def pkg : Object → Option String
  | .func pkg _ _ _ | .var pkg _ _ | .const pkg _ | .typeName pkg _ => pkg
  | .pkgName path => some path
  | .builtin _ | .nil => none

/-- The type of a variable or of a method of an interface. -/
def type : Object → Option GoType
  | .func _ _ _ type | .var _ _ type => type
  | _ => none

def recv : Object → Option GoType
  | .func _ _ recv _ => recv
  | _ => none

def isMethod (o : Object) : Bool := o.recv.isSome

/-- Whether a name can be used outside its package: it starts with an upper case letter. -/
def isExportedName (name : String) : Bool :=
  match name.toList with
  | c :: _ => Text.isUpper c
  | [] => false

def exported (o : Object) : Bool := isExportedName o.name

/-- A name, with the package in front if there is one that is not empty. -/
def qualified (pkg : Option String) (name : String) : String :=
  match pkg with
  | some pkg => if pkg.isEmpty then name else pkg ++ "." ++ name
  | none => name

def methodId (pkg : Option String) (name : String) : String :=
  if isExportedName name then name else qualified pkg name

/-- The identity of a method: an unexported name is qualified by its package. -/
def id (o : Object) : String := methodId o.pkg o.name

def methodName (recv : GoType) (name : String) : String :=
  "(" ++ recv.text ++ ")." ++ name

def fullName (o : Object) : String :=
  match o.recv with
  | some recv => methodName recv o.name
  | none => qualified o.pkg o.name

end Object

inductive SelectionKind where
  | fieldVal | methodVal | methodExpr
  deriving DecidableEq, Repr

/-- How a selector `x.f` was resolved. Every entry of `index` but the last selects an embedded
field, the last one selects `f` itself. -/
structure Selection where
  kind : SelectionKind
  recv : GoType
  obj : Object
  index : List Int

end UncheckedErrors
