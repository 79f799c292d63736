import UncheckedErrors.Tree.Basic

/-!
# Calls

What a call calls, and which of its results are errors. A call whose type is missing or tells
nothing counts as one that returns no error, so that nothing is reported on a guess.
-/

namespace UncheckedErrors

namespace Call

/-- For each result of a call, whether it has the type `error`. A type that is no tuple is one
result. -/
def errorSlots (c : Call) : List Bool :=
  match c.type with
  | some (.tuple ts) => ts.map (·.isError)
  | some t => [t.isError]
  | none => [false]

/-- Whether a call invokes the builtin `recover`. What that returns has no error type but is
treated as an error. -/
def isRecover (c : Call) : Bool :=
  match c.fn with
  | .ident id =>
    match id.obj with
    | some (.builtin _) => id.name == "recover"
    | _ => false
  | _ => false

def returnsError (c : Call) : Bool := c.isRecover || c.errorSlots.any (·)

/-- The identifier that names what is called, in `f()` and `x.f()`. -/
def calleeIdent? (c : Call) : Option Ident :=
  match c.fn with
  | .ident id => some id
  | .selector _ sel _ _ => some sel
  | _ => none

/-- The function or builtin that is called. A call of a variable or a conversion has none. -/
def callee? (c : Call) : Option Object :=
  match c.calleeIdent?.bind (·.obj) with
  | some (.func pkg name recv type) => some (.func pkg name recv type)
  | some (.builtin name) => some (.builtin name)
  | _ => none

/-- The text `x.f` of a call `x.f()`, and the empty text for any other call. -/
def selectorName (c : Call) : String :=
  match c.fn with
  | .selector (.ident x) sel _ _ => x.name ++ "." ++ sel.name
  | _ => ""

end Call

/-- Whether an object is one of the standard streams that rules call by name. -/
def Object.isStandardStream : Object → Bool
  | .var (some "os") name _ => name == "Stdout" || name == "Stderr"
  | _ => false

/-- The name that a rule may give the first argument of a call by: `os.Stdout` and `os.Stderr` go
by their names, any other expression by its type. -/
def Expr.argumentName? (x : Expr) : Option String :=
  let byType := x.type?.map (·.text)
  match x with
  | .selector _ sel _ _ =>
    match sel.obj with
    | some obj => if obj.isStandardStream then some ("os." ++ obj.name) else byType
    | none => byType
  | _ => byType

def Call.argumentName? (c : Call) : Option String := c.args.head?.bind (·.argumentName?)

end UncheckedErrors
