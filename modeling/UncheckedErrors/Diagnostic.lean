import UncheckedErrors.Source
import UncheckedErrors.Text.Quoted

/-!
# Diagnostics

One unchecked error, with where it is and the line it is on. Two diagnostics with the same `key`
report the same finding. `Diagnostic.le` is the order of output.
-/

namespace UncheckedErrors

/-- What was left unchecked. -/
inductive DiagnosticKind where
  | uncheckedCall
  | uncheckedBlank
  | uncheckedAssert
  deriving DecidableEq, Repr

namespace DiagnosticKind

/-- All kinds, in order of the summary. -/
def all : List DiagnosticKind := [.uncheckedCall, .uncheckedBlank, .uncheckedAssert]

/-- The name of a kind in records. -/
def text : DiagnosticKind → String
  | .uncheckedCall => "uncheckedCall"
  | .uncheckedBlank => "uncheckedBlank"
  | .uncheckedAssert => "uncheckedAssert"

def ofText? (s : String) : Option DiagnosticKind := all.find? (·.text == s)

/-- What is wrong, in words. -/
def message : DiagnosticKind → String
  | .uncheckedCall => "error return value not checked"
  | .uncheckedBlank => "error assigned to blank identifier"
  | .uncheckedAssert => "type assertion result not checked"

end DiagnosticKind

structure Diagnostic where
  position : Position
  /-- The line of the source, without blanks around it. -/
  line : String
  kind : DiagnosticKind
  /-- The full name of the callee, if there is one. -/
  funcName : String
  /-- The text `x.f` of a call of that shape. -/
  selectorName : String
  deriving DecidableEq, Repr

namespace Diagnostic

/-- What two reports of the same finding share. -/
structure Key where
  filename : String
  line : Int
  column : Int
  kind : DiagnosticKind
  text : String
  deriving DecidableEq, Repr

def key (d : Diagnostic) : Key :=
  ⟨d.position.filename, d.position.line, d.position.column, d.kind, d.line⟩

/-- Keys in order of file name, line, column, text of the line and name of the kind. -/
def Key.compare (a b : Key) : Ordering :=
  (Ord.compare a.filename b.filename).then <| (Ord.compare a.line b.line).then <|
    (Ord.compare a.column b.column).then <| (Ord.compare a.text b.text).then <|
      Ord.compare a.kind.text b.kind.text

/-- The order of output. -/
def le (a b : Diagnostic) : Bool := (a.key.compare b.key).isLE

/-- A diagnostic as a text: its position and its line. -/
def text (d : Diagnostic) : String := d.position.text ++ "\t" ++ d.line

/-- The fields of a record, in order, each value already written. -/
def fields (d : Diagnostic) : List (String × String) := [
  ("file", Text.escaped d.position.filename),
  ("line", toString d.position.line),
  ("column", toString d.position.column),
  ("kind", Text.escaped d.kind.text),
  ("message", Text.escaped d.kind.message),
  ("source", Text.escaped d.line),
  ("func", Text.escaped d.funcName),
  ("selector", Text.escaped d.selectorName)]

def record (d : Diagnostic) : String :=
  let members := d.fields.map fun (name, value) => Text.escaped name ++ ": " ++ value
  "\x7b" ++ ", ".intercalate members ++ "\x7d"

end Diagnostic

end UncheckedErrors
