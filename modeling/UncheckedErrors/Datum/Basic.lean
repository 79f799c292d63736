import UncheckedErrors.Number.Binary64
import UncheckedErrors.Text.Quoted

/-!
# Data

The values a dump is made of: symbols, strings, integers, numbers of double precision, lists in
round and in square brackets, and quoted data.

`Datum.display` and `Datum.sort` are the form of a datum, and the word for its sort, in messages.
`Datum.displayDepth` measures how deep the form is nested.
-/

namespace UncheckedErrors

/-- A datum. -/
inductive Datum where
  | symbol (name : String)
  | string (text : String)
  | int (value : Int)
  | real (value : Number.Binary64)
  /-- A list in round brackets. -/
  | list (items : List Datum)
  /-- A list in square brackets. -/
  | brackets (items : List Datum)
  /-- A datum behind an apostrophe. -/
  | quoted (datum : Datum)

namespace Datum

/-- The word for the sort of a datum. -/
def sort : Datum → String
  | .symbol _ => "Symbol"
  | .string _ => "str"
  | .int _ => "int"
  | .real _ => "float"
  | .list _ => "list"
  | .brackets _ => "Brackets"
  | .quoted _ => "Quoted"

mutual

/-- A datum as messages show it. -/
def display : Datum → String
  | .symbol name => "Symbol(" ++ Text.quoted name ++ ")"
  | .string text => Text.quoted text
  | .int value => toString value
  | .real value => value.text
  | .list items => "[" ++ ", ".intercalate (displayAll items) ++ "]"
  | .brackets items => "Brackets(I=[" ++ ", ".intercalate (displayAll items) ++ "])"
  | .quoted datum => "Quoted(" ++ datum.display ++ ")"

/-- The data of a list as messages show them. -/
def displayAll : List Datum → List String
  | [] => []
  | datum :: rest => datum.display :: displayAll rest

end

mutual

/-- The depth of the form of a datum in messages: one step for a list, three for what has a name. -/
def displayDepth : Datum → Nat
  | .symbol _ => 3
  | .string _ | .int _ | .real _ => 1
  | .list items => displayDepthAll items + 1
  | .brackets items => displayDepthAll items + 3
  | .quoted datum => datum.displayDepth + 3

/-- The greatest depth of the forms of several data. -/
def displayDepthAll : List Datum → Nat
  | [] => 0
  | datum :: rest => max datum.displayDepth (displayDepthAll rest)

end

end Datum

end UncheckedErrors
