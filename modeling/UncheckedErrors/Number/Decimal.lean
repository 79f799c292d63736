import UncheckedErrors.Text.Blank
import UncheckedErrors.Text.Word

/-!
# Written numbers

How integers and decimals are written. A number may have blanks around it, a sign in front, and
single low lines between two digits; its digits may come from any script.

* `readInt?`: an integer of at most `digitLimit` digits.
* `readUnsigned?`: a decimal with a point, an exponent, or both, as a coefficient and a power of
  ten.
-/

namespace UncheckedErrors.Number

open Text (digit?)

/-- The values of a run of digits in which a low line may stand between two digits. -/
def digitRun? : List Char → Option (List Nat)
  | [] => none
  | [c] => (digit? c).map fun d => [d]
  | c :: '_' :: cs => do
    let d ← digit? c
    let ds ← digitRun? cs
    return d :: ds
  | c :: cs => do
    let d ← digit? c
    let ds ← digitRun? cs
    return d :: ds

/-- The number with the given decimal digits, the first one leading. -/
def ofDigits (ds : List Nat) : Nat :=
  ds.foldl (fun n d => 10 * n + d) 0

/-- A sign, if there is one, and what follows it. The flag is set by a minus. -/
def splitSign : List Char → Bool × List Char
  | '-' :: cs => (true, cs)
  | '+' :: cs => (false, cs)
  | cs => (false, cs)

/-- An integer is written with at most this many digits, zeros in front included. -/
def digitLimit : Nat := 4300

/-- The integer that a text writes. -/
def readInt? (cs : List Char) : Option Int :=
  let (negative, rest) := splitSign (Text.trimBoth Text.isNumberBlank cs)
  ((digitRun? rest).filter (·.length ≤ digitLimit)).map fun ds =>
    if negative then -(ofDigits ds : Int) else ofDigits ds

/-- A decimal number, `coefficient * 10 ^ exponent` under a sign. -/
structure Decimal where
  negative : Bool
  coefficient : Nat
  exponent : Int
  deriving DecidableEq, Repr

/-- The digits before and after the point of a decimal; one side may be empty. -/
def readMantissa? (cs : List Char) : Option (List Nat × List Nat) :=
  let whole := cs.takeWhile (· != '.')
  match cs.dropWhile (· != '.') with
  | [] => (digitRun? whole).map fun ds => (ds, [])
  | _ :: fraction =>
    match whole, fraction with
    | [], [] => none
    | [], _ => (digitRun? fraction).map fun fs => ([], fs)
    | _, [] => (digitRun? whole).map fun ds => (ds, [])
    | _, _ => do
      let ds ← digitRun? whole
      let fs ← digitRun? fraction
      return (ds, fs)

/-- The power of ten that an exponent part writes, sign included. -/
def readExponent? (cs : List Char) : Option Int :=
  let (negative, rest) := splitSign cs
  (digitRun? rest).map fun ds => if negative then -(ofDigits ds : Int) else ofDigits ds

/-- The mark in front of an exponent. -/
def isExponentMark (c : Char) : Bool :=
  c == 'e' || c == 'E'

/-- The decimal that a text without blanks and sign writes. -/
def readUnsigned? (negative : Bool) (cs : List Char) : Option Decimal := do
  let (whole, fraction) ← readMantissa? (cs.takeWhile (!isExponentMark ·))
  let exponent ←
    match cs.dropWhile (!isExponentMark ·) with
    | [] => some 0
    | _ :: rest => readExponent? rest
  return ⟨negative, ofDigits (whole ++ fraction), exponent - fraction.length⟩

end UncheckedErrors.Number
