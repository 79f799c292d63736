import UncheckedErrors.Number.Decimal

/-!
# Binary numbers of double precision

A finite number is a mantissa below `2 ^ 53` times a power of two. All arithmetic is on natural
numbers.

* `Binary64.ofDecimal`: the number nearest to a decimal, a tie going to the even mantissa.
* `Binary64.add`: the number nearest to a sum.
* `shortest`: the fewest decimal digits that read back as the same number, and among those the
  nearest.
* `Binary64.text`: those digits, written positionally when the leading digit has an exponent from
  -4 to 15 and with an exponent part otherwise.
-/

namespace UncheckedErrors.Number

/-- A number of double precision. Zero has mantissa and exponent zero. -/
inductive Binary64 where
  | finite (negative : Bool) (mantissa : Nat) (exponent : Int)
  | infinite (negative : Bool)
  | notANumber
  deriving DecidableEq, Repr

/-- The quotient `num / den` to the nearest integer, a tie going to the even one. -/
def roundDiv (num den : Nat) : Nat :=
  let q := num / den
  let r := num % den
  if 2 * r < den then q
  else if den < 2 * r then q + 1
  else if q % 2 == 0 then q else q + 1

/-- The `e` with `2 ^ e ≤ num / den < 2 ^ (e + 1)`, for a positive quotient. -/
def floorLog2 (num den : Nat) : Int :=
  let a := num.log2
  let b := den.log2
  if b ≤ a then
    if den * Nat.pow 2 (a - b) ≤ num then (a : Int) - b else (a : Int) - b - 1
  else
    if den ≤ num * Nat.pow 2 (b - a) then (a : Int) - b else (a : Int) - b - 1

/-- The mantissa and exponent nearest to the positive quotient `num / den`, with no limit on
large exponents. -/
def nearest (num den : Nat) : Nat × Int :=
  let exponent := max (floorLog2 num den - 52) (-1074)
  let mantissa :=
    if 0 ≤ exponent then roundDiv num (den * Nat.pow 2 exponent.toNat)
    else roundDiv (num * Nat.pow 2 (-exponent).toNat) den
  if mantissa == Nat.pow 2 53 then (Nat.pow 2 52, exponent + 1) else (mantissa, exponent)

/-- The number nearest to a quotient of natural numbers under a sign. -/
def Binary64.ofQuotient (negative : Bool) (num den : Nat) : Binary64 :=
  if num == 0 then .finite negative 0 0
  else
    let (mantissa, exponent) := nearest num den
    if 971 < exponent then .infinite negative
    else if mantissa == 0 then .finite negative 0 0
    else .finite negative mantissa exponent

/-- A decimal power times a coefficient as a quotient of natural numbers. -/
def quotient (coefficient : Nat) (exponent : Int) : Nat × Nat :=
  if 0 ≤ exponent then (coefficient * Nat.pow 10 exponent.toNat, 1)
  else (coefficient, Nat.pow 10 (-exponent).toNat)

/-- Number of decimal digits, at least one. -/
def digitCount (n : Nat) : Nat :=
  (Nat.toDigits 10 n).length

/-- The number nearest to a decimal. Decimals far beyond the range are settled by their number
of digits, without computing the power of ten. -/
def Binary64.ofDecimal (x : Decimal) : Binary64 :=
  let magnitude := digitCount x.coefficient + x.exponent
  if x.coefficient == 0 || magnitude < -400 then .finite x.negative 0 0
  else if 400 < magnitude then .infinite x.negative
  else
    let (num, den) := quotient x.coefficient x.exponent
    .ofQuotient x.negative num den

/-- Zero. -/
def Binary64.zero : Binary64 := .finite false 0 0

/-- A mantissa under a sign, in units of `2 ^ unit`; the exponent is not below `unit`. -/
def scaled (negative : Bool) (mantissa : Nat) (exponent unit : Int) : Int :=
  let n := mantissa * Nat.pow 2 (exponent - unit).toNat
  if negative then -(n : Int) else n

/-- The number nearest to the sum of two finite numbers. A sum of zero is negative only if both
numbers are. -/
def addFinite (negative₁ : Bool) (mantissa₁ : Nat) (exponent₁ : Int)
    (negative₂ : Bool) (mantissa₂ : Nat) (exponent₂ : Int) : Binary64 :=
  let unit := min exponent₁ exponent₂
  let sum := scaled negative₁ mantissa₁ exponent₁ unit + scaled negative₂ mantissa₂ exponent₂ unit
  let negative := if sum == 0 then negative₁ && negative₂ else decide (sum < 0)
  if 0 ≤ unit then .ofQuotient negative (sum.natAbs * Nat.pow 2 unit.toNat) 1
  else .ofQuotient negative sum.natAbs (Nat.pow 2 (-unit).toNat)

/-- The number nearest to the sum of two numbers. Opposite infinities have no sum. -/
def Binary64.add : Binary64 → Binary64 → Binary64
  | .notANumber, _ | _, .notANumber => .notANumber
  | .infinite a, .infinite b => if a == b then .infinite a else .notANumber
  | .infinite a, .finite .. => .infinite a
  | .finite .., .infinite b => .infinite b
  | .finite a m e, .finite b n f => addFinite a m e b n f

/-- The `e` with `10 ^ e ≤ num / den < 10 ^ (e + 1)`, for a positive quotient. -/
def floorLog10 (num den : Nat) : Int :=
  if den ≤ num then digitCount (num / den) - 1
  else
    let k := digitCount (den / num)
    if den ≤ num * Nat.pow 10 (k - 1) then 1 - (k : Int) else -(k : Int)

/-- Of the two neighbours of `num / den` on the grid of multiples of `10 ^ grid`, the one that
reads back as `mantissa * 2 ^ exponent`; of two, the nearer, and on a tie the even one. -/
def onGrid? (num den mantissa : Nat) (exponent grid : Int) : Option (Nat × Int) :=
  let (n, d) :=
    if 0 ≤ grid then (num, den * Nat.pow 10 grid.toNat) else (num * Nat.pow 10 (-grid).toNat, den)
  let below := n / d
  let readsBack (c : Nat) : Bool :=
    Binary64.ofDecimal ⟨false, c, grid⟩ == .finite false mantissa exponent
  match readsBack below, readsBack (below + 1) with
  | true, true => some (roundDiv n d, grid)
  | true, false => some (below, grid)
  | false, true => some (below + 1, grid)
  | false, false => none

/-- The fewest decimal digits that read back as `mantissa * 2 ^ exponent`, with their power of
ten. Seventeen digits always do. -/
def shortest (mantissa : Nat) (exponent : Int) : Nat × Int :=
  let (num, den) :=
    if 0 ≤ exponent then (mantissa * Nat.pow 2 exponent.toNat, 1)
    else (mantissa, Nat.pow 2 (-exponent).toNat)
  let lead := floorLog10 num den
  ((List.range 17).findSome? fun (k : Nat) => onGrid? num den mantissa exponent (lead - k)).getD
    (mantissa, 0)

/-- An exponent part: a sign and at least two digits. -/
def exponentPart (e : Int) : String :=
  let digits := toString e.natAbs
  "e" ++ (if e < 0 then "-" else "+") ++ (if digits.length < 2 then "0" else "") ++ digits

/-- Zeros in a row. -/
def zeros (n : Nat) : String :=
  String.ofList (List.replicate n '0')

/-- The digits `ds`, the first of which has the exponent `lead`, written out. -/
def layout (ds : List Char) (lead : Int) : String :=
  if -4 ≤ lead && lead < 16 then
    if lead < 0 then "0." ++ zeros ((-lead).toNat - 1) ++ String.ofList ds
    else
      let places := lead.toNat + 1
      if ds.length ≤ places then String.ofList ds ++ zeros (places - ds.length) ++ ".0"
      else String.ofList (ds.take places) ++ "." ++ String.ofList (ds.drop places)
  else
    match ds with
    | [d] => String.ofList [d] ++ exponentPart lead
    | d :: rest => String.ofList [d] ++ "." ++ String.ofList rest ++ exponentPart lead
    | [] => ""

/-- A nonnegative finite number written out. -/
def magnitudeText (mantissa : Nat) (exponent : Int) : String :=
  if mantissa == 0 then "0.0"
  else
    let (c, power) := shortest mantissa exponent
    let digits := Nat.toDigits 10 c
    let ds := (digits.reverse.dropWhile (· == '0')).reverse
    layout ds (digits.length - 1 + power)

/-- A number written out. -/
def Binary64.text : Binary64 → String
  | .finite negative mantissa exponent =>
    (if negative then "-" else "") ++ magnitudeText mantissa exponent
  | .infinite negative => if negative then "-inf" else "inf"
  | .notANumber => "nan"

/-- The words for the numbers that have no digits, in lower case. -/
def readWord? (negative : Bool) (word : String) : Option Binary64 :=
  if word == "inf" || word == "infinity" then some (.infinite negative)
  else if word == "nan" then some .notANumber
  else none

/-- The number that a text writes: a decimal, or a word in any case. -/
def Binary64.read? (cs : List Char) : Option Binary64 :=
  let (negative, rest) := splitSign (Text.trimBoth Text.isNumberBlank cs)
  match readWord? negative (String.ofList (rest.map Char.toLower)) with
  | some x => some x
  | none => (readUnsigned? negative rest).map .ofDecimal

end UncheckedErrors.Number
