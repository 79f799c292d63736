/-!
# White space and lines

* `isBlank`: the characters of the Unicode property White_Space together with the four
  separators U+001C to U+001F.
* `strip`: a text without blanks at its ends.
* `splitLines`: the lines of a text; a break at the very end opens no further line.
* `unifyBreaks`: a carriage return, with or without a line feed after it, becomes a line feed.
-/

namespace UncheckedErrors.Text

/-- A blank character. -/
def isBlank (c : Char) : Bool :=
  let n := c.toNat
  (9 ≤ n && n ≤ 13) || (28 ≤ n && n ≤ 32) || n == 0x85 || n == 0xA0 || n == 0x1680 ||
    (0x2000 ≤ n && n ≤ 0x200A) || n == 0x2028 || n == 0x2029 || n == 0x202F || n == 0x205F ||
    n == 0x3000

/-- The blanks that a number may be surrounded by: all but U+001C to U+001F. -/
def isNumberBlank (c : Char) : Bool :=
  isBlank c && !(28 ≤ c.toNat && c.toNat ≤ 31)

/-- The characters without those at both ends that satisfy `p`. -/
def trimBoth (p : Char → Bool) (cs : List Char) : List Char :=
  ((cs.dropWhile p).reverse.dropWhile p).reverse

/-- The text without blanks at its ends. -/
def strip (s : String) : String :=
  String.ofList (trimBoth isBlank s.toList)

/-- The characters that end a line. -/
def isLineBreak (c : Char) : Bool :=
  let n := c.toNat
  (10 ≤ n && n ≤ 13) || (28 ≤ n && n ≤ 30) || n == 0x85 || n == 0x2028 || n == 0x2029

/-- The lines of `cs` when the characters `line` (last first) of its first line are already
read. A carriage return and a line feed together are one break. -/
def splitLinesFrom (line : List Char) : List Char → List (List Char)
  | [] => if line.isEmpty then [] else [line.reverse]
  | '\r' :: '\n' :: cs => line.reverse :: splitLinesFrom [] cs
  | c :: cs =>
    if isLineBreak c then line.reverse :: splitLinesFrom [] cs
    else splitLinesFrom (c :: line) cs

/-- The lines of a text, without their breaks. -/
def splitLines (s : String) : List String :=
  (splitLinesFrom [] s.toList).map String.ofList

/-- Every break of the kinds `\r\n` and `\r` written as `\n`. -/
def unifyBreaks : List Char → List Char
  | [] => []
  | '\r' :: '\n' :: cs => '\n' :: unifyBreaks cs
  | '\r' :: cs => '\n' :: unifyBreaks cs
  | c :: cs => c :: unifyBreaks cs

/-- The pieces of `cs` between the characters that satisfy `p`; always at least one. -/
def splitAtChar (p : Char → Bool) : List Char → List (List Char)
  | [] => [[]]
  | c :: cs =>
    if p c then [] :: splitAtChar p cs
    else
      match splitAtChar p cs with
      | [] => [[c]]
      | piece :: rest => (c :: piece) :: rest

/-- The pieces of a text between occurrences of `sep`. -/
def splitOnChar (sep : Char) (s : String) : List String :=
  (splitAtChar (· == sep) s.toList).map String.ofList

end UncheckedErrors.Text
