import UncheckedErrors.Text.Blank
import UncheckedErrors.Text.Case
import UncheckedErrors.Text.Word

/-!
# Name patterns

Regular expressions on names. A pattern is searched for: it holds of a text when it matches
somewhere in it.

`Pattern.matchFrom` tries the ways in which a pattern can match in order of preference, and takes
the first one that lets the rest match too. A repetition that keeps what it took
(`Appetite.all`) settles each of its rounds before the rest is tried.
-/

namespace UncheckedErrors

inductive CharItem where
  | char (c : Char)
  | range (first last : Char)
  | digit
  | word
  | blank
  /-- Whatever is not in the given class. -/
  | other (item : CharItem)
  deriving DecidableEq, Repr

/-- A set of characters, or its complement. No member is listed twice. -/
structure CharSet where
  negated : Bool
  items : List CharItem
  deriving DecidableEq, Repr

/-- How many rounds a repetition takes: as many or as few as it can, unless the rest needs another
number, or as many as it can whatever the rest needs. -/
inductive Appetite where
  | most | fewest | all
  deriving DecidableEq, Repr

inductive Pattern where
  | empty
  | one (set : CharSet)
  | start
  /-- The end of the text; if `orBreak`, also before a line feed that ends it. -/
  | finish (orBreak : Bool)
  /-- A position between a word character and something else, or (`negated`) any other; an empty
  text has neither. -/
  | boundary (negated : Bool)
  | seq (first second : Pattern)
  | alt (left right : Pattern)
  | repeated (body : Pattern) (least : Nat) (most : Option Nat) (appetite : Appetite)
  deriving DecidableEq, Repr

/-- A pattern together with the way letters are compared. -/
structure NamePattern where
  pattern : Pattern
  ignoreCase : Bool
  deriving DecidableEq, Repr

def CharItem.has : CharItem → Char → Bool
  | .char x, c => x == c
  | .range first last, c => first ≤ c && c ≤ last
  | .digit, c => Text.isDigit c
  | .word, c => Text.isWord c
  | .blank, c => Text.isBlank c
  | .other item, c => !item.has c

/-- Whether the item holds `c` when letter case does not matter. A letter beyond U+FFFF that shares
its set with other members stands for a lower case letter only. -/
def CharItem.hasAnyCase (alone : Bool) (item : CharItem) (c : Char) : Bool :=
  match item with
  | .char x =>
    if !alone && 0xFFFF < x.toNat then x == Text.lower c else (Text.casings c).contains x
  | .range first last => (Text.casings c).any fun d => first ≤ d && d ≤ last
  | item => item.has c

def CharSet.has (ignoreCase : Bool) (set : CharSet) (c : Char) : Bool :=
  set.negated !=
    if ignoreCase then set.items.any (·.hasAnyCase (set.items.length == 1) c)
    else set.items.any (·.has c)

namespace Pattern

def wordAt (text : Array Char) (i : Nat) : Bool :=
  match text[i]? with
  | some c => Text.isWord c
  | none => false

/-- Whether exactly one of the characters before and at position `i` is a word character. -/
def boundaryAt (text : Array Char) (i : Nat) : Bool :=
  (0 < i && wordAt text (i - 1)) != wordAt text i

/-- What is left to match from a position on. It gives the position at which the match ends. -/
abbrev Rest := Nat → Option Nat

def exactly (round : Rest → Rest) (rest : Rest) : Nat → Nat → Option Nat
  | 0, i => rest i
  | n + 1, i => round (exactly round rest n) i

/-- At most `n` rounds, many before few, then the rest. A round that takes nothing is the last. -/
def manyThen (round : Rest → Rest) (rest : Rest) : Nat → Nat → Option Nat
  | 0, i => rest i
  | n + 1, i =>
    match round (fun j => if j == i then rest j else manyThen round rest n j) i with
    | some last => some last
    | none => rest i

/-- At most `n` rounds, few before many, then the rest. A round that takes nothing is pointless. -/
def fewThen (round : Rest → Rest) (rest : Rest) : Nat → Nat → Option Nat
  | 0, i => rest i
  | n + 1, i =>
    match rest i with
    | some last => some last
    | none => round (fun j => if j == i then none else fewThen round rest n j) i

/-- The position after exactly `n` rounds that each take what they prefer. -/
def settle (round : Rest) : Nat → Nat → Option Nat
  | 0, i => some i
  | n + 1, i => (round i).bind (settle round n)

/-- The position after as many rounds as there are, but at most `n`, that each take what they
prefer. A round that takes nothing is the last. -/
def settleMany (round : Rest) : Nat → Nat → Nat
  | 0, i => i
  | n + 1, i =>
    match round i with
    | some j => if j == i then i else settleMany round n j
    | none => i

/-- The end of the preferred match that starts at `i` and lets the rest match. The rounds of a
repetition that take something are no more than the characters of the text. -/
def matchFrom (ignoreCase : Bool) (text : Array Char) : Pattern → Rest → Nat → Option Nat
  | .empty, rest, i => rest i
  | .one set, rest, i =>
    match text[i]? with
    | some c => if set.has ignoreCase c then rest (i + 1) else none
    | none => none
  | .start, rest, i => if i == 0 then rest i else none
  | .finish orBreak, rest, i =>
    if i == text.size || (orBreak && i + 1 == text.size && text[i]? == some '\n') then rest i
    else none
  | .boundary negated, rest, i =>
    if text.size != 0 && boundaryAt text i != negated then rest i else none
  | .seq first second, rest, i =>
    first.matchFrom ignoreCase text (second.matchFrom ignoreCase text rest) i
  | .alt left right, rest, i =>
    match left.matchFrom ignoreCase text rest i with
    | some last => some last
    | none => right.matchFrom ignoreCase text rest i
  | .repeated body least most appetite, rest, i =>
    let round := body.matchFrom ignoreCase text
    let further :=
      match most with
      | some most => min (most - least) (text.size + 1)
      | none => text.size + 1
    match appetite with
    | .most => exactly round (manyThen round rest further) least i
    | .fewest => exactly round (fewThen round rest further) least i
    | .all =>
      match settle (round some) least i with
      | some j => rest (settleMany (round some) further j)
      | none => none

end Pattern

/-- Whether the pattern matches somewhere in the text. -/
def NamePattern.occursIn (p : NamePattern) (s : String) : Bool :=
  let text := s.toList.toArray
  (List.range (text.size + 1)).any fun i => (p.pattern.matchFrom p.ignoreCase text some i).isSome

end UncheckedErrors
