import UncheckedErrors.Number.Decimal
import UncheckedErrors.Pattern.Alternatives
import UncheckedErrors.Pattern.Mistake

/-!
# Tokens

The parts that a written pattern is cut into: atoms, brackets, bars and repetitions. A mistake
inside a token ends the tokens.

What is written in a form that is not read (see `Pattern.Parser`) ends the tokens too, but counts as
no mistake.

Places are counted from the end. A backslash that ends the pattern is found as soon as nothing else
is left to read, and so before any mistake in what stands right in front of it.
-/

namespace UncheckedErrors

namespace Pattern

/-- Counts of rounds are below this number. -/
def countLimit : Nat := 4294967295

/-- The parts that a written pattern is cut into. A token that can be out of place says how many
characters are left from its start on. -/
inductive Token where
  | atom (atom : Atom)
  /-- The start of a group; a group that counts stays one part of its sequence. -/
  | opening (counts : Bool) (left : Nat)
  | closing (left : Nat)
  | bar
  /-- What the group of this number has matched; `mistake` is for one that there is not yet. -/
  | reference (group : Nat) (mistake : PatternError)
  /-- A repetition of what comes before. -/
  | times (least : Nat) (most : Option Nat) (appetite : Appetite) (left : Nat)
  /-- What cannot be read; nothing comes after it. -/
  | bad (error : PatternError)
  deriving DecidableEq, Repr

/-- Whether a token opens a group that counts. -/
def Token.isCounting : Token → Bool
  | .opening counts _ => counts
  | _ => false

/-- Whether a token refers to one of the first `groups` groups. -/
def Token.refersTo (groups : Nat) : Token → Bool
  | .reference group _ => group ≤ groups
  | _ => false

/-- The class that a letter after a backslash names. -/
def classOf? : Char → Option CharItem
  | 'd' => some .digit
  | 'D' => some (.other .digit)
  | 'w' => some .word
  | 'W' => some (.other .word)
  | 's' => some .blank
  | 'S' => some (.other .blank)
  | _ => none

/-- The control character that a letter after a backslash names. -/
def controlOf? : Char → Option Char
  | 'a' => some (Char.ofNat 7)
  | 'f' => some (Char.ofNat 12)
  | 'n' => some '\n'
  | 'r' => some '\r'
  | 't' => some '\t'
  | 'v' => some (Char.ofNat 11)
  | _ => none

/-- The assertion that a letter after a backslash names. -/
def assertionOf? : Char → Option Assertion
  | 'b' => some .boundary
  | 'B' => some .noBoundary
  | 'A' => some .first
  | 'Z' => some .last
  | _ => none

/-- A character that stands for itself after a backslash: no ASCII letter or digit. -/
def isPlainEscape (c : Char) : Bool :=
  !c.isAlphanum

/-- The number of a group after a backslash, which has at most two digits, and what follows it. -/
def reference (cs : List Char) : Nat × List Char :=
  let digits := (cs.take 2).takeWhile Char.isDigit
  (Number.ofDigits (digits.map fun c => c.toNat - 48), cs.drop digits.length)

/-- Whether a letter or digit after a backslash writes a character by its code or name. -/
def isCodeEscape (c : Char) : Bool :=
  ['x', 'u', 'U', 'N', '0'].contains c

/-- Whether digits after a backslash are the code of a character: three of them, to base eight. -/
def isOctal (cs : List Char) : Bool :=
  3 ≤ cs.length && (cs.take 3).all fun c => '0' ≤ c && c ≤ '7'

/-- The token of a backslash before `c :: cs`, which write no atom. -/
def escapeToken (c : Char) (cs : List Char) : Token :=
  if isCodeEscape c || isOctal (c :: cs) then .bad .unread
  else if c.isDigit then
    let (group, unread) := reference (c :: cs)
    .reference group (.before unread (.malformed (.invalidReference group) (cs.length + 1)))
  else .bad (.before cs (.malformed (.badEscape c) (cs.length + 2)))

/-- The atom that a backslash and `c` write. -/
def escapeAtom? (c : Char) : Option Atom :=
  match classOf? c, controlOf? c, assertionOf? c with
  | some item, _, _ => some (.one ⟨false, [item]⟩)
  | none, some x, _ => some (.ofChar x)
  | none, none, some a => some (.assertion a)
  | none, none, none => if isPlainEscape c then some (.ofChar c) else none

/-- The member of a set that a backslash and `c` write. -/
def escapeItem? (c : Char) : Option CharItem :=
  match classOf? c, controlOf? c with
  | some item, _ => some item
  | none, some x => some (.char x)
  | none, none =>
    if c == 'b' then some (.char (Char.ofNat 8))
    else if isPlainEscape c then some (.char c)
    else none

/-- The first member written in a set, how it is written, and what follows it. `left` is what is
left from the opening bracket of the set on. -/
def member (left : Nat) : List Char → Except PatternError (CharItem × List Char × List Char)
  | [] => throw (.malformed .unterminatedSet left)
  | ['\\'] => throw .atEnd
  | '\\' :: c :: cs =>
    match escapeItem? c with
    | some item => return (item, ['\\', c], cs)
    | none =>
      if isCodeEscape c || ('1' ≤ c && c ≤ '7') then throw .unread
      else throw (.before cs (.malformed (.badEscape c) (cs.length + 2)))
  | c :: cs => return (.char c, [c], cs)

/-- The range between two members, which are written as `first` and `last`; `unread` follows. -/
def rangeOf (first last unread : List Char) :
    CharItem → CharItem → Except PatternError CharItem
  | .char a, .char b => if b < a then throw error else return .range a b
  | _, _ => throw error
where
  error : PatternError :=
    .before unread
      (.malformed (.badRange first last) (unread.length + last.length + 1 + first.length))

/-- The members of a set up to its closing bracket, and what follows it. A bracket that comes
first is a member. `left` is what is left from the opening bracket on, and the first argument bounds
the number of members. -/
def members (left : Nat) : Nat → Bool → List Char → Except PatternError (List CharItem × List Char)
  | 0, _, _ => throw (.malformed .unterminatedSet left)
  | n + 1, isFirst, cs =>
    match cs, isFirst with
    | ']' :: rest, false => return ([], rest)
    | cs, _ => do
      let (item, first, rest) ← member left cs
      match rest with
      | '-' :: ']' :: rest => return ([item, .char '-'], rest)
      | '-' :: rest =>
        let (lastItem, last, rest) ← member left rest
        let range ← rangeOf first last rest item lastItem
        let (items, rest) ← members left n false rest
        return (range :: items, rest)
      | rest =>
        let (items, rest) ← members left n false rest
        return (item :: items, rest)

/-- A set after its opening bracket, and what follows it. -/
def set (cs : List Char) : Except PatternError (CharSet × List Char) := do
  let (negated, inner) :=
    match cs with
    | '^' :: rest => (true, rest)
    | cs => (false, cs)
  let (items, rest) ← members (cs.length + 1) (inner.length + 1) true inner
  return (⟨negated, items.eraseDups⟩, rest)

/-- The count that a run of ASCII digits writes, or none for an empty run. -/
def count (cs : List Char) : Except PatternError (Option Nat) :=
  if cs.isEmpty then return none
  else if Number.digitLimit < cs.length then throw .countTooLong
  else
    let n := Number.ofDigits (cs.map fun c => c.toNat - 48)
    if n < countLimit then return some n else throw .countTooLarge

/-- The two runs of digits written after an opening brace, and what follows the closing one. A text
that is not of the form `m}`, `m,}`, `,n}` or `m,n}` gives none; `m}` stands for `m,m}`. -/
def bounds? (cs : List Char) : Option (List Char × List Char × List Char) :=
  let first := cs.takeWhile Char.isDigit
  match cs.dropWhile Char.isDigit with
  | '}' :: rest => if first.isEmpty then none else some (first, first, rest)
  | ',' :: tail =>
    match tail.dropWhile Char.isDigit with
    | '}' :: rest => some (first, tail.takeWhile Char.isDigit, rest)
    | _ => none
  | _ => none

/-- The appetite of a repetition from the mark behind it, and what follows. -/
def appetite : List Char → Appetite × List Char
  | '?' :: cs => (.fewest, cs)
  | '+' :: cs => (.all, cs)
  | cs => (.most, cs)

/-- The bounds that two runs of digits write; `left` is what is left from the first one on. -/
def bounds (first last : List Char) (left : Nat) : Except PatternError (Nat × Option Nat) := do
  let least := (← count first).getD 0
  let most ← count last
  if most.any (· < least) then throw (.malformed .boundsReversed left)
  return (least, most)

/-- A token that is found when `unread` is still to be read. -/
def Token.before (unread : List Char) : Except PatternError Token → Token
  | .ok token => if unread == ['\\'] then .bad .atEnd else token
  | .error e => .bad (.before unread e)

/-- The token of a repetition in front of `unread`, which starts with the mark of its appetite, and
what follows that. -/
def timesToken (bounds : Except PatternError (Nat × Option Nat)) (left : Nat)
    (unread : List Char) : Token × List Char :=
  let (appetite, rest) := appetite unread
  (.before unread (bounds.map fun (least, most) => .times least most appetite left), rest)

/-- What stands before the first `>` that has no backslash in front, and what follows. `left` is
what is left where the name begins. -/
def groupName (left : Nat) : List Char → Except PatternError (List Char × List Char)
  | [] => throw (.malformed (if left == 0 then .missingName else .unterminatedName) left)
  | ['\\'] => throw .atEnd
  | '>' :: cs => return ([], cs)
  | '\\' :: c :: cs => do
    let (name, rest) ← groupName left cs
    return ('\\' :: c :: name, rest)
  | c :: cs => do
    let (name, rest) ← groupName left cs
    return (c :: name, rest)

/-- Whether a name can be the name of a group. -/
def isName : List Char → Bool
  | [] => false
  | c :: cs => (c :: cs).all Text.isWord && !Text.isDigit c

/-- What follows the name of a group and the bracket behind it. -/
def afterName (cs : List Char) : Except PatternError (List Char) := do
  let (name, rest) ← groupName cs.length cs
  if name.isEmpty then throw (.before rest (.malformed .missingName (rest.length + 1)))
  else if isName name then return rest
  else throw (.before rest (.malformed (.badName name) (name.length + 1 + rest.length)))

/-- The mistake of a head that goes on with `known` and then `cs`, which means nothing. `left` is
what is left from the question mark on. -/
def headError (known : List Char) (left : Nat) : List Char → PatternError
  | [] => .malformed .headUnfinished 0
  | ['\\'] => .atEnd
  | '\\' :: c :: cs =>
    .before cs (.malformed (.unknownExtension (known ++ ['\\', c])) left)
  | c :: cs => .before cs (.malformed (.unknownExtension (known ++ [c])) left)

/-- Whether a letter is a mark. -/
def isMark (c : Char) : Bool :=
  ['i', 'L', 'm', 's', 'x', 'a', 't', 'u'].contains c

/-- What is wrong with marks that do not stand at the start of a pattern. Marks of a group of their
own, such as `(?i:x)`, are not read. `left` is what is left from the bracket in front of them on. -/
def marksError (left : Nat) : List Char → PatternError
  | [] => .malformed .unfinishedMarks 0
  | ['\\'] => .atEnd
  | '\\' :: _ :: cs => .before cs (.malformed .unfinishedMarks (cs.length + 2))
  | c :: cs =>
    if isMark c then marksError left cs
    else if c == ':' || c == '-' then .unread
    else if c == ')' then .before cs (.malformed .lateMarks left)
    else if Text.isWord c && !Text.isDigit c && c != '_' then
      .before cs (.malformed .unknownMark (cs.length + 1))
    else .before cs (.malformed .unfinishedMarks (cs.length + 1))

/-- Whether a group counts, and what follows its head: `(`, `(?:` or `(?P<name>`, of which the
first bracket is already read. All count but those with the head `(?:`. Of the other heads some mean
something and are not read: references by name, looking ahead or back, groups that keep what they
took, comments, choices by a group, and marks that are taken away. -/
def groupHead : List Char → Except PatternError (Bool × List Char)
  | '?' :: ':' :: cs => return (false, cs)
  | '?' :: 'P' :: '<' :: cs => do return (true, ← afterName cs)
  | '?' :: 'P' :: '=' :: _ => throw .unread
  | '?' :: 'P' :: cs => throw (headError ['P'] (cs.length + 2) cs)
  | '?' :: '<' :: '=' :: _ => throw .unread
  | '?' :: '<' :: '!' :: _ => throw .unread
  | '?' :: '<' :: cs => throw (headError ['<'] (cs.length + 2) cs)
  | '?' :: c :: cs =>
    if ['=', '!', '>', '#', '(', '-'].contains c then throw .unread
    else if isMark c then throw (marksError (cs.length + 3) cs)
    else throw (headError [] (cs.length + 2) (c :: cs))
  | '?' :: [] => throw (headError [] 1 [])
  | cs => return (true, cs)

/-- A token and what follows it; a mistake is followed by nothing. -/
def orBad : Except PatternError (Token × List Char) → Token × List Char
  | .ok found => found
  | .error e => (.bad e, [])

/-- The token at the start of a written pattern, of which `c` is the first character, and what
follows it. -/
def token (c : Char) (cs : List Char) : Token × List Char :=
  let left := cs.length + 1
  match c with
  | '\\' =>
    match cs with
    | [] => (.bad .atEnd, [])
    | c :: rest =>
      match escapeAtom? c with
      | some atom => (.atom atom, rest)
      | none => (escapeToken c rest, [])
  | '[' => orBad ((set cs).map fun (set, rest) => (.atom (.one set), rest))
  | '.' => (.atom .dot, cs)
  | '^' => (.atom (.assertion .caret), cs)
  | '$' => (.atom (.assertion .dollar), cs)
  | '|' => (.bar, cs)
  | ')' => (.closing left, cs)
  | '(' =>
    orBad ((groupHead cs).map fun (counts, rest) =>
      (.before rest (.ok (.opening counts left)), rest))
  | '*' => timesToken (.ok (0, none)) left cs
  | '+' => timesToken (.ok (1, none)) left cs
  | '?' => timesToken (.ok (0, some 1)) left cs
  | '{' =>
    match bounds? cs with
    | some (first, last, rest) => timesToken (bounds first last cs.length) left rest
    | none => (.atom (.ofChar '{'), cs)
  | c => (.atom (.ofChar c), cs)

/-- The tokens of a written pattern, up to the first mistake. The first argument bounds their
number. -/
def tokens : Nat → List Char → List Token
  | 0, _ => []
  | _, [] => []
  | n + 1, c :: cs =>
    match token c cs with
    | (.bad e, _) => [.bad e]
    | (first, rest) => first :: tokens n rest

end Pattern

end UncheckedErrors
