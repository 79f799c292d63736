import UncheckedErrors.Pattern.Token

/-!
# Written patterns

The written form of patterns: characters, `.`, `^`, `$`, sets in brackets, the classes `\d`, `\w`
and `\s` and their complements, the assertions `\b`, `\B`, `\A` and `\Z`, the repetitions `*`, `+`,
`?` and `{m,n}`, perhaps with a mark `?` or `+` for their appetite, alternatives, groups, and a
leading `(?i)` that ignores letter case.

The language of patterns has more forms than these: characters given by their codes or names,
references to groups, looking ahead and back, groups that keep what they took, comments, choices by
a group, and other marks than a leading `(?i)`. A text that uses one of them is not read
(`PatternError.unread`), which says nothing about whether it is a pattern.

A stack of open groups takes the tokens of a text one by one. Of several mistakes the first one that
is met counts.
-/

namespace UncheckedErrors

namespace Pattern

/-- Groups may be nested this deep: a stack has room for a thousand calls, and each group takes two
of them. -/
def groupLimit : Nat := 490

/-- Atoms that are repeated together, if they may be repeated: an assertion and a repetition may
not. -/
structure Part where
  atoms : List Atom
  repeatable : Bool

/-- The part that a single atom is. -/
def Part.ofAtom : Atom → Part
  | .assertion a => ⟨[.assertion a], false⟩
  | atom => ⟨[atom], true⟩

/-- An open group: whether it counts, what is left from its opening bracket on, the alternatives
that are complete, last first, and the parts of the one being read, last first. -/
structure Group where
  counts : Bool
  left : Nat
  done : List (List Atom)
  parts : List Part

namespace Group

/-- A group in which nothing is read. -/
def opened (counts : Bool) (left : Nat) : Group :=
  ⟨counts, left, [], []⟩

/-- The alternative being read. -/
def current (group : Group) : List Atom :=
  group.parts.reverse.flatMap (·.atoms)

/-- Everything read so far as one sequence. -/
def toAtoms (group : Group) : List Atom :=
  alternatives (group.current :: group.done).reverse

/-- The part that a group is in the sequence around it. -/
def toPart (group : Group) : Part :=
  ⟨if group.counts then [.whole (ofAtoms group.toAtoms)] else group.toAtoms, true⟩

/-- The group with one more part. -/
def push (group : Group) (part : Part) : Group :=
  { group with parts := part :: group.parts }

/-- The group with its last part repeated. -/
def repeatLast (group : Group) (least : Nat) (most : Option Nat) (appetite : Appetite) :
    Except Mistake Group :=
  match group.parts with
  | ⟨atoms, true⟩ :: parts =>
    let repetition : Atom := .whole (.repeated (ofAtoms atoms) least most appetite)
    return { group with parts := ⟨[repetition], false⟩ :: parts }
  | ⟨[.assertion _], false⟩ :: _ => throw .nothingToRepeat
  | _ :: _ => throw .multipleRepeat
  | [] => throw .nothingToRepeat

/-- Takes one token with `group` as the innermost of the open groups. -/
def take (group : Group) (outer : List Group) : Token → Except PatternError (Group × List Group)
  | .atom atom => return (group.push (.ofAtom atom), outer)
  | .opening counts left =>
    if groupLimit ≤ outer.length then throw .tooDeep
    else return (.opened counts left, group :: outer)
  | .closing left =>
    match outer with
    | [] => throw (.malformed .unbalanced left)
    | parent :: outer => return (parent.push group.toPart, outer)
  | .bar => return ({ group with done := group.current :: group.done, parts := [] }, outer)
  | .times least most appetite left => do
    let group ← (group.repeatLast least most appetite).mapError (.malformed · left)
    return (group, outer)
  | .reference _ error | .bad error => throw error

/-- Takes the tokens one by one; at the end no group may be open. `groups` is the number of groups
that count so far: a reference to one of them is not read. -/
def takeAll (group : Group) (outer : List Group) (groups : Nat) :
    List Token → Except PatternError Pattern
  | [] =>
    if outer.isEmpty then return ofAtoms group.toAtoms
    else throw (.malformed .unterminatedGroup group.left)
  | token :: tokens => do
    if token.refersTo groups then throw .unread
    let (group, outer) ← group.take outer token
    group.takeAll outer (if token.isCounting then groups + 1 else groups) tokens

end Group

/-- The pattern that the characters write. -/
def parse (cs : List Char) : Except PatternError Pattern :=
  (Group.opened false cs.length).takeAll [] 0 (tokens cs.length cs)

end Pattern

/-- What follows letters `i` and a closing bracket. -/
def NamePattern.afterMarks? : List Char → Option (List Char)
  | 'i' :: cs => afterMarks? cs
  | ')' :: cs => some cs
  | _ => none

/-- Whether the mark `(?i)` stands in front, and what follows it. It may be repeated, and the letter
in it too. The first argument bounds the number of repetitions. -/
def NamePattern.splitMarks : Nat → List Char → Bool × List Char
  | n + 1, '(' :: '?' :: 'i' :: cs =>
    match afterMarks? cs with
    | some rest => (true, (splitMarks n rest).2)
    | none => (false, '(' :: '?' :: 'i' :: cs)
  | _, cs => (false, cs)

/-- Whether other marks than `(?i)` stand in front. -/
def NamePattern.hasOtherMarks : List Char → Bool
  | '(' :: '?' :: c :: cs => Pattern.isMark c && (cs.dropWhile Pattern.isMark).head? == some ')'
  | _ => false

/-- The pattern that a text writes. -/
def NamePattern.parse (s : String) : Except PatternError NamePattern :=
  let (ignoreCase, cs) := splitMarks s.length s.toList
  if hasOtherMarks cs then throw .unread else (Pattern.parse cs).map (⟨·, ignoreCase⟩)

end UncheckedErrors
