import UncheckedErrors.Pattern.Basic

/-!
# Alternatives

A written pattern is a sequence of atoms, or several such sequences as alternatives. `alternatives`
makes one sequence of them: what they all start with stands in front, and if each of them is a
single character after that, one set takes the place of all.

A letter can mean more on its own than in a set with other members (`CharItem.hasAnyCase`), so the
alternatives `x|y` match what the set `[xy]` matches, and not what `x` and `y` match apart.
-/

namespace UncheckedErrors.Pattern

/-- An assertion as it is written. -/
inductive Assertion where
  /-- Written `^`: the start of the text. -/
  | caret
  /-- Written `$`: the end of the text, or the line feed that ends it. -/
  | dollar
  /-- Written `\A`: the start of the text. -/
  | first
  /-- Written `\Z`: the end of the text. -/
  | last
  /-- Written `\b`: between a word character and something else. -/
  | boundary
  /-- Written `\B`: anywhere else. -/
  | noBoundary
  deriving DecidableEq, Repr

def Assertion.toPattern : Assertion → Pattern
  | .caret | .first => .start
  | .dollar => .finish true
  | .last => .finish false
  | .boundary => .boundary false
  | .noBoundary => .boundary true

inductive Atom where
  /-- One character of a set. -/
  | one (set : CharSet)
  | dot
  | assertion (a : Assertion)
  /-- Anything else: a repetition, a group that counts, or alternatives. -/
  | whole (p : Pattern)
  deriving DecidableEq, Repr

namespace Atom

def ofChar (c : Char) : Atom :=
  .one ⟨false, [.char c]⟩

def toPattern : Atom → Pattern
  | .one set => .one set
  | .dot => .one ⟨true, [.char '\n']⟩
  | .assertion a => a.toPattern
  | .whole p => p

/-- Whether two atoms are known to be the same. Only single characters and assertions are
compared. -/
def same : Atom → Atom → Bool
  | .whole _, _ => false
  | a, b => a == b

/-- The members of the set, for a character of a set that is no complement. -/
def items? : Atom → Option (List CharItem)
  | .one ⟨false, items⟩ => some items
  | _ => none

end Atom

/-- Atoms one after the other. -/
def ofAtoms : List Atom → Pattern
  | [] => .empty
  | [atom] => atom.toPattern
  | atom :: atoms => .seq atom.toPattern (ofAtoms atoms)

/-- The atoms that `first` and all of `others` start with, and what follows them in each. -/
def splitLead : List Atom → List (List Atom) → List Atom × List (List Atom)
  | [], others => ([], [] :: others)
  | atom :: first, others =>
    if others.all (·.head?.any atom.same) then
      let (lead, rest) := splitLead first (others.map List.tail)
      (atom :: lead, rest)
    else ([], (atom :: first) :: others)

/-- The members of the set that stands for sequences of one character each. -/
def setItems? (sequences : List (List Atom)) : Option (List CharItem) := do
  let items ← sequences.mapM fun sequence =>
    match sequence with
    | [atom] => atom.items?
    | _ => none
  return items.flatten.eraseDups

/-- The first of some sequences that matches. -/
def firstOf : List (List Atom) → Pattern
  | [] => .empty
  | [atoms] => ofAtoms atoms
  | atoms :: sequences => .alt (ofAtoms atoms) (firstOf sequences)

/-- The one sequence that stands for some alternatives. -/
def alternatives : List (List Atom) → List Atom
  | [] => []
  | [only] => only
  | first :: others =>
    let (lead, rest) := splitLead first others
    match setItems? rest with
    | some items => lead ++ [.one ⟨false, items⟩]
    | none => lead ++ [.whole (firstOf rest)]

end UncheckedErrors.Pattern
