import UncheckedErrors.Pattern.Parser

/-!
# Pattern libraries

What the rules of a configuration ask of regular expressions: a library reads the pattern of a rule
and gives a test of names, or says why there is none. It is asked with the package of the rule, so a
pattern that was compiled beforehand is one that the library has a test for under this package.

`PatternLibrary.names` is the library of the patterns of this project (`NamePattern`). It reads a
part of the language of patterns only, and fails with `PatternFailure.unread` on what goes beyond.
-/

namespace UncheckedErrors

/-- A test that a name passes or not. -/
abbrev NameTest := String → Bool

/-- The test of the pattern `.*`, which every name passes (`PatternLibrary.names_everything`). -/
def NameTest.everything : NameTest := fun _ => true

/-- Why a library gives no test for a pattern. -/
inductive PatternFailure where
  /-- The pattern is none; the mistake is told in words. -/
  | malformed (mistake : String)
  | countTooLarge
  /-- A value in the pattern cannot be used, such as a count with too many digits. -/
  | countTooLong
  | tooDeep
  /-- The pattern goes beyond what the library reads. -/
  | unread
  deriving DecidableEq, Repr

/-- A reader of patterns. -/
structure PatternLibrary where
  /-- The test that the pattern of the rule `key` stands for. -/
  read (key pattern : String) : Except PatternFailure NameTest

/-- The failure that an error in a pattern leads to. -/
def PatternError.failure (pattern : String) : PatternError → PatternFailure
  | .malformed mistake left => .malformed (mistake.text ++ " at " ++ placeText pattern.toList left)
  | .countTooLarge => .countTooLarge
  | .countTooLong => .countTooLong
  | .tooDeep => .tooDeep
  | .unread => .unread

/-- The library of name patterns. -/
def PatternLibrary.names : PatternLibrary where
  read _ pattern :=
    match NamePattern.parse pattern with
    | .ok p => .ok p.occursIn
    | .error e => .error (e.failure pattern)

end UncheckedErrors
