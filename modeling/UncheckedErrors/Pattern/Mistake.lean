import UncheckedErrors.Text.Quoted

/-!
# Mistakes in written patterns

What can be wrong with a written pattern, and how it is put into words. A mistake has a place, which
is given by what is left of the pattern from there on.
-/

namespace UncheckedErrors

inductive Mistake where
  | unterminatedSet
  /-- A range whose ends, as they are written, are not two characters in order. -/
  | badRange (first last : List Char)
  | badEscape (c : Char)
  | escapeAtEnd
  /-- The number of a group that there is not yet. -/
  | invalidReference (group : Nat)
  | nothingToRepeat
  | multipleRepeat
  | boundsReversed
  | headUnfinished
  | unknownExtension (head : List Char)
  | missingName
  | unterminatedName
  | badName (name : List Char)
  | unterminatedGroup
  | unbalanced
  /-- Marks such as `(?i)` behind the start of the pattern. -/
  | lateMarks
  | unknownMark
  | unfinishedMarks
  deriving DecidableEq, Repr

def Mistake.text : Mistake → String
  | .unterminatedSet => "unterminated character set"
  | .badRange first last =>
    "bad character range " ++ String.ofList first ++ "-" ++ String.ofList last
  | .badEscape c => "bad escape " ++ String.ofList ['\\', c]
  | .escapeAtEnd => "bad escape (end of pattern)"
  | .invalidReference group => "invalid group reference " ++ toString group
  | .nothingToRepeat => "nothing to repeat"
  | .multipleRepeat => "multiple repeat"
  | .boundsReversed => "min repeat greater than max repeat"
  | .headUnfinished => "unexpected end of pattern"
  | .unknownExtension head => "unknown extension ?" ++ String.ofList head
  | .missingName => "missing group name"
  | .unterminatedName => "missing >, unterminated name"
  | .badName name => "bad character in group name " ++ Text.quoted (String.ofList name)
  | .unterminatedGroup => "missing ), unterminated subpattern"
  | .unbalanced => "unbalanced parenthesis"
  | .lateMarks => "global flags not at the start of the expression"
  | .unknownMark => "unknown flag"
  | .unfinishedMarks => "missing -, : or )"

/-- The place in a pattern from which `left` characters are left: the number of characters before
it, and if the pattern has several lines, also its line and column. -/
def placeText (pattern : List Char) (left : Nat) : String :=
  let before := pattern.take (pattern.length - left)
  let column := (before.reverse.takeWhile (· != '\n')).length + 1
  "position " ++ toString before.length ++
    if pattern.contains '\n' then
      " (line " ++ toString (before.count '\n' + 1) ++ ", column " ++ toString column ++ ")"
    else ""

/-- Why a text is not read as a pattern. -/
inductive PatternError where
  /-- A mistake, and how many characters are left from its place on. -/
  | malformed (mistake : Mistake) (left : Nat)
  | countTooLarge
  | countTooLong
  | tooDeep
  /-- The text may be a pattern, in a form that is not read. -/
  | unread
  deriving DecidableEq, Repr

namespace PatternError

def atEnd : PatternError :=
  .malformed .escapeAtEnd 1

/-- The error that is found when `unread` is still to be read. A backslash that is all of it is
found first. -/
def before (unread : List Char) (error : PatternError) : PatternError :=
  if unread == ['\\'] then atEnd else error

end PatternError

end UncheckedErrors
