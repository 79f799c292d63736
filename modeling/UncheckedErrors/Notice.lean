import UncheckedErrors.GoType.Basic
import UncheckedErrors.Text.Quoted

/-!
# Notices

What a run reports on the side: how far it got and what it left out. Each notice has a level and a
channel, the part of the tool it comes from.
-/

namespace UncheckedErrors

/-- How important a notice is. -/
inductive Level where
  | debug | info | warning | error
  deriving DecidableEq, Repr

/-- More important levels have higher ranks. -/
def Level.rank : Level → Nat
  | .debug => 0
  | .info => 1
  | .warning => 2
  | .error => 3

/-- The part of the tool a notice comes from. -/
inductive Channel where
  | tool | loader | embedded | exclusions | checker
  deriving DecidableEq, Repr

inductive Notice where
  /-- A named type is mentioned and never defined. -/
  | undefinedType (name : TypeName)
  | dumpRead (packages types : Nat) (filename : String)
  /-- A file was left out because of its build tags. -/
  | excludedByTags (filename : String) (tags : List String)
  | noSourceFiles (path : String)
  | unmatchedPattern (pattern : String)
  | loaded (packages : Nat)
  /-- The index path of a selection leads through a type that is no struct. -/
  | throughNonStruct (type : GoType)
  /-- An interface does not have a selected method. -/
  | undeclared (start : GoType) (method : String)
  | excludesRead (count : Nat) (path : String)
  | checked (packages errors : Nat)
  /-- An option that will go away was used. -/
  | deprecated (option : String)
  | summary (text : String)
  /-- A fault that does not end the run. -/
  | tolerated (text : String)
  | failed (text : String)

namespace Notice

def level : Notice → Level
  | .undefinedType _ | .dumpRead .. | .excludedByTags .. | .throughNonStruct _ | .undeclared ..
  | .excludesRead .. => .debug
  | .loaded _ | .checked .. | .summary _ => .info
  | .noSourceFiles _ | .unmatchedPattern _ | .deprecated _ | .tolerated _ => .warning
  | .failed _ => .error

def channel : Notice → Channel
  | .undefinedType _ | .dumpRead .. | .excludedByTags .. | .noSourceFiles _ | .unmatchedPattern _
  | .loaded _ => .loader
  | .throughNonStruct _ | .undeclared .. => .embedded
  | .excludesRead .. => .exclusions
  | .checked .. => .checker
  | .deprecated _ | .summary _ | .tolerated _ | .failed _ => .tool

def text : Notice → String
  | .undefinedType name => "named type " ++ name.text ++ " has no typedef"
  | .dumpRead packages types filename =>
    "read " ++ toString packages ++ " packages, " ++ toString types ++ " named types from " ++
      filename
  | .excludedByTags filename tags =>
    filename ++ ": excluded by build tags " ++ Text.quotedGroup tags
  | .noSourceFiles path => "package " ++ path ++ " contains no go source files"
  | .unmatchedPattern pattern => "pattern " ++ pattern ++ " matched no packages"
  | .loaded packages => "loaded " ++ toString packages ++ " packages"
  | .throughNonStruct type => "selection index walks through non-struct " ++ type.text
  | .undeclared start method => "no interface in " ++ start.text ++ " declares " ++ method
  | .excludesRead count path => "read " ++ toString count ++ " exclusions from " ++ path
  | .checked packages errors =>
    "checked " ++ toString packages ++ " packages, " ++ toString errors ++ " unchecked errors"
  | .deprecated option => option ++ " is deprecated; use --exclude instead"
  | .summary text | .tolerated text | .failed text => text

end Notice

end UncheckedErrors
