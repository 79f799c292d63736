import UncheckedErrors.Disk
import UncheckedErrors.Text.Quoted

/-!
# Faults

What a run can fail with. A fault has a message, a code and perhaps a hint; the code says in which
phase of the run the fault lies and whether it ends the run.

`Failure` adds what is no fault of the tool's own: a file that is not UTF-8, a path that is none, a
count in a pattern that goes beyond what can be matched, something nested too deeply for the stack,
a number of jobs that is not positive, and build tags that are not given.
-/

namespace UncheckedErrors

inductive Phase where
  | load | config | check | internal
  deriving DecidableEq, Repr

structure ErrorCode where
  family : String
  number : Int
  phase : Phase
  fatal : Bool
  deriving DecidableEq, Repr

namespace ErrorCode

def own (number : Int) (phase : Phase) (fatal : Bool) : ErrorCode :=
  ⟨"ERRCHECK", number, phase, fatal⟩

def loadFailed : ErrorCode := own 1000 .load true
def dumpSyntax : ErrorCode := own 1001 .load true
def typeCheckFailed : ErrorCode := own 1002 .load true
def moduleModeMismatch : ErrorCode := own 1003 .load true
def noSourceFiles : ErrorCode := own 1004 .load false
def excludeFile : ErrorCode := own 2000 .config true
def invalidPattern : ErrorCode := own 2001 .config true
def internalError : ErrorCode := own 9000 .internal true

/-- A number with zeros in front, four characters wide with its sign. -/
def fourDigits (n : Int) : String :=
  let digits := toString n.natAbs
  let sign := if n < 0 then "-" else ""
  sign ++ String.ofList (List.replicate (4 - (sign.length + digits.length)) '0') ++ digits

def text (code : ErrorCode) : String := code.family ++ "-" ++ fourDigits code.number

/-- Whether two codes are the same: phase and severity follow from the number. -/
def same (a b : ErrorCode) : Bool := a.family == b.family && a.number == b.number

end ErrorCode

inductive FaultKind where
  | general | load | dumpSyntax | moduleMode | noSourceFiles | excludeFile | invalidPattern
  deriving DecidableEq, Repr

namespace FaultKind

def defaultCode : FaultKind → ErrorCode
  | .general => .internalError
  | .load => .loadFailed
  | .dumpSyntax => .dumpSyntax
  | .moduleMode => .moduleModeMismatch
  | .noSourceFiles => .noSourceFiles
  | .excludeFile => .excludeFile
  | .invalidPattern => .invalidPattern

/-- Whether a fault means that the program could not be loaded. -/
def isLoad : FaultKind → Bool
  | .load | .dumpSyntax | .moduleMode => true
  | .general | .noSourceFiles | .excludeFile | .invalidPattern => false

end FaultKind

/-- A fault. Lists nested too deeply to be read have no message. -/
structure Fault where
  kind : FaultKind
  message : Option String
  code : ErrorCode
  hint : String
  deriving DecidableEq, Repr

namespace Fault

def ofKind (kind : FaultKind) (message : String) : Fault :=
  ⟨kind, some message, kind.defaultCode, ""⟩

/-- A dump that is not well-formed; the name of the dump stands in front. -/
def dumpSyntax (filename message : String) : Fault :=
  .ofKind .dumpSyntax (if filename.isEmpty then message else filename ++ ": " ++ message)

def moduleMode (requested actual : String) : Fault where
  kind := .moduleMode
  message := some ("dump was loaded with -mod=" ++
    (if actual.isEmpty then "(default)" else actual) ++
    ", but -mod=" ++ requested ++ " was requested")
  code := .moduleModeMismatch
  hint := "regenerate the dump with the requested module mode"

def noSourceFiles (path : String) : Fault :=
  .ofKind .noSourceFiles ("package " ++ path ++ " contains no go source files")

def unreadableDump (path : Path) (reason : FileError) : Fault :=
  .ofKind .load ("could not read dump " ++ path.text ++ ": " ++ reason.text)

def unreadableSource (path : Path) (reason : FileError) : Fault :=
  .ofKind .load ("could not read source " ++ path.text ++ ": " ++ reason.text)

def unreadableExcludes (path : Path) (reason : FileError) : Fault :=
  .ofKind .excludeFile ("could not read exclude file " ++ path.text ++ ": " ++ reason.text)

def typeErrors (path : String) (errors : List String) : Fault :=
  { Fault.ofKind .load ("package " ++ path ++ " has errors: " ++ "; ".intercalate errors) with
    code := .typeCheckFailed }

/-- A rule with its pattern, as messages name it; an empty key stands for every package. -/
def ruleText (key pattern : String) : String :=
  (if key.isEmpty then "unqualified" else "package " ++ key) ++ " ignore pattern " ++
    Text.quoted pattern

def invalidPattern (key pattern reason : String) : Fault :=
  .ofKind .invalidPattern ("invalid " ++ ruleText key pattern ++ ": " ++ reason)

/-- A pattern that may be right but cannot be read here. -/
def unreadPattern (key pattern : String) : Fault :=
  .ofKind .general ("cannot read " ++ ruleText key pattern)

def fatal (f : Fault) : Bool := f.code.fatal

def describe (f : Fault) : String :=
  "[" ++ f.code.text ++ "] " ++ f.message.getD "" ++
    if f.hint.isEmpty then "" else " (hint: " ++ f.hint ++ ")"

end Fault

/-- What ends a run early. -/
inductive Failure where
  | fault (fault : Fault)
  | undecodable
  /-- A path holds the character U+0000. -/
  | notAPath
  | countTooLarge
  /-- A count has more digits than are read. -/
  | countTooLong
  /-- Calls are nested beyond what the stack has room for. -/
  | tooDeep
  | badJobs
  /-- Build tags are asked for, and none are given. -/
  | noTags
  deriving DecidableEq, Repr

/-- The failure of a pattern whose groups are nested too deeply. -/
@[match_pattern]
def Failure.patternTooDeep : Failure := .tooDeep

/-- The failure of a file: a fault, unless the path is none, or the file is there and is not
UTF-8. -/
def Failure.ofFile (fault : FileError → Fault) : FileError → Failure
  | .undecodable => .undecodable
  | .notAPath => .notAPath
  | reason => .fault (fault reason)

end UncheckedErrors
