import UncheckedErrors.CommandLine.Arguments
import UncheckedErrors.Exclusion.Index
import UncheckedErrors.Load
import UncheckedErrors.Run

/-!
# Sessions

A session is everything that happens for one command line: what is printed, what is noticed on the
way, and the exit status. It runs in this order and ends at the first failure:

1. the rules of the command line and of the exclusion file are collected;
2. the program is loaded;
3. the patterns of the rules are read;
4. the packages are checked, and the findings printed.

Patterns are read by a library that is not part of the tool, and a stack has room for so many open
calls only. So a session is one for a `PatternLibrary` and for a number of steps that each task has
at hand.
-/

namespace UncheckedErrors.CommandLine

/-! ## Lists in option values -/

/-- The items between commas that are not empty. -/
def items (cs : List Char) : List (List Char) :=
  (Text.splitAtChar (· == ',') cs).filter (!·.isEmpty)

/-- The rule that an item writes: package and pattern stand before and after its first colon, and an
item without one is a pattern for every package. -/
def ruleOf (item : List Char) : String × String :=
  match item.dropWhile (· != ':') with
  | [] => ("", String.ofList item)
  | _ :: pattern => (String.ofList (item.takeWhile (· != ':')), String.ofList pattern)

/-- The patterns by package; the last pattern of a package counts. -/
def parseIgnore (spec : String) : OrderedMap String String :=
  OrderedMap.empty.insertAll ((items spec.toList).map ruleOf)

/-- The tags between commas and blanks. -/
def splitTags (spec : String) : List String :=
  ((Text.splitAtChar (fun c => c == ',' || Text.isBlank c) spec.toList).filter
    (!·.isEmpty)).map String.ofList

/-- The items of a list. -/
def splitList (spec : String) : List String := (items spec.toList).map String.ofList

/-! ## Sessions -/

/-- What a session leaves behind. -/
structure Session where
  /-- The lines printed. -/
  output : List String := []
  /-- What was noticed, first to last. -/
  notices : List Notice := []
  exitCode : Nat := 0

namespace Session

/-- The session in which something was noticed first. -/
def following (notices : List Notice) (session : Session) : Session :=
  { session with notices := notices ++ session.notices }

/-- The session that a failure ends. A fault that is not fatal is no more than noticed. -/
def ofFailure : Failure → Session
  | .fault f =>
    if f.fatal then { notices := [.failed f.describe], exitCode := Outcome.fatal.exitCode }
    else { notices := [.tolerated f.describe], exitCode := Outcome.clean.exitCode }
  | .undecodable | .notAPath | .countTooLarge | .countTooLong | .tooDeep | .badJobs | .noTags =>
    { notices := [.failed "Unhandled exception"], exitCode := Outcome.fatal.exitCode }

end Session

namespace Options

/-- The rules of a command line, without those of the exclusion file. -/
def exclusions (options : Options) : Exclusions where
  packages := splitList options.ignorePkg
  patterns := parseIgnore options.ignore
  testFiles := !options.ignoreTests
  generatedFiles := !options.ignoreGenerated
  blankAssignments := options.blank
  typeAssertions := options.asserts
  disableDefaults := options.excludeOnly

/-- What to load. It fails without build tags if their switch is used. -/
def loadConfig (options : Options) : Except Failure LoadConfig := do
  let some tags := options.tags | throw .noTags
  return {
    patterns := if options.patterns.isEmpty then ["./..."] else options.patterns
    tags := splitTags tags
    mod := options.mod
    tests := !options.ignoreTests }

/-- The switches in use that will go away. -/
def deprecations (options : Options) : List Notice :=
  (if options.ignore.isEmpty then [] else [.deprecated "--ignore"]) ++
    if options.ignorePkg.isEmpty then [] else [.deprecated "--ignorepkg"]

/-- The name of the file of a finding: absolute if asked for, and otherwise as seen from the working
directory unless it is relative already. -/
def shownName (options : Options) (disk : Disk) (name : String) : String :=
  if options.absPath then disk.absolute name
  else if (Path.ofString name).isAbsolute then disk.relative name
  else name

/-- A finding as it is printed. -/
def shown (options : Options) (disk : Disk) (d : Diagnostic) : String :=
  options.shownName disk d.position.filename ++ ":" ++ toString d.position.line ++ ":" ++
    toString d.position.column ++ "\t" ++ d.line ++
    if 0 < options.verbosity && !d.funcName.isEmpty then "\t" ++ d.funcName else ""

/-- The findings of a program. -/
def report (options : Options) (disk : Disk) (program : Program) (results : RunResults) :
    Session where
  output := results.diagnostics.map (options.shown disk)
  notices := Checker.notices program results ++ [.summary results.summary]
  exitCode := results.outcome.exitCode

/-- Checks a program that is loaded. -/
def checkProgram (options : Options) (disk : Disk) (exclusions : Exclusions) (program : Program)
    (library : PatternLibrary) (steps : Nat) : Session :=
  match Checker.ofExclusions exclusions library with
  | .error failure => .ofFailure failure
  | .ok checker =>
    match checker.run options.jobs program steps with
    | .error failure => .ofFailure failure
    | .ok results => options.report disk program results

/-- Loads a program and checks it. -/
def loadAndCheck (options : Options) (disk : Disk) (exclusions : Exclusions)
    (library : PatternLibrary) (steps : Nat) : Session :=
  match options.loadConfig with
  | .error failure => .ofFailure failure
  | .ok config =>
    let loaded := loadFile disk config (.ofString options.dump)
    .following loaded.notices <|
      match loaded.outcome with
      | .error failure => .ofFailure failure
      | .ok program => options.checkProgram disk exclusions program library steps

/-- The session that the options ask for. -/
def session (options : Options) (disk : Disk) (library : PatternLibrary := .names)
    (steps : Nat := Checker.taskSteps) : Session :=
  .following options.deprecations <|
    if options.exclude.isEmpty then options.loadAndCheck disk options.exclusions library steps
    else
      let path := Path.ofString options.exclude
      match readExcludes disk path with
      | .error failure => .ofFailure failure
      | .ok symbols =>
        .following [excludesNotice path symbols] <|
          options.loadAndCheck disk { options.exclusions with symbols } library steps

/-- The least level that is shown. -/
def level (options : Options) : Level :=
  match options.verbosity with
  | 0 => .warning
  | 1 => .info
  | _ => .debug

end Options

/-! ## Texts -/

/-- The name of the tool. -/
def toolName : String := "goerrcheck"

/-- The version of the tool. -/
def toolVersion : String := "0.1.0"

/-- The channels as notices name them. -/
def channelName : Channel → String
  | .tool => toolName
  | .loader => toolName ++ ".loader"
  | .embedded => toolName ++ ".embedded"
  | .exclusions => toolName ++ ".exclusions"
  | .checker => toolName ++ ".checker"

/-- The levels as notices name them, five characters wide. -/
def levelName : Level → String
  | .debug => "DEBUG"
  | .info => "INFO "
  | .warning => "WARNI"
  | .error => "ERROR"

/-- A notice as it is written. -/
def noticeText (notice : Notice) : String :=
  "[" ++ levelName notice.level ++ "] " ++ channelName notice.channel ++ ": " ++ notice.text

/-- The notices that are shown, as they are written. -/
def noticeTexts (options : Options) (session : Session) : List String :=
  (session.notices.filter fun notice => options.level.rank ≤ notice.level.rank).map noticeText

namespace Stop

/-- A short help. -/
def usage : String :=
  "usage: " ++ toolName ++ " [switch ...] DUMP [PACKAGE ...]\nswitches: " ++
    " ".intercalate (spellings.map (·.1))

/-- The lines printed. -/
def output : Stop → List String
  | .help => [usage]
  | .version => [toolName ++ " " ++ toolVersion]
  | .misuse _ => []

/-- The lines of the complaint. -/
def complaint : Stop → List String
  | .help | .version => []
  | .misuse cause => [toolName ++ ": error: " ++ cause.message]

/-- The exit status. -/
def exitCode : Stop → Nat
  | .help | .version => 0
  | .misuse _ => 2

end Stop

end UncheckedErrors.CommandLine
