import UncheckedErrors.Load
import UncheckedErrors.Number.Decimal
import UncheckedErrors.Text.Quoted

/-!
# Arguments

The arguments of a run are a dump, patterns of packages, and switches in between.

* A long switch may be abbreviated as long as only one spelling fits. Its value is the next argument
  or follows a `=`.
* Short switches may share one dash; the value of the last one may follow at once. A `=` may stand
  after the first of them.
* A number below zero is never a switch, nor is anything after `--`.
* A value that is written in the same argument and reads `--` is withheld: the switch counts as used
  and has no value.
* Operands are the arguments left over. The first of them is the dump, and those that follow it
  without a switch in between are the patterns.

Arguments are first read one by one (`classifyAll`), so that an ambiguous abbreviation counts before
anything else, and then carried out from left to right (`carryOut`).
-/

namespace UncheckedErrors.CommandLine

/-! ## Switches -/

/-- A switch. -/
inductive Switch where
  | help | version | verbose | blank | asserts | exclude | excludeOnly | ignore | ignorePkg
  | ignoreTests | ignoreGenerated | tags | mod | jobs | absPath
  deriving DecidableEq, Repr

/-- Every spelling with its switch. Candidates for an abbreviation are listed in this order. -/
def spellings : List (String × Switch) := [
  ("-h", .help), ("--help", .help), ("--version", .version), ("-v", .verbose),
  ("--verbose", .verbose), ("--blank", .blank), ("--asserts", .asserts), ("--exclude", .exclude),
  ("--excludeonly", .excludeOnly), ("--ignore", .ignore), ("--ignorepkg", .ignorePkg),
  ("--ignoretests", .ignoreTests), ("--ignoregenerated", .ignoreGenerated), ("--tags", .tags),
  ("--mod", .mod), ("-j", .jobs), ("--jobs", .jobs), ("--abspath", .absPath)]

namespace Switch

/-- The switch with a spelling. -/
def ofSpelling? (s : String) : Option Switch := spellings.lookup s

/-- The switch whose spelling is a dash and one letter. -/
def ofLetter? (c : Char) : Option Switch := ofSpelling? (String.ofList ['-', c])

/-- All spellings of a switch, as messages name it. -/
def title (s : Switch) : String :=
  "/".intercalate ((spellings.filter (·.2 == s)).map (·.1))

/-- Whether a switch takes a value. -/
def takesValue : Switch → Bool
  | .exclude | .ignore | .ignorePkg | .tags | .mod | .jobs => true
  | .help | .version | .verbose | .blank | .asserts | .excludeOnly | .ignoreTests
  | .ignoreGenerated | .absPath => false

end Switch

/-! ## Misuse -/

/-- How a command line can be wrong. -/
inductive Misuse where
  | ambiguous (argument : String) (candidates : List String)
  | missingValue (s : Switch)
  | unwantedValue (s : Switch) (value : String)
  | invalidInt (s : Switch) (value : String)
  | missingOperands
  | unrecognized (arguments : List String)
  deriving DecidableEq, Repr

/-- The text of a misuse. -/
def Misuse.message : Misuse → String
  | .ambiguous argument candidates =>
    "ambiguous option: " ++ argument ++ " could match " ++ ", ".intercalate candidates
  | .missingValue s => "argument " ++ s.title ++ ": expected one argument"
  | .unwantedValue s value =>
    "argument " ++ s.title ++ ": ignored explicit argument " ++ Text.quoted value
  | .invalidInt s value => "argument " ++ s.title ++ ": invalid int value: " ++ Text.quoted value
  | .missingOperands => "the following arguments are required: DUMP, PACKAGE"
  | .unrecognized arguments => "unrecognized arguments: " ++ " ".intercalate arguments

/-- What ends a run before it begins. -/
inductive Stop where
  | help
  | version
  | misuse (cause : Misuse)
  deriving DecidableEq, Repr

/-- What a command line asks for. -/
structure Options where
  dump : String := ""
  patterns : List String := []
  verbosity : Nat := 0
  blank : Bool := false
  asserts : Bool := false
  exclude : String := ""
  excludeOnly : Bool := false
  ignore : String := ""
  ignorePkg : String := ""
  ignoreTests : Bool := false
  ignoreGenerated : Bool := false
  /-- The build tags; none if the switch is used and its value withheld. -/
  tags : Option String := some ""
  mod : ModuleRequest := .any
  jobs : Option Int := none
  absPath : Bool := false
  deriving DecidableEq, Repr

/-! ## Single arguments -/

/-- An argument as it reads on its own. -/
inductive Argument where
  /-- An operand or the value of a switch. -/
  | plain (text : String)
  /-- The argument `--`. -/
  | separator
  /-- A switch and what is written in the same argument. -/
  | switch (s : Switch) (long : Bool) (attached : Option (List Char))
  | unknown (text : String)
  deriving DecidableEq, Repr

/-- The value after the first `=`. -/
def valueAfterEquals? (cs : List Char) : Option (List Char) :=
  match cs.dropWhile (· != '=') with
  | [] => none
  | _ :: value => some value

/-- Whether an argument is a number below zero. A line feed at its end does not count. -/
def isNegativeNumber (cs : List Char) : Bool :=
  let cs := if cs.getLast? == some '\n' then cs.dropLast else cs
  match cs with
  | '-' :: digits =>
    match digits.dropWhile Text.isDigit with
    | [] => !digits.isEmpty
    | '.' :: fraction => !fraction.isEmpty && fraction.all Text.isDigit
    | _ => false
  | _ => false

/-- Reads an argument that starts with a dash and fits no switch. -/
def classifyUnknown (s : String) : Argument :=
  if isNegativeNumber s.toList || s.contains ' ' then .plain s else .unknown s

/-- Reads an argument that starts with two dashes and is no spelling. -/
def classifyLong (s : String) : Except Misuse Argument :=
  let name := s.toList.takeWhile (· != '=')
  match spellings.filter (name.isPrefixOf ·.1.toList) with
  | [] => .ok (classifyUnknown s)
  | [(_, switch)] => .ok (.switch switch true (valueAfterEquals? s.toList))
  | candidates => .error (.ambiguous s (candidates.map (·.1)))

/-- Reads an argument. -/
def classify (s : String) : Except Misuse Argument :=
  match s.toList with
  | '-' :: '-' :: _ =>
    match Switch.ofSpelling? (String.ofList (s.toList.takeWhile (· != '='))) with
    | some switch => .ok (.switch switch true (valueAfterEquals? s.toList))
    | none => classifyLong s
  | '-' :: c :: rest =>
    match Switch.ofLetter? c, rest with
    | some switch, [] => .ok (.switch switch false none)
    | some switch, '=' :: value => .ok (.switch switch false (some value))
    | some switch, value => .ok (.switch switch false (some value))
    | none, _ => .ok (classifyUnknown s)
  | _ => .ok (.plain s)

/-- Reads all arguments; what follows `--` is plain. -/
def classifyAll : List String → Except Misuse (List Argument)
  | [] => .ok []
  | s :: rest =>
    if s == "--" then .ok (.separator :: rest.map .plain)
    else do
      let argument ← classify s
      return argument :: (← classifyAll rest)

/-! ## Switches that share an argument -/

/-- What one argument asks for. -/
structure Reading where
  /-- Complete switches, with their values. -/
  complete : List (Switch × String) := []
  /-- A switch whose value is the next argument. -/
  awaiting : Option Switch := none

/-- A switch with nothing attached to it. -/
def Reading.ofSwitch (s : Switch) : Reading :=
  if s.takesValue then { awaiting := some s } else { complete := [(s, "")] }

/-- A further complete switch in front. -/
def Reading.after (s : Switch) (r : Reading) : Reading :=
  { r with complete := (s, "") :: r.complete }

/-- Reads what is attached to a short switch: its value, or further switches. -/
def readShort (s : Switch) (text : List Char) : Except Misuse Reading :=
  if s.takesValue then .ok { complete := [(s, String.ofList text)] }
  else
    match text with
    | [] => .error (.unwantedValue s "")
    | c :: rest =>
      match Switch.ofLetter? c, rest with
      | none, rest => .error (.unwantedValue s (String.ofList (c :: rest)))
      | some next, [] => .ok (.after s (.ofSwitch next))
      | some next, d :: rest => (readShort next (d :: rest)).map (.after s)

/-- Reads a switch and what is attached to it. -/
def readSwitch (s : Switch) (long : Bool) : Option (List Char) → Except Misuse Reading
  | none => .ok (.ofSwitch s)
  | some text =>
    if !long then readShort s text
    else if s.takesValue then .ok { complete := [(s, String.ofList text)] }
    else .error (.unwantedValue s (String.ofList text))

/-! ## The whole command line -/

/-- Arguments carried out so far. -/
structure Progress where
  options : Options := {}
  /-- Whether the dump and the patterns are known. -/
  hasOperands : Bool := false
  /-- Arguments that nothing asks for. -/
  extras : List String := []

/-- The value of a switch, unless it is withheld. -/
def givenValue? (value : String) : Option String :=
  if value == "--" then none else some value

/-- The options after a switch whose value is withheld. No number of jobs is as good as zero, and no
module mode is one that a dump can have. -/
def Options.applyWithheld (options : Options) : Switch → Options
  | .exclude => { options with exclude := "" }
  | .ignore => { options with ignore := "" }
  | .ignorePkg => { options with ignorePkg := "" }
  | .tags => { options with tags := none }
  | .mod => { options with mod := .unmeetable }
  | .jobs => { options with jobs := some 0 }
  | .help | .version | .verbose | .blank | .asserts | .excludeOnly | .ignoreTests
  | .ignoreGenerated | .absPath => options

/-- The options after a switch and its value. -/
def Options.applyGiven (options : Options) (s : Switch) (value : String) : Except Stop Options :=
  match s with
  | .help => .error .help
  | .version => .error .version
  | .verbose => .ok { options with verbosity := options.verbosity + 1 }
  | .blank => .ok { options with blank := true }
  | .asserts => .ok { options with asserts := true }
  | .exclude => .ok { options with exclude := value }
  | .excludeOnly => .ok { options with excludeOnly := true }
  | .ignore => .ok { options with ignore := value }
  | .ignorePkg => .ok { options with ignorePkg := value }
  | .ignoreTests => .ok { options with ignoreTests := true }
  | .ignoreGenerated => .ok { options with ignoreGenerated := true }
  | .tags => .ok { options with tags := some value }
  | .mod => .ok { options with mod := .exactly value }
  | .jobs =>
    match Number.readInt? value.toList with
    | some n => .ok { options with jobs := some n }
    | none => .error (.misuse (.invalidInt .jobs value))
  | .absPath => .ok { options with absPath := true }

/-- The options after a switch. -/
def Options.apply (options : Options) (s : Switch) (value : String) : Except Stop Options :=
  match givenValue? value with
  | some value => options.applyGiven s value
  | none => .ok (options.applyWithheld s)

/-- The options after several switches. -/
def Options.applyAll (options : Options) (switches : List (Switch × String)) :
    Except Stop Options :=
  switches.foldlM (fun options (s, value) => options.apply s value) options

/-- An operand as it was written. -/
def Argument.operandText : Argument → String
  | .plain text => text
  | _ => "--"

/-- Whether an argument is `--`. -/
def Argument.isSeparator : Argument → Bool
  | .separator => true
  | _ => false

/-- The texts of operands without the first `--`. -/
def operandTexts (arguments : List Argument) : List String :=
  (arguments.map (·.operandText)).erase "--"

/-- Takes in operands that stand together. Only the first such group counts. -/
def Progress.takeOperands (progress : Progress) (group : List Argument) : Progress :=
  let before := group.takeWhile (·.isSeparator)
  match group.dropWhile (·.isSeparator), progress.hasOperands with
  | dump :: rest, false =>
    let own := before ++ dump :: rest.takeWhile (·.isSeparator)
    { progress with
      options := { progress.options with
        dump := (operandTexts own).headD ""
        patterns := operandTexts (rest.dropWhile (·.isSeparator)) }
      hasOperands := true }
  | _, _ => { progress with extras := progress.extras ++ group.map (·.operandText) }

/-- Takes in what one argument asks for; `value` is the next argument, for a switch that waits for
one. -/
def Progress.takeReading (progress : Progress) (reading : Reading) (value : Option String) :
    Except Stop Progress := do
  let last ←
    match reading.awaiting, value with
    | none, _ => pure []
    | some s, some value => pure [(s, value)]
    | some s, none => throw (.misuse (.missingValue s))
  let options ← progress.options.applyAll (reading.complete ++ last)
  return { progress with options }

/-- Carries out arguments from left to right. The operands in `group`, last first, wait for the
group to end. -/
def carryOut (progress : Progress) (group : List Argument) :
    List Argument → Except Stop Progress
  | [] => .ok (progress.takeOperands group.reverse)
  | .plain text :: rest => carryOut progress (.plain text :: group) rest
  | .separator :: rest => carryOut progress (.separator :: group) rest
  | .unknown text :: rest =>
    let progress := progress.takeOperands group.reverse
    carryOut { progress with extras := progress.extras ++ [text] } [] rest
  | .switch s long attached :: rest => do
    let progress := progress.takeOperands group.reverse
    let reading ← (readSwitch s long attached).mapError .misuse
    match reading.awaiting, rest with
    | some _, .plain value :: rest => carryOut (← progress.takeReading reading value) [] rest
    | _, rest => carryOut (← progress.takeReading reading none) [] rest

/-- The options that a command line asks for. -/
def parseArguments (arguments : List String) : Except Stop Options := do
  let classified ← (classifyAll arguments).mapError .misuse
  let progress ← carryOut {} [] classified
  if !progress.hasOperands then throw (.misuse .missingOperands)
  else if !progress.extras.isEmpty then throw (.misuse (.unrecognized progress.extras))
  else return progress.options

end UncheckedErrors.CommandLine
