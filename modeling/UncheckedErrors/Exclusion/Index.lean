import UncheckedErrors.Calls
import UncheckedErrors.Embedding
import UncheckedErrors.Exclusion.Vendor
import UncheckedErrors.Fault
import UncheckedErrors.Pattern.Library

/-!
# Exclusion rules

Which calls are not reported. Rules are consulted in this order:

1. a pattern on the bare name of the callee, whatever its package;
2. a pattern on the bare name for the package of the callee, vendored paths being seen through;
3. an exact symbol such as `fmt.Fprintf` or `(hash.Hash).Write`, perhaps limited to calls with a
   certain first argument, as in `fmt.Fprintf(*bytes.Buffer)`;
4. the symbols of the standard library that never fail.

A call through an interface goes by one name for each type on the chain of its selection. Only a
call with a known callee can be excluded.

Patterns are read by a library (`PatternLibrary`), and what an index holds of them are tests of
names. Symbols may also come from a file, one on each line (`readExcludes`).
-/

namespace UncheckedErrors

/-! ## Calls that never fail -/

/-- The symbols that are excluded unless this is switched off: functions and methods of the standard
library whose documentation says that the error they return is always nil. A name in brackets behind
a function limits the rule to calls with such a first argument. -/
def defaultSymbols : List String := [
  -- bytes
  "(*bytes.Buffer).Write",
  "(*bytes.Buffer).WriteByte",
  "(*bytes.Buffer).WriteRune",
  "(*bytes.Buffer).WriteString",
  -- fmt
  "fmt.Print",
  "fmt.Printf",
  "fmt.Println",
  "fmt.Fprint(*bytes.Buffer)",
  "fmt.Fprintf(*bytes.Buffer)",
  "fmt.Fprintln(*bytes.Buffer)",
  "fmt.Fprint(*strings.Builder)",
  "fmt.Fprintf(*strings.Builder)",
  "fmt.Fprintln(*strings.Builder)",
  "fmt.Fprint(os.Stderr)",
  "fmt.Fprintf(os.Stderr)",
  "fmt.Fprintln(os.Stderr)",
  -- io
  "(*io.PipeReader).CloseWithError",
  "(*io.PipeWriter).CloseWithError",
  -- math/rand
  "math/rand.Read",
  "(*math/rand.Rand).Read",
  -- strings
  "(*strings.Builder).Write",
  "(*strings.Builder).WriteByte",
  "(*strings.Builder).WriteRune",
  "(*strings.Builder).WriteString",
  -- hash
  "(hash.Hash).Write",
  -- hash/maphash
  "(*hash/maphash.Hash).Write",
  "(*hash/maphash.Hash).WriteByte",
  "(*hash/maphash.Hash).WriteString"]

/-! ## Exclusion files -/

/-- Whether a line of an exclusion file, without blanks around it, is a symbol. -/
def isSymbolLine (line : String) : Bool :=
  !line.isEmpty && !"//".toList.isPrefixOf line.toList

/-- The symbols in the text of an exclusion file. -/
def excludesOf (text : String) : List String :=
  ((Text.splitLines text).map Text.strip).filter isSymbolLine

/-- The symbols in an exclusion file. -/
def readExcludes (disk : Disk) (path : Path) : Except Failure (List String) :=
  match disk.read path with
  | .ok text => .ok (excludesOf text)
  | .error reason => .error (.ofFile (.unreadableExcludes path) reason)

/-- The notice of an exclusion file that was read. -/
def excludesNotice (path : Path) (excludes : List String) : Notice :=
  .excludesRead excludes.length path.text

/-! ## Configurations -/

/-- Which findings to report and which calls to exclude. -/
structure Exclusions where
  /-- Packages whose calls are all excluded. -/
  packages : List String := []
  /-- Patterns on bare names by package; the empty package stands for all of them. -/
  patterns : OrderedMap String String := .empty
  /-- Exact symbols. -/
  symbols : List String := []
  /-- Whether test files are looked at. -/
  testFiles : Bool := true
  /-- Whether generated files are looked at. -/
  generatedFiles : Bool := true
  /-- Whether errors assigned to `_` are reported. -/
  blankAssignments : Bool := false
  /-- Whether unchecked type assertions are reported. -/
  typeAssertions : Bool := false
  /-- Whether the symbols that never fail are left out of account. -/
  disableDefaults : Bool := false

/-- The rules, ready for use. -/
structure ExclusionIndex where
  unqualified : Option NameTest
  byPackage : OrderedMap String NameTest
  symbols : List String
  defaults : List String

namespace ExclusionIndex

/-- The failure of a rule without a test. Only a pattern that is none is a mistake of whoever wrote
the rule. -/
def failureOf (key pattern : String) : PatternFailure → Failure
  | .malformed mistake => .fault (.invalidPattern key pattern mistake)
  | .countTooLarge => .countTooLarge
  | .countTooLong => .countTooLong
  | .tooDeep => .patternTooDeep
  | .unread => .fault (.unreadPattern key pattern)

/-- The test of a rule. -/
def compile (library : PatternLibrary) (key pattern : String) : Except Failure NameTest :=
  (library.read key pattern).mapError (failureOf key pattern)

/-- The tests of the rules, first to last. -/
def compileAll (library : PatternLibrary) :
    List (String × String) → Except Failure (List (String × NameTest))
  | [] => return []
  | (key, pattern) :: rest => do
    let test ← compile library key pattern
    return (key, test) :: (← compileAll library rest)

/-- An index without any patterns. -/
def ofSymbols (symbols : List String) (disableDefaults : Bool) : ExclusionIndex where
  unqualified := none
  byPackage := .empty
  symbols := ((symbols.map Text.strip).filter (!·.isEmpty)).map stripVendor |>.eraseDups
  defaults := if disableDefaults then [] else defaultSymbols

/-- Adds the test of one package. -/
def addPattern (index : ExclusionIndex) (rule : String × NameTest) : ExclusionIndex :=
  if rule.1.isEmpty then { index with unqualified := some rule.2 }
  else { index with byPackage := index.byPackage.insert (unvendored rule.1) rule.2 }

/-- The tests of all packages: a package that is excluded as a whole has the test that every name
passes, whatever pattern it has. -/
def allPatterns (compiled : List (String × NameTest)) (packages : List String) :
    OrderedMap String NameTest :=
  (OrderedMap.empty.insertAll compiled).insertAll (packages.map (·, .everything))

/-- The rules of a configuration, their patterns read by `library`. It fails at the first pattern
without a test. -/
def ofExclusions (exclusions : Exclusions) (library : PatternLibrary := .names) :
    Except Failure ExclusionIndex := do
  let compiled ← compileAll library exclusions.patterns.entries
  return (allPatterns compiled exclusions.packages).entries.foldl addPattern
    (ofSymbols exclusions.symbols exclusions.disableDefaults)

/-- The names that a call can be excluded by. -/
def namesOf (types : TypeTable) (c : Call) : List String :=
  match c.callee? with
  | none => []
  | some fn =>
    if fn.name.isEmpty then []
    else
      let chain :=
        match c.fn with
        | .selector _ _ (some selection) _ => types.chain? selection
        | _ => none
      match chain with
      | some ts => ts.map fun t => stripVendor (Object.methodName t fn.name)
      | none => [stripVendor fn.fullName]

/-- Whether a table of symbols holds one of the names, alone or limited to the argument. -/
def matchesSymbol (table names : List String) (argument : Option String) : Bool :=
  names.any fun name =>
    table.contains name ||
      match argument with
      | some a => !a.isEmpty && table.contains (name ++ "(" ++ a ++ ")")
      | none => false

/-- Whether a pattern excludes a function that is called by `name`. -/
def matchesPattern (index : ExclusionIndex) (fn : Object) (name : String) : Bool :=
  index.unqualified.any (· name) ||
    match fn.pkg with
    | some pkg => !pkg.isEmpty && (index.byPackage.get? (unvendored pkg)).any (· name)
    | none => false

/-- Whether a call is excluded. -/
def excludes (index : ExclusionIndex) (types : TypeTable) (c : Call) : Bool :=
  match c.callee?, c.calleeIdent? with
  | some fn, some id =>
    index.matchesPattern fn id.name ||
      let names := namesOf types c
      matchesSymbol index.symbols names c.argumentName? ||
        matchesSymbol index.defaults names c.argumentName?
  | _, _ => false

/-- An index as messages show it. -/
def display (index : ExclusionIndex) : String :=
  "ExclusionIndex(packages=" ++ Text.quotedList (index.byPackage.keys.mergeSort (· ≤ ·)) ++
    ", symbols=" ++ toString index.symbols.length ++
    ", defaults=" ++ (if index.defaults.isEmpty then "False" else "True") ++ ")"

end ExclusionIndex

end UncheckedErrors
