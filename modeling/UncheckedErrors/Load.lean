import UncheckedErrors.Datum.Reader
import UncheckedErrors.Dump.Program
import UncheckedErrors.Fault
import UncheckedErrors.Notice

/-!
# Loading programs

A dump is read and the packages and files asked for are selected.

* `matchesPattern`: which package paths a pattern selects.
* `tagsSatisfied`: whether the build tags of a file hold.
* `LoadConfig.select`: the packages that match a pattern, with the files whose tags hold. It fails
  when the module mode is not the one asked for or a selected package has type errors.
* `loadText`, `loadFile`: the whole of it, from a text and from a file.
-/

namespace UncheckedErrors

/-- The module mode that a dump has to be made under. -/
inductive ModuleRequest where
  | any
  | exactly (mode : String)
  /-- No mode will do. -/
  | unmeetable
  deriving DecidableEq, Repr

/-- How a request is shown to whoever made it, unless the mode `actual` meets it. -/
def ModuleRequest.refusal? : ModuleRequest → String → Option String
  | .any, _ => none
  | .exactly mode, actual => if mode == actual then none else some mode
  | .unmeetable, _ => some "[]"

structure LoadConfig where
  patterns : List String := ["./..."]
  tags : List String := []
  mod : ModuleRequest := .any
  /-- Whether to keep test files and test variants of packages. -/
  tests : Bool := true

def occursIn (part : List Char) : List Char → Bool
  | [] => part.isEmpty
  | c :: cs => part.isPrefixOf (c :: cs) || occursIn part cs

/-- What stands in front of the ending `/...`, if a pattern has it. -/
def withoutDots? (pattern : List Char) : Option (List Char) :=
  if "/...".toList.isSuffixOf pattern then some (pattern.take (pattern.length - 4)) else none

/-- Whether a path matches a pattern that does not start with `./`. -/
def matchesAbsolute (pattern path : List Char) : Bool :=
  match withoutDots? pattern with
  | some base => path == base || (base ++ ['/']).isPrefixOf path
  | none => path == pattern

/-- Whether a path matches the rest of a pattern that starts with `./`. -/
def matchesRelative (pattern path : List Char) : Bool :=
  match withoutDots? pattern with
  | some base =>
    path == base || (base ++ ['/']).isPrefixOf path ||
      occursIn ('/' :: base ++ ['/']) ('/' :: path ++ ['/'])
  | none => path == pattern || ('/' :: pattern).isSuffixOf path

/-- Whether the package path matches the pattern. `./...` and `...` match everything, `base/...`
matches `base` and what is below it, and a leading `./` lets the rest start at any element. -/
def matchesPattern (pattern path : String) : Bool :=
  if pattern == "..." || pattern == "./..." then true
  else
    match pattern.toList with
    | '.' :: '/' :: rest => matchesRelative rest path.toList
    | pattern => matchesAbsolute pattern path.toList

/-- Whether a build tag term holds: the tag is among `tags`, or behind `!` it is not. -/
def tagHolds (tags : List String) (term : String) : Bool :=
  match term.toList with
  | '!' :: tag => !tags.contains (String.ofList tag)
  | _ => tags.contains term

def tagsSatisfied (terms tags : List String) : Bool :=
  terms.all (tagHolds tags)

/-- The outcome of a load: what was noticed on the way, and a program or a failure. -/
structure Loaded where
  notices : List Notice
  outcome : Except Failure Program

namespace LoadConfig

/-- Whether a file is asked for, leaving its build tags aside. -/
def wants (config : LoadConfig) (file : ParsedFile) : Bool := config.tests || !file.isTest

/-- The files of a package that are asked for and whose build tags hold. -/
def selectFiles (config : LoadConfig) (p : Package) : List ParsedFile :=
  p.files.filter fun file => config.wants file && tagsSatisfied file.buildTags config.tags

def fileNotices (config : LoadConfig) (p : Package) : List Notice :=
  (p.files.filter fun file => config.wants file && !tagsSatisfied file.buildTags config.tags).map
      (fun file => .excludedByTags file.name file.buildTags) ++
    if (config.selectFiles p).isEmpty then [.noSourceFiles p.path] else []

/-- Whether some pattern matches a package. The package `unsafe` is never matched. -/
def matched (config : LoadConfig) (p : Package) : Bool :=
  p.path != "unsafe" && config.patterns.any (matchesPattern · p.path)

def selects (config : LoadConfig) (p : Package) : Bool :=
  config.matched p && (config.tests || !p.isTestVariant)

/-- The selected packages with their selected files, up to the first one with type errors. -/
def selectPackages (config : LoadConfig) :
    List Package → List Notice × Except Fault (List Package)
  | [] => ([], .ok [])
  | p :: rest =>
    if !config.selects p then config.selectPackages rest
    else if !p.errors.isEmpty then ([], .error (.typeErrors p.path p.errors))
    else
      let (notices, outcome) := config.selectPackages rest
      (config.fileNotices p ++ notices,
        outcome.map ({ p with files := config.selectFiles p } :: ·))

/-- The patterns that match no package of the dump, each once. -/
def unmatched (config : LoadConfig) (packages : List Package) : List String :=
  config.patterns.eraseDups.filter fun pattern =>
    !packages.any fun p => p.path != "unsafe" && matchesPattern pattern p.path

def select (config : LoadConfig) (program : Program) : List Notice × Except Fault Program :=
  let actual := program.mod.getD ""
  match config.mod.refusal? actual with
  | some requested => ([], .error (.moduleMode requested actual))
  | none =>
    match config.selectPackages program.packages with
    | (notices, .error fault) => (notices, .error fault)
    | (notices, .ok packages) =>
      (notices ++ (config.unmatched program.packages).map .unmatchedPattern ++
          [.loaded packages.length],
        .ok { program with packages })

end LoadConfig

/-- The fault of a text that is no datum. -/
def Datum.ParseError.fault (filename : String) (e : Datum.ParseError) : Fault :=
  match e.text? with
  | some text => .dumpSyntax filename ("S-expression syntax error: " ++ text)
  | none => { Fault.dumpSyntax filename "" with message := none }

def DumpError.failure (filename : String) : DumpError → Failure
  | .shape e => .fault (.dumpSyntax filename e.message)
  | .source path reason => .ofFile (.unreadableSource path) reason

def readNotices (filename : String) (program : Program) : List Notice :=
  program.types.undefined.map .undefinedType ++
    [.dumpRead program.packages.length program.types.size filename]

/-- The program that a text describes, as far as it is asked for. -/
def loadText (root : SourceRoot) (config : LoadConfig) (filename text : String) : Loaded :=
  match Datum.parse text with
  | .error e => ⟨[], .error (.fault (e.fault filename))⟩
  | .ok datum =>
    match readProgram root datum with
    | .error e => ⟨[], .error (e.failure filename)⟩
    | .ok program =>
      let (notices, outcome) := config.select program
      ⟨readNotices filename program ++ notices, outcome.mapError .fault⟩

/-- The program that a file describes, as far as it is asked for. Sources are looked for next to
the file. -/
def loadFile (disk : Disk) (config : LoadConfig) (path : Path) : Loaded :=
  match disk.read path with
  | .error reason => ⟨[], .error (.ofFile (.unreadableDump path) reason)⟩
  | .ok text => loadText ⟨disk, path.parent⟩ config path.text text

end UncheckedErrors
