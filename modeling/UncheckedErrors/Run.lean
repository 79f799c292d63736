import UncheckedErrors.Depth
import UncheckedErrors.Notice
import UncheckedErrors.RunResults

/-!
# Checking a program

`Checker` is a configuration whose rules are ready for use. Each package of a program that has files
is a task of its own, and the tasks may complete in any order; `Checker.collect` takes in what they
hand in. Packages without files are skipped.

A task has some number of steps at hand, the calls that can be open in it at once. If one of the
tasks needs more of them, the run fails, and nothing comes of the other tasks either.
-/

namespace UncheckedErrors

/-- A configuration with its rules. -/
structure Checker where
  exclusions : Exclusions
  index : ExclusionIndex

namespace Checker

/-- The checker of a configuration, its patterns read by `library`. It fails at the first pattern
without a test. -/
def ofExclusions (exclusions : Exclusions) (library : PatternLibrary := .names) :
    Except Failure Checker := do
  return ⟨exclusions, ← ExclusionIndex.ofExclusions exclusions library⟩

/-- What to report besides dropped results of calls. -/
def modes (checker : Checker) : Modes :=
  ⟨checker.exclusions.blankAssignments, checker.exclusions.typeAssertions⟩

/-- Whether a file is looked at. -/
def looksAt (checker : Checker) (file : ParsedFile) : Bool :=
  checker.exclusions.generatedFiles || !file.isGenerated

/-- The unchecked errors of a package: files in order, and within a file in order of the walk. -/
def check (checker : Checker) (types : TypeTable) (p : Package) : List Diagnostic :=
  (p.files.filter checker.looksAt).flatMap
    (·.diagnostics checker.modes (checker.index.excludes types))

/-- The steps that a check of a package takes. -/
def depth (checker : Checker) (types : TypeTable) (p : Package) : Nat :=
  maxDepth ((p.files.filter checker.looksAt).map (·.depth checker.modes checker.index types))

def tasks (program : Program) : List Package := program.packages.filter (!·.files.isEmpty)

/-- The packages without files, as they are recorded before any task completes. -/
def skipped (program : Program) : RunResults :=
  (program.packages.filter (·.files.isEmpty)).foldl (fun results p => results.skip p.id) {}

def handIn (checker : Checker) (types : TypeTable) (results : RunResults) (p : Package) :
    RunResults :=
  results.add p.id (checker.check types p) .zero

/-- What all packages hand in if the tasks complete in the order `completed`. -/
def collect (checker : Checker) (program : Program) (completed : List Package) : RunResults :=
  completed.foldl (checker.handIn program.types) (skipped program)

/-- What all packages hand in, first to last. -/
def results (checker : Checker) (program : Program) : RunResults :=
  checker.collect program (tasks program)

/-- Whether a number of jobs will do; none leaves the choice open. -/
def jobsSuffice : Option Int → Bool
  | some n => 0 < n
  | none => true

/-- Number of packages that have files. -/
def workload (program : Program) : Nat := (tasks program).length

/-- The steps at hand in a task: a stack has room for a thousand open calls, and six of them are
those that start a task. -/
def taskSteps : Nat := 994

/-- The steps that the tasks of a program take. -/
def need (checker : Checker) (program : Program) : Nat :=
  maxDepth ((tasks program).map (checker.depth program.types))

/-- The results of a program, each task with `steps` steps at hand. The number of jobs matters only
if there is something to do. -/
def run (checker : Checker) (jobs : Option Int) (program : Program) (steps : Nat := taskSteps) :
    Except Failure RunResults :=
  if 0 < workload program && !jobsSuffice jobs then .error .badJobs
  else if checker.need program ≤ steps then .ok (checker.results program)
  else .error .tooDeep

def notices (program : Program) (results : RunResults) : List Notice :=
  if 0 < workload program then [.checked (workload program) results.count] else []

end Checker

end UncheckedErrors
