import UncheckedErrors.Diagnostic
import UncheckedErrors.Number.Binary64
import UncheckedErrors.OrderedMap

/-!
# Results of a run

Each package hands in its diagnostics. The same file can belong to several packages, so a finding
may be handed in more than once; `RunResults.diagnostics` has each finding once, in the form in
which it came first, and in order of output.
-/

namespace UncheckedErrors

/-- What a run amounts to. -/
inductive Outcome where
  | clean | findings | fatal
  deriving DecidableEq, Repr

def Outcome.exitCode : Outcome → Nat
  | .clean => 0
  | .findings => 1
  | .fatal => 2

/-- The diagnostics of a list without those whose key came before. -/
def distinctByKey (seen : List Diagnostic.Key) : List Diagnostic → List Diagnostic
  | [] => []
  | d :: ds =>
    if d.key ∈ seen then distinctByKey seen ds else d :: distinctByKey (d.key :: seen) ds

/-- What the packages have handed in. -/
structure RunResults where
  /-- The diagnostics of each package, packages in order of first arrival. -/
  byPackage : OrderedMap String (List Diagnostic) := .empty
  /-- The milliseconds spent on each package. -/
  elapsed : OrderedMap String Number.Binary64 := .empty
  /-- Packages without source files. -/
  skipped : List String := []

namespace RunResults

/-- Takes in the diagnostics of a package and the time spent on it. -/
def add (results : RunResults) (pkg : String) (batch : List Diagnostic)
    (elapsed : Number.Binary64) : RunResults :=
  { results with
    byPackage := results.byPackage.insert pkg ((results.byPackage.get? pkg).getD [] ++ batch)
    elapsed := results.elapsed.insert pkg
      (((results.elapsed.get? pkg).getD .zero).add elapsed) }

def skip (results : RunResults) (pkg : String) : RunResults :=
  { results with skipped := results.skipped ++ [pkg] }

/-- The packages that were checked, in order of first arrival. -/
def packageNames (results : RunResults) : List String := results.byPackage.keys

/-- Everything handed in: packages in order of first arrival, and the diagnostics of each in the
order in which they came. -/
def merged (results : RunResults) : List Diagnostic := results.byPackage.values.flatten

/-- Each finding once, in order of output. -/
def diagnostics (results : RunResults) : List Diagnostic :=
  (distinctByKey [] results.merged).mergeSort Diagnostic.le

def count (results : RunResults) : Nat := results.diagnostics.length

def hasDiagnostics (results : RunResults) : Bool := results.byPackage.values.any (!·.isEmpty)

def outcome (results : RunResults) : Outcome :=
  if results.hasDiagnostics then .findings else .clean

def ofKind (results : RunResults) (kind : DiagnosticKind) : List Diagnostic :=
  results.diagnostics.filter (·.kind == kind)

def inFile (results : RunResults) (filename : String) : List Diagnostic :=
  results.diagnostics.filter (·.position.filename == filename)

/-- The findings as records, one on each line. -/
def records (results : RunResults) : String := "\n".intercalate (results.diagnostics.map (·.record))

/-- The time spent on each package, in milliseconds. -/
def stats (results : RunResults) : List (String × String) :=
  results.elapsed.entries.map fun (pkg, t) => (pkg ++ "_elapsed_ms", t.text)

/-- The lines of the summary: the counts, a line for each kind with findings, and a line for each
package that was skipped. -/
def summaryLines (results : RunResults) : List String :=
  let diagnostics := results.diagnostics
  let counted := DiagnosticKind.all.map fun kind =>
    (kind, (diagnostics.filter (·.kind == kind)).length)
  ("Checked " ++ toString results.packageNames.length ++ " packages: " ++
      toString diagnostics.length ++ " unchecked errors") ::
    ((counted.filter (·.2 != 0)).map fun (kind, n) => "  " ++ kind.message ++ ": " ++ toString n) ++
    results.skipped.map fun name => "  " ++ name ++ ": skipped (no go source files)"

def summary (results : RunResults) : String := "\n".intercalate results.summaryLines

end RunResults

end UncheckedErrors
