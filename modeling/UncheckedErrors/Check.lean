import UncheckedErrors.Calls
import UncheckedErrors.Diagnostic
import UncheckedErrors.Program
import UncheckedErrors.Tree.Walk

/-!
# Unchecked errors

The shapes of statements that drop an error:

* a call on its own, or behind `go` or `defer`, that returns an error;
* an assignment of an error to `_`, if blank assignments are reported;
* a type assertion whose result is not checked by a second target, if type assertions are
  reported; one whose second target is `_` counts as unchecked if blank assignments are reported
  as well.

A file is walked parents before children. A scan remembers where the type assertions stand that an
assignment to two or more targets checks, so that they are known when they are visited.
-/

namespace UncheckedErrors

/-- What to report besides dropped results of calls. -/
structure Modes where
  blank : Bool
  asserts : Bool
  deriving DecidableEq, Repr

/-- An unchecked error in a file. -/
structure Site where
  kind : DiagnosticKind
  offset : Int
  call : Option Call

/-- Where a node stands: its place among the children of its parent, then that of the parent, and so
on up to the node that the walk started from. No two nodes of a walk stand at the same place. -/
abbrev Address := List Nat

/-- A node that is visited, and where it stands. -/
structure Visit where
  node : Node
  address : Address

/-- The visits directly below a visit. -/
def Visit.children (v : Visit) : List Visit :=
  v.node.children.zipIdx.map fun (n, i) => ⟨n, i :: v.address⟩

/-- The visits below a visit are to the children of its node. -/
theorem Visit.map_node_children (v : Visit) : v.children.map (·.node) = v.node.children := by
  rw [children, List.map_map]
  exact List.zipIdx_map_fst 0 _

/-- Carries out the visits that are waiting, each followed by those below it. -/
def Visit.walkAll : List Visit → List Visit
  | [] => []
  | v :: waiting => v :: walkAll (v.children ++ waiting)
termination_by waiting => Node.total (waiting.map (·.node))
decreasing_by
  have := Node.total_children_lt v.node
  simp only [List.map_append, List.map_cons, map_node_children, Node.total_append, Node.total_cons]
  omega

/-- The visits to a node and everything below it. -/
def Visit.walk (n : Node) : List Visit := walkAll [⟨n, []⟩]

/-- The visits go to the nodes in order of a walk. -/
theorem Visit.map_node_walkAll (waiting : List Visit) :
    (walkAll waiting).map (·.node) = Node.walkAll (waiting.map (·.node)) := by
  fun_induction walkAll waiting with
  | case1 => simp [Node.walkAll]
  | case2 v waiting ih =>
    rw [List.map_cons, ih, List.map_append, map_node_children, List.map_cons, ← Node.walkAll]

/-! ## Sites -/

/-- A call whose results are dropped. -/
def callSites (excluded : Call → Bool) (c : Call) : List Site :=
  if c.returnsError && !excluded c then [⟨.uncheckedCall, c.lparen, some c⟩] else []

/-- The targets that a call assigns an error to `_` at; `slots` tells which results are errors. -/
def blankTargets (c : Call) (slots : List Bool) : List Expr → List Site
  | [] => []
  | x :: xs =>
    (if x.isBlank && (c.isRecover || slots.headD false) then
      [⟨.uncheckedBlank, x.pos, some c⟩] else []) ++
    blankTargets c slots.tail xs

/-- An assignment of one right-hand side. -/
def soleSites (modes : Modes) (excluded : Call → Bool) (lhs : List Expr) (rhs : Expr) :
    List Site :=
  match rhs with
  | .call c =>
    if modes.blank && !excluded c then blankTargets c c.errorSlots lhs else []
  | .typeAssert _ _ (some _) _ =>
    match lhs with
    | _ :: ok :: _ =>
      if modes.asserts && modes.blank && ok.isBlank then [⟨.uncheckedAssert, ok.pos, none⟩] else []
    | _ => []
  | _ => []

/-- An assignment of one value to one target among several. -/
def pairSites (modes : Modes) (excluded : Call → Bool) (target value : Expr) : List Site :=
  if target.isBlank && modes.blank then
    match value with
    | .call c =>
      if c.returnsError && !excluded c then [⟨.uncheckedBlank, target.pos, some c⟩] else []
    | .typeAssert _ _ (some _) _ =>
      if modes.asserts then [⟨.uncheckedAssert, target.pos, none⟩] else []
    | _ => []
  else []

/-- An assignment. -/
def assignmentSites (modes : Modes) (excluded : Call → Bool) (lhs rhs : List Expr) : List Site :=
  match rhs with
  | [x] => soleSites modes excluded lhs x
  | rhs =>
    if lhs.length = rhs.length then
      (lhs.zip rhs).flatMap fun (target, value) => pairSites modes excluded target value
    else []

/-- Whether an assignment checks the type assertion that is its one right-hand side. -/
def bindsOk (lhs rhs : List Expr) : Bool :=
  match rhs with
  | [.typeAssert _ _ (some _) _] => 2 ≤ lhs.length
  | _ => false

/-! ## Scans -/

/-- What a scan has found so far. -/
structure Scan where
  /-- The unchecked errors, in order of visit. -/
  sites : List Site := []
  /-- Where the type assertions stand that an assignment checks. -/
  commaOk : List Address := []

namespace Scan

/-- Adds unchecked errors. -/
def report (scan : Scan) (sites : List Site) : Scan := { scan with sites := scan.sites ++ sites }

/-- Looks at an assignment at `address`, where the right-hand sides follow the targets. -/
def assignment (modes : Modes) (excluded : Call → Bool) (scan : Scan) (address : Address)
    (lhs rhs : List Expr) : Scan where
  sites := scan.sites ++ assignmentSites modes excluded lhs rhs
  commaOk := if bindsOk lhs rhs then (lhs.length :: address) :: scan.commaOk else scan.commaOk

/-- Looks at a visited node. -/
def visit (modes : Modes) (excluded : Call → Bool) (scan : Scan) (v : Visit) : Scan :=
  match v.node with
  | .stmt (.expr (.call c)) => scan.report (callSites excluded c)
  | .stmt (.goStmt c _) => scan.report (callSites excluded c)
  | .stmt (.deferStmt c _) => scan.report (callSites excluded c)
  | .stmt (.assign lhs _ _ rhs) => scan.assignment modes excluded v.address lhs rhs
  | .valueSpec spec =>
    scan.assignment modes excluded v.address (spec.names.map .ident) spec.values
  | .expr (.typeAssert x _ (some _) _) =>
    if modes.asserts && !scan.commaOk.contains v.address then
      scan.report [⟨.uncheckedAssert, x.pos, none⟩] else scan
  | _ => scan

end Scan

/-- The unchecked errors in a file. -/
def File.sites (modes : Modes) (excluded : Call → Bool) (file : File) : List Site :=
  ((Visit.walk (.file file)).foldl (·.visit modes excluded) ({} : Scan)).sites

/-- The report of a site. -/
def Site.diagnostic (source : SourceFile) (site : Site) : Diagnostic :=
  let position := source.position site.offset
  { position
    line := source.lineText position.line
    kind := site.kind
    funcName := ((site.call.bind (·.callee?)).map (·.fullName)).getD ""
    selectorName := (site.call.map (·.selectorName)).getD "" }

/-- The unchecked errors of a file, in order of the walk. -/
def ParsedFile.diagnostics (modes : Modes) (excluded : Call → Bool) (file : ParsedFile) :
    List Diagnostic :=
  (file.tree.sites modes excluded).map (·.diagnostic file.source)

end UncheckedErrors
