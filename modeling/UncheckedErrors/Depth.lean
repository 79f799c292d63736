import UncheckedErrors.Check
import UncheckedErrors.Exclusion.Index

/-!
# The depth of a check

A check walks the files of a package without nesting, but what it asks about a call is found out by
procedures that call one another: the method set of an interface by going down to what it embeds,
and the text of a type by writing its parts. A stack has room for so many open calls only, so a
check fails if interfaces embed one another too often in a row.

Each function named `…Depth` says how many calls are open at most while something is found out,
itself included. Calls of a small fixed depth, such as those that compare two methods, are left out.

* `TypeTable.methodsDepth`, `TypeTable.chainDepth`: method sets and chains of selections.
* `ExclusionIndex.excludesDepth`: whether a call is excluded.
* `File.tests`: the calls of a file that this is asked about.
* `ParsedFile.depth`: the whole check of a file.
-/

namespace UncheckedErrors

/-- The greatest of some depths. -/
def maxDepth (depths : List Nat) : Nat := depths.foldr max 0

theorem maxDepth_le_iff {depths : List Nat} {n : Nat} :
    maxDepth depths ≤ n ↔ ∀ depth ∈ depths, depth ≤ n := by
  induction depths with
  | nil => simp [maxDepth]
  | cons depth depths ih =>
    rw [List.forall_mem_cons, ← ih]
    exact Nat.max_le

/-! ## Texts -/

namespace GoType

mutual

/-- The depth of writing a type. Lists of types are written by a procedure of their own, except the
single result of a function. -/
def textDepth : GoType → Nat
  | .basic _ | .named _ | .invalid => 1
  | .pointer t | .slice t | .array _ t | .chan t => t.textDepth + 1
  | .map key value => max key.textDepth value.textDepth + 1
  | .tuple ts => textDepths ts + 2
  | .struct fields => fieldDepths fields + 1
  | .interface methods embedded => max (methodDepths methods) (textDepths embedded + 1) + 1
  | .signature params results _ => max (textDepths params) (resultDepths results) + 3

def textDepths : List GoType → Nat
  | [] => 0
  | t :: ts => max t.textDepth (textDepths ts)

/-- The depth below the list that parameters are written in. -/
def resultDepths : List GoType → Nat
  | [] => 0
  | [t] => t.textDepth - 1
  | t :: ts => max t.textDepth (textDepths ts)

def fieldDepths : List Field → Nat
  | [] => 0
  | .mk _ type _ :: fields => max type.textDepth (fieldDepths fields)

def methodDepths : List Method → Nat
  | [] => 0
  | .mk _ (.signature params results _) :: methods =>
    max (max (textDepths params) (resultDepths results) + 2) (methodDepths methods)
  | .mk _ _ :: methods => max 2 (methodDepths methods)

end

end GoType

namespace Object

/-- The depth of writing the full name of an object. -/
def fullNameDepth (o : Object) : Nat := (o.recv.map (·.textDepth)).getD 0 + 1

end Object

/-- The depth of naming the first argument of a call. -/
def Expr.argumentDepth (x : Expr) : Nat :=
  match x with
  | .selector _ ⟨_, _, some obj, _⟩ _ _ =>
    if obj.isStandardStream then 1 else (x.type?.map (·.textDepth)).getD 0 + 1
  | x => (x.type?.map (·.textDepth)).getD 0 + 1

/-! ## Method sets and chains -/

namespace TypeTable

/-- The depth of replacing a type by what it stands for. -/
def unnameDepth : GoType → Nat
  | .named _ => 2
  | _ => 1

/-- The depth of the walk of `methodsFrom`, which goes to each type of `work` by a call of the depth
that stands before it. -/
def walkDepth (table : TypeTable) (visited : List TypeName) : List (Nat × GoType) → Nat
  | [] => 0
  | (depth, t) :: work =>
    max (depth + unnameDepth t) <|
      match _h : table.view t with
      | (some owner, .interface _ embedded) =>
        if owner ∈ visited then table.walkDepth visited work
        else table.walkDepth (owner :: visited) (embedded.map (depth + 1, ·) ++ work)
      | (none, .interface _ embedded) =>
        table.walkDepth visited (embedded.map (depth + 1, ·) ++ work)
      | _ => table.walkDepth visited work
termination_by work => (table.unvisited visited, GoType.weight (work.map (·.2)))
decreasing_by
  · have := GoType.one_le_sizeOf t
    exact Prod.Lex.right _ (by simp only [List.map_cons, GoType.weight_cons]; omega)
  · rename_i hv
    exact Prod.Lex.left _ _ (unvisited_cons_lt (mem_names_of_view (by rw [_h])) hv)
  · have := GoType.weight_embedded_lt ‹_› embedded
    rw [← eq_of_view_eq_none _h] at this
    refine Prod.Lex.right _ ?_
    simp only [List.map_append, List.map_map, List.map_cons, GoType.weight_cons,
      GoType.weight_append, Function.comp_def, List.map_id']
    omega
  · have := GoType.one_le_sizeOf t
    exact Prod.Lex.right _ (by simp only [List.map_cons, GoType.weight_cons]; omega)

/-- The depth of finding out the full method set of the interface under a type. -/
def methodsDepth (table : TypeTable) (t : GoType) : Nat := table.walkDepth [] [(1, t)] + 1

/-- The depth of finding out which of the embedded types supplies a method: those are asked that
come before it. -/
def supplierDepth (table : TypeTable) (id : String) : List GoType → Nat
  | [] => 0
  | t :: ts =>
    if table.isInterface t then
      max (table.methodsDepth t + 1) (if table.declares t id then 0 else table.supplierDepth id ts)
    else table.supplierDepth id ts

/-- The greatest depth on the way of `descend`. -/
def descentDepth (table : TypeTable) (id : String) (visited : List TypeName) (current : GoType) :
    Nat :=
  match _h : table.view current with
  | (some owner, .interface _ embedded) =>
    if owner ∈ visited || table.explicitlyDeclares current id then 0
    else
      max (table.supplierDepth id embedded) <|
        match table.supplier? id embedded with
        | some next => table.descentDepth id (owner :: visited) next
        | none => 0
  | (none, .interface _ embedded) =>
    if table.explicitlyDeclares current id then 0
    else
      max (table.supplierDepth id embedded) <|
        match _hs : table.supplier? id embedded with
        | some next => table.descentDepth id visited next
        | none => 0
  | _ => 0
termination_by (table.unvisited visited, sizeOf current)
decreasing_by
  · rename_i hv
    simp only [Bool.or_eq_true, decide_eq_true_eq, not_or] at hv
    exact Prod.Lex.left _ _ (unvisited_cons_lt (mem_names_of_view (by rw [_h])) hv.1)
  · have := List.sizeOf_lt_of_mem (List.mem_of_find?_eq_some _hs)
    refine Prod.Lex.right _ ?_
    rw [eq_of_view_eq_none _h]
    simp only [GoType.interface.sizeOf_spec]
    omega

/-- The depth of finding out the chain of a selection. -/
def chainDepth (table : TypeTable) (selection : Selection) : Nat :=
  if selection.obj.kind ≠ .func || selection.recv.kind = .invalid then 1
  else
    match table.fieldPath selection.recv selection.index.dropLast with
    | .error _ => 1
    | .ok path => table.descentDepth selection.obj.id [] (path.getLast?.getD selection.recv) + 1

end TypeTable

/-! ## Excluded calls -/

namespace ExclusionIndex

/-- The depth of finding out the names of a call. -/
def namesDepth (types : TypeTable) (c : Call) (fn : Object) : Nat :=
  let selection? :=
    match c.fn with
    | .selector _ _ selection _ => selection
    | _ => none
  let searched := (selection?.map types.chainDepth).getD 0
  let written :=
    match selection?.bind types.chain? with
    | some ts => GoType.textDepths ts + 1
    | none => fn.fullNameDepth
  max searched written + 1

/-- The depth of finding out whether a call is excluded. Nothing is asked about a call that a
pattern excludes. -/
def excludesDepth (index : ExclusionIndex) (types : TypeTable) (c : Call) : Nat :=
  match c.callee?, c.calleeIdent? with
  | some fn, some id =>
    if index.matchesPattern fn id.name || fn.name.isEmpty then 1
    else max (namesDepth types c fn) ((c.args.head?.map (·.argumentDepth)).getD 0) + 1
  | _, _ => 1

end ExclusionIndex

/-! ## Checks -/

/-- The calls of an assignment that are excluded or not. -/
def assignmentTests (modes : Modes) (lhs rhs : List Expr) : List Call :=
  match rhs with
  | [.call c] => if modes.blank then [c] else []
  | [_] => []
  | rhs =>
    if lhs.length = rhs.length then
      (lhs.zip rhs).filterMap fun (target, value) =>
        match value with
        | .call c => if target.isBlank && modes.blank && c.returnsError then some c else none
        | _ => none
    else []

/-- A call on its own. -/
def callTests (c : Call) : List (Nat × Call) := if c.returnsError then [(7, c)] else []

/-- The calls that are excluded or not at a node, each with the number of calls that are open when
it is asked about. -/
def Node.tests (modes : Modes) : Node → List (Nat × Call)
  | .stmt (.expr (.call c)) => callTests c
  | .stmt (.goStmt c _) => callTests c
  | .stmt (.deferStmt c _) => callTests c
  | .stmt (.assign lhs _ _ rhs) => (assignmentTests modes lhs rhs).map (8, ·)
  | .valueSpec spec => (assignmentTests modes (spec.names.map .ident) spec.values).map (8, ·)
  | _ => []

/-- The calls that are excluded or not in a file. -/
def File.tests (modes : Modes) (file : File) : List (Nat × Call) :=
  (Node.file file).walk.flatMap (·.tests modes)

/-- The depth of writing the report of a site. -/
def Site.reportDepth (site : Site) : Nat :=
  (((site.call.bind (·.callee?)).map (·.fullNameDepth)).getD 0) + 3

/-- The depth of a check of a file. -/
def ParsedFile.depth (modes : Modes) (index : ExclusionIndex) (types : TypeTable)
    (file : ParsedFile) : Nat :=
  max
    (maxDepth ((file.tree.tests modes).map fun (depth, c) => depth + index.excludesDepth types c))
    (maxDepth ((file.tree.sites modes (index.excludes types)).map (·.reportDepth)))

end UncheckedErrors
