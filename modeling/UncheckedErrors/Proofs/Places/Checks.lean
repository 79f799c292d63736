import UncheckedErrors.Proofs.Places.Chains
import UncheckedErrors.Proofs.Places.Positions
import UncheckedErrors.Run

/-!
# Checks by places

A package is checked with the targets and values of assignments, the results of calls and the lines
of the source looked up by number, and with names, chains and positions found as in
`Places.excludes`, `Places.position` and `Places.lineText`. `Places.check_eq` says that every such
check completes.

Every step of a scan completes if excluding a call does (`visit_eq`), whatever the scan has found so
far. So the walk completes (`fileSites_eq`), and each of its sites has a report
(`diagnostic_eq`).
-/

namespace UncheckedErrors

namespace Places

/-! ## Sites -/

section

variable (modes : Modes) (excluded : Call → Option Bool)

/-- A call whose results are dropped. -/
def callSites (c : Call) : Option (List Site) :=
  if c.returnsError then do
    return if ← excluded c then [] else [⟨.uncheckedCall, c.lparen, some c⟩]
  else some []

/-- Whether a result is an error; there may be none at the place. -/
def slot (slots : List Bool) (i : Nat) : Option Bool :=
  if i < slots.length then slots[i]? else some false

/-- The targets from the one at the place `i` on that a call assigns an error to `_` at. -/
def blankTargets (c : Call) (slots : List Bool) (i : Nat) : List Expr → Option (List Site)
  | [] => some []
  | x :: xs => do
    let sites ← blankTargets c slots (i + 1) xs
    let fails ← if c.isRecover then some true else slot slots i
    return if x.isBlank && fails then ⟨.uncheckedBlank, x.pos, some c⟩ :: sites else sites

/-- An assignment of one right-hand side. -/
def soleSites (lhs : List Expr) (rhs : Expr) : Option (List Site) :=
  match rhs with
  | .call c =>
    if modes.blank then do
      if ← excluded c then return []
      blankTargets c c.errorSlots 0 lhs
    else some []
  | .typeAssert _ _ (some _) _ =>
    if lhs.length < 2 then some []
    else if modes.asserts && modes.blank then do
      let ok ← lhs[1]?
      return if ok.isBlank then [⟨.uncheckedAssert, ok.pos, none⟩] else []
    else some []
  | _ => some []

/-- An assignment of one value to one target among several. -/
def pairSites (target value : Expr) : Option (List Site) :=
  if target.isBlank && modes.blank then
    match value with
    | .call c =>
      if c.returnsError then do
        return if ← excluded c then [] else [⟨.uncheckedBlank, target.pos, some c⟩]
      else some []
    | .typeAssert _ _ (some _) _ =>
      some (if modes.asserts then [⟨.uncheckedAssert, target.pos, none⟩] else [])
    | _ => some []
  else some []

/-- An assignment. -/
def assignmentSites (lhs rhs : List Expr) : Option (List Site) :=
  if rhs.length = 1 then do
    soleSites modes excluded lhs (← rhs[0]?)
  else if lhs.length = rhs.length then do
    let sites ← (lhs.zip rhs).mapM fun (target, value) => pairSites modes excluded target value
    return sites.flatten
  else some []

/-- Whether an assignment checks the type assertion that is its one right-hand side. -/
def bindsOk (lhs rhs : List Expr) : Option Bool :=
  if rhs.length = 1 then do
    match ← rhs[0]? with
    | .typeAssert _ _ (some _) _ => return 2 ≤ lhs.length
    | _ => return false
  else some false

/-- Looks at an assignment at `address`. -/
def assignment (scan : Scan) (address : Address) (lhs rhs : List Expr) : Option Scan := do
  let sites ← assignmentSites modes excluded lhs rhs
  let binds ← bindsOk lhs rhs
  return {
    sites := scan.sites ++ sites
    commaOk := if binds then (lhs.length :: address) :: scan.commaOk else scan.commaOk }

/-- Looks at a visited node. -/
def visit (scan : Scan) (v : Visit) : Option Scan :=
  match v.node with
  | .stmt (.expr (.call c)) => (callSites excluded c).map scan.report
  | .stmt (.goStmt c _) => (callSites excluded c).map scan.report
  | .stmt (.deferStmt c _) => (callSites excluded c).map scan.report
  | .stmt (.assign lhs _ _ rhs) => assignment modes excluded scan v.address lhs rhs
  | .valueSpec spec =>
    if spec.values.isEmpty then some scan
    else assignment modes excluded scan v.address (spec.names.map .ident) spec.values
  | .expr (.typeAssert x _ (some _) _) =>
    some (if modes.asserts && !scan.commaOk.contains v.address then
      scan.report [⟨.uncheckedAssert, x.pos, none⟩] else scan)
  | _ => some scan

/-- The unchecked errors in a file. -/
def fileSites (file : File) : Option (List Site) := do
  let scan ← (Visit.walk (.file file)).foldlM (visit modes excluded) {}
  return scan.sites

end

/-! ## Reports -/

/-- The name of the callee of a site, written in full, if there is one. -/
def calleeName (site : Site) : Option String :=
  match site.call.bind (·.callee?) with
  | some fn => fullName fn
  | none => some ""

/-- The report of a site. -/
def diagnostic (source : SourceFile) (site : Site) : Option Diagnostic := do
  let position ← position source site.offset
  let line ← lineText source position.line
  let funcName ← calleeName site
  return {
    position
    line
    kind := site.kind
    funcName
    selectorName := (site.call.map (·.selectorName)).getD "" }

/-- The unchecked errors of a file, in order of the walk. -/
def fileDiagnostics (modes : Modes) (excluded : Call → Option Bool) (file : ParsedFile) :
    Option (List Diagnostic) := do
  (← fileSites modes excluded file.tree).mapM (diagnostic file.source)

/-- The unchecked errors of a package. -/
def check (checker : Checker) (types : TypeTable) (p : Package) : Option (List Diagnostic) := do
  let found ← (p.files.filter checker.looksAt).mapM
    (fileDiagnostics checker.modes (excludes checker.index types))
  return found.flatten

/-! ## Every place is found -/

section

variable {modes : Modes} {excluded : Call → Option Bool} {excludes : Call → Bool}

theorem callSites_eq (h : ∀ c, excluded c = some (excludes c)) (c : Call) :
    callSites excluded c = some (UncheckedErrors.callSites excludes c) := by
  unfold callSites UncheckedErrors.callSites
  rw [h]
  cases c.returnsError <;> cases excludes c <;> rfl

theorem slot_eq (slots : List Bool) (i : Nat) :
    slot slots i = some ((slots.drop i).headD false) := by
  unfold slot
  split
  · rename_i h
    rw [List.drop_eq_getElem_cons h, List.getElem?_eq_getElem h]
    rfl
  · rename_i h
    rw [List.drop_eq_nil_of_le (Nat.not_lt.mp h)]
    rfl

theorem blankTargets_eq (c : Call) (slots : List Bool) (i : Nat) (xs : List Expr) :
    blankTargets c slots i xs = some (UncheckedErrors.blankTargets c (slots.drop i) xs) := by
  induction xs generalizing i with
  | nil => rfl
  | cons x xs ih =>
    have htail : (slots.drop i).tail = slots.drop (i + 1) := by rw [List.tail_drop]
    rw [blankTargets, UncheckedErrors.blankTargets, ih, htail, slot_eq]
    cases x.isBlank <;> cases c.isRecover <;> cases (slots.drop i).headD false <;> rfl

theorem soleSites_eq (h : ∀ c, excluded c = some (excludes c)) (lhs : List Expr) (rhs : Expr) :
    soleSites modes excluded lhs rhs = some (UncheckedErrors.soleSites modes excludes lhs rhs) := by
  cases rhs with
  | call c =>
    simp only [soleSites, UncheckedErrors.soleSites, h, blankTargets_eq, List.drop_zero]
    cases modes.blank <;> cases excludes c <;> rfl
  | typeAssert x lparen type t =>
    cases type with
    | none => rfl
    | some type =>
      rcases lhs with _ | ⟨first, _ | ⟨ok, rest⟩⟩
      · rfl
      · rfl
      · have hlength : ¬ (first :: ok :: rest).length < 2 := by simp
        have hok : (first :: ok :: rest)[1]? = some ok := rfl
        simp only [soleSites, UncheckedErrors.soleSites, if_neg hlength, hok]
        cases modes.asserts <;> cases modes.blank <;> cases hblank : ok.isBlank <;> simp [hblank]
  | _ => rfl

theorem pairSites_eq (h : ∀ c, excluded c = some (excludes c)) (target value : Expr) :
    pairSites modes excluded target value =
      some (UncheckedErrors.pairSites modes excludes target value) := by
  unfold pairSites UncheckedErrors.pairSites
  split
  · cases value with
    | call c =>
      simp only [h]
      cases c.returnsError <;> cases excludes c <;> rfl
    | typeAssert x lparen type t => cases type <;> rfl
    | _ => rfl
  · rfl

theorem pairsSites_eq (h : ∀ c, excluded c = some (excludes c)) (pairs : List (Expr × Expr)) :
    (pairs.mapM fun (target, value) => pairSites modes excluded target value) =
      some (pairs.map fun (target, value) =>
        UncheckedErrors.pairSites modes excludes target value) :=
  mapM_eq_some_map fun pair _ => pairSites_eq h pair.1 pair.2

theorem assignmentSites_eq (h : ∀ c, excluded c = some (excludes c)) (lhs rhs : List Expr) :
    assignmentSites modes excluded lhs rhs =
      some (UncheckedErrors.assignmentSites modes excludes lhs rhs) := by
  by_cases hsole : rhs.length = 1
  · obtain ⟨x, rfl⟩ := List.length_eq_one_iff.mp hsole
    exact soleSites_eq h lhs x
  · rw [assignmentSites, if_neg hsole, UncheckedErrors.assignmentSites]
    · split
      · rw [pairsSites_eq h, List.flatMap_def]
        rfl
      · rfl
    · rintro x rfl
      exact hsole rfl

theorem bindsOk_eq (lhs rhs : List Expr) :
    bindsOk lhs rhs = some (UncheckedErrors.bindsOk lhs rhs) := by
  by_cases hsole : rhs.length = 1
  · obtain ⟨x, rfl⟩ := List.length_eq_one_iff.mp hsole
    cases x with
    | typeAssert x lparen type t => cases type <;> rfl
    | _ => rfl
  · rw [bindsOk, if_neg hsole, UncheckedErrors.bindsOk]
    rintro x lparen type t rfl
    exact hsole rfl

theorem assignment_eq (h : ∀ c, excluded c = some (excludes c)) (scan : Scan) (address : Address)
    (lhs rhs : List Expr) :
    assignment modes excluded scan address lhs rhs =
      some (scan.assignment modes excludes address lhs rhs) := by
  rw [assignment, assignmentSites_eq h, bindsOk_eq]
  rfl

theorem assignment_nil (scan : Scan) (address : Address) (lhs : List Expr) :
    scan.assignment modes excludes address lhs [] = scan := by
  rw [Scan.assignment, UncheckedErrors.assignmentSites, List.zip_nil_right, List.flatMap_nil,
    ite_self, List.append_nil]
  · rfl
  · intro x hx
    cases hx

/-- Every step of a scan completes. -/
theorem visit_eq (h : ∀ c, excluded c = some (excludes c)) (scan : Scan) (v : Visit) :
    visit modes excluded scan v = some (scan.visit modes excludes v) := by
  obtain ⟨node, address⟩ := v
  cases node with
  | stmt s =>
    cases s with
    | expr x =>
      cases x with
      | call c => exact congrArg (Option.map scan.report) (callSites_eq h c)
      | _ => rfl
    | goStmt c pos => exact congrArg (Option.map scan.report) (callSites_eq h c)
    | deferStmt c pos => exact congrArg (Option.map scan.report) (callSites_eq h c)
    | assign lhs tok tokPos rhs => exact assignment_eq h scan address lhs rhs
    | _ => rfl
  | valueSpec spec =>
    show (if spec.values.isEmpty then some scan else _) = some (scan.assignment _ _ _ _ spec.values)
    cases hvalues : spec.values with
    | nil => rw [assignment_nil, List.isEmpty_nil, if_pos rfl]
    | cons x xs => exact assignment_eq h scan address _ _
  | expr x =>
    cases x with
    | typeAssert x lparen type t => cases type <;> rfl
    | _ => rfl
  | _ => rfl

/-- So every walk does. -/
theorem fileSites_eq (h : ∀ c, excluded c = some (excludes c)) (file : File) :
    fileSites modes excluded file = some (file.sites modes excludes) := by
  have hfold (visits : List Visit) (scan : Scan) :
      visits.foldlM (visit modes excluded) scan =
        some (visits.foldl (·.visit modes excludes) scan) := by
    induction visits generalizing scan with
    | nil => rfl
    | cons v visits ih =>
      rw [List.foldlM_cons, visit_eq h]
      exact ih _
  rw [fileSites, hfold]
  rfl

end

@[simp] theorem calleeName_eq (site : Site) :
    calleeName site = some (((site.call.bind (·.callee?)).map (·.fullName)).getD "") := by
  unfold calleeName
  cases site.call.bind (·.callee?) with
  | none => rfl
  | some fn => exact fullName_eq fn

@[simp] theorem diagnostic_eq (source : SourceFile) (site : Site) :
    diagnostic source site = some (site.diagnostic source) := by
  rw [diagnostic, position_eq]
  show (lineText source _ >>= _) = _
  rw [lineText_eq, calleeName_eq]
  rfl

theorem fileDiagnostics_eq {modes : Modes} {excluded : Call → Option Bool} {excludes : Call → Bool}
    (h : ∀ c, excluded c = some (excludes c)) (file : ParsedFile) :
    fileDiagnostics modes excluded file = some (file.diagnostics modes excludes) := by
  rw [fileDiagnostics, fileSites_eq h]
  exact mapM_eq_some_map fun site _ => diagnostic_eq file.source site

/-- Every check of a package completes. -/
theorem check_eq (checker : Checker) (types : TypeTable) (p : Package) :
    check checker types p = some (checker.check types p) := by
  rw [check, mapM_eq_some_map fun file _ =>
    fileDiagnostics_eq (excludes_eq checker.index types) file]
  show some _ = _
  rw [Checker.check, List.flatMap_def]

end Places

end UncheckedErrors
