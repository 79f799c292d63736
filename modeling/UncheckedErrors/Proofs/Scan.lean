import Mathlib.Data.List.Basic
import UncheckedErrors.Check

/-!
# What a scan reports, node by node

A scan keeps a list of the assertions that some assignment checks, and a visit to an assertion looks
itself up in it. `Occurrence.sites` says what a node is reported for without any such list: from the
node, the node it stands in, and its place there. `sites_eq_occurrences` is the agreement of the two
for every file.

The invariant of the scan is about addresses. When the walk is about to enter a node, the list holds
nothing from below it (`Scan.Fresh`), and holds the node itself exactly if its parent checks it;
visits below the node change the list only there (`Scanned.frame`).
-/

namespace UncheckedErrors

/-- A node in its context. -/
structure Occurrence where
  node : Node
  /-- The node that it is a child of, and its place among the children. -/
  parent : Option (Node × Nat)

/-- A node that stands in `parent`, and everything below it, in pre-order. -/
def Node.occurrences (parent : Option (Node × Nat)) (n : Node) : List Occurrence :=
  ⟨n, parent⟩ :: n.children.zipIdx.attach.flatMap fun child =>
    child.val.1.occurrences (some (n, child.val.2))
termination_by n.weight
decreasing_by
  have hmem := List.fst_mem_of_mem_zipIdx child.property
  exact Nat.lt_of_le_of_lt (weight_lt_of_mem hmem) (total_children_lt n)

theorem Node.occurrences_eq (parent : Option (Node × Nat)) (n : Node) :
    n.occurrences parent =
      ⟨n, parent⟩ :: n.children.zipIdx.flatMap fun child =>
        child.1.occurrences (some (n, child.2)) := by
  rw [occurrences, List.flatMap_def, List.flatMap_def]
  rw [← List.attach_map_val (l := n.children.zipIdx)
    (f := fun child => child.1.occurrences (some (n, child.2)))]

/-- The occurrences are those of the nodes of a walk, in order of visit. -/
theorem Node.map_node_occurrences (parent : Option (Node × Nat)) (n : Node) :
    (n.occurrences parent).map (·.node) = n.preorder := by
  rw [occurrences_eq, preorder_eq, List.map_cons, List.map_flatMap]
  congr 1
  calc n.children.zipIdx.flatMap (fun child =>
        (child.1.occurrences (some (n, child.2))).map (·.node))
      = n.children.zipIdx.flatMap (fun child => child.1.preorder) :=
        List.flatMap_congr fun child hchild => by
          have hmem := List.fst_mem_of_mem_zipIdx hchild
          have := Nat.lt_of_le_of_lt (weight_lt_of_mem hmem) (total_children_lt n)
          exact map_node_occurrences (some (n, child.2)) child.1
    _ = n.children.flatMap preorder := by
        rw [← List.flatMap_map (f := Prod.fst), List.zipIdx_map_fst]
termination_by n.weight

/-- The call whose results a statement drops. -/
def Node.droppedCall? : Node → Option Call
  | .stmt (.expr (.call c)) | .stmt (.goStmt c _) | .stmt (.deferStmt c _) => some c
  | _ => none

/-- The targets and the values of an assignment, or of a declaration with values. -/
def Node.assignment? : Node → Option (List Expr × List Expr)
  | .stmt (.assign lhs _ _ rhs) => some (lhs, rhs)
  | .valueSpec spec =>
    if spec.values.isEmpty then none else some (spec.names.map .ident, spec.values)
  | _ => none

/-- Whether an expression is a type assertion that names a type. -/
def Expr.isAssertion : Expr → Bool
  | .typeAssert _ _ (some _) _ => true
  | _ => false

/-- The place, among the children of an assignment, of the assertion that its second target checks:
the value follows the targets. -/
def Node.checkedPlace? (n : Node) : Option Nat :=
  match n.assignment? with
  | some (targets, [value]) =>
    if value.isAssertion && 2 ≤ targets.length then some targets.length else none
  | _ => none

namespace Occurrence

/-- Whether the node is an assertion that the assignment around it checks. -/
def isChecked (o : Occurrence) : Bool :=
  match o.parent with
  | some (parent, i) => parent.checkedPlace? == some i
  | none => false

/-- One call assigned to all targets: target `i` gets result `i`. -/
def spreadSites (modes : Modes) (excluded : Call → Bool) (targets : List Expr) (c : Call) :
    List Site :=
  if modes.blank && !excluded c then
    targets.zipIdx.filterMap fun (target, i) =>
      if target.isBlank && (c.isRecover || c.errorSlots[i]? == some true) then
        some ⟨.uncheckedBlank, target.pos, some c⟩ else none
  else []

/-- One assertion assigned to all targets: the second target tells whether it holds. -/
def okSites (modes : Modes) (targets : List Expr) : List Site :=
  match targets[1]? with
  | some ok =>
    if ok.isBlank && modes.blank && modes.asserts then [⟨.uncheckedAssert, ok.pos, none⟩] else []
  | none => []

/-- One value of several, assigned to its own target. -/
def pairSite? (modes : Modes) (excluded : Call → Bool) (target value : Expr) : Option Site :=
  match value with
  | .call c =>
    if target.isBlank && modes.blank && c.returnsError && !excluded c then
      some ⟨.uncheckedBlank, target.pos, some c⟩ else none
  | value =>
    if value.isAssertion && target.isBlank && modes.blank && modes.asserts then
      some ⟨.uncheckedAssert, target.pos, none⟩ else none

/-- An assignment of values to targets. -/
def assignedSites (modes : Modes) (excluded : Call → Bool) (targets values : List Expr) :
    List Site :=
  match values with
  | [.call c] => spreadSites modes excluded targets c
  | [value] => if value.isAssertion then okSites modes targets else []
  | values =>
    if targets.length = values.length then
      (targets.zip values).filterMap fun (target, value) => pairSite? modes excluded target value
    else []

/-- An assertion, unless it is checked. -/
def assertionSites (modes : Modes) (o : Occurrence) (x : Expr) : List Site :=
  if x.isAssertion && modes.asserts && !o.isChecked then [⟨.uncheckedAssert, x.pos, none⟩] else []

/-- The unchecked errors that a node in its context is reported for. -/
def sites (modes : Modes) (excluded : Call → Bool) (o : Occurrence) : List Site :=
  (match o.node.droppedCall? with
    | some c => callSites excluded c
    | none => []) ++
  (match o.node.assignment? with
    | some (targets, values) => assignedSites modes excluded targets values
    | none => []) ++
  (match o.node with
    | .expr x => o.assertionSites modes x
    | _ => [])

end Occurrence

/-! ## One visit -/

theorem blankTargets_eq (c : Call) (slots : List Bool) (targets : List Expr) (k : Nat) :
    blankTargets c (slots.drop k) targets =
      (targets.zipIdx k).filterMap fun (target, i) =>
        if target.isBlank && (c.isRecover || slots[i]? == some true) then
          some (⟨.uncheckedBlank, target.pos, some c⟩ : Site) else none := by
  induction targets generalizing k with
  | nil => rfl
  | cons target targets ih =>
    have hslot : (slots.drop k).headD false = (slots[k]? == some true) := by
      rw [← List.head?_drop]
      cases slots.drop k with
      | nil => rfl
      | cons b _ => cases b <;> rfl
    rw [blankTargets, List.tail_drop, ih (k + 1), List.zipIdx_cons, List.filterMap_cons, hslot]
    by_cases h : (target.isBlank && (c.isRecover || slots[k]? == some true)) = true
    · simp only [h, ↓reduceIte, List.singleton_append]
    · simp only [h]; rfl

theorem soleSites_eq (modes : Modes) (excluded : Call → Bool) (targets : List Expr)
    (value : Expr) :
    soleSites modes excluded targets value =
      Occurrence.assignedSites modes excluded targets [value] := by
  cases value with
  | call c =>
    rw [soleSites, Occurrence.assignedSites, Occurrence.spreadSites, ← blankTargets_eq,
      List.drop_zero]
  | typeAssert x lparen asserted type =>
    cases asserted with
    | none => rfl
    | some t =>
      match targets with
      | [] | [_] => rfl
      | _ :: ok :: _ =>
        simp only [soleSites, Occurrence.assignedSites, Occurrence.okSites, Expr.isAssertion,
          List.getElem?_cons_succ, List.getElem?_cons_zero, ↓reduceIte]
        cases modes.asserts <;> cases modes.blank <;> cases ok.isBlank <;> rfl
  | _ => rfl

theorem pairSites_eq (modes : Modes) (excluded : Call → Bool) (target value : Expr) :
    pairSites modes excluded target value =
      (Occurrence.pairSite? modes excluded target value).toList := by
  cases value with
  | call c =>
    cases ht : target.isBlank <;> cases hb : modes.blank <;> cases hc : c.returnsError <;>
      cases he : excluded c <;> simp [pairSites, Occurrence.pairSite?, ht, hb, hc, he]
  | typeAssert x lparen asserted type =>
    cases asserted <;> cases ht : target.isBlank <;> cases hb : modes.blank <;>
      cases ha : modes.asserts <;>
      simp [pairSites, Occurrence.pairSite?, Expr.isAssertion, ht, hb, ha]
  | _ => cases ht : target.isBlank <;> cases hb : modes.blank <;>
      simp [pairSites, Occurrence.pairSite?, Expr.isAssertion, ht, hb]

/-- An assignment is reported for what its shape says. -/
theorem assignmentSites_eq (modes : Modes) (excluded : Call → Bool) (targets values : List Expr) :
    assignmentSites modes excluded targets values =
      Occurrence.assignedSites modes excluded targets values := by
  match values with
  | [value] => exact soleSites_eq modes excluded targets value
  | [] => cases targets <;> rfl
  | x :: y :: values =>
    simp only [assignmentSites, Occurrence.assignedSites, pairSites_eq]
    rw [← List.filterMap_eq_flatMap_toList]

/-- An assignment checks an assertion exactly if its shape says so. -/
theorem checkedPlace?_of_assignment {n : Node} {targets values : List Expr}
    (h : n.assignment? = some (targets, values)) :
    n.checkedPlace? = if bindsOk targets values then some targets.length else none := by
  rw [Node.checkedPlace?, h]
  match values with
  | [] => rfl
  | _ :: _ :: _ => simp [bindsOk]
  | [value] =>
    cases value with
    | typeAssert x lparen asserted type =>
      cases asserted <;> simp [bindsOk, Expr.isAssertion]
    | _ => rfl

namespace Scan

/-- A visit to a node with an assignment. -/
theorem assignment_eq (modes : Modes) (excluded : Call → Bool) (scan : Scan) {n : Node}
    {targets values : List Expr} (h : n.assignment? = some (targets, values)) (a : Address) :
    scan.assignment modes excluded a targets values =
      ⟨scan.sites ++ Occurrence.assignedSites modes excluded targets values,
        (n.checkedPlace?.map (· :: a)).toList ++ scan.commaOk⟩ := by
  rw [assignment, assignmentSites_eq, checkedPlace?_of_assignment h]
  split <;> rfl

/-- A node without any of the shapes adds nothing to a scan. -/
theorem eq_of_plain (modes : Modes) (excluded : Call → Bool) (scan : Scan) (n : Node)
    (parent : Option (Node × Nat)) (a : Address) (hcall : n.droppedCall? = none)
    (hassign : n.assignment? = none) (hassert : ∀ x, n = .expr x → x.isAssertion = false) :
    scan = ⟨scan.sites ++ (Occurrence.mk n parent).sites modes excluded,
      (n.checkedPlace?.map (· :: a)).toList ++ scan.commaOk⟩ := by
  have hsites : (Occurrence.mk n parent).sites modes excluded = [] := by
    cases n with
    | expr x => simp [Occurrence.sites, hcall, hassign, Occurrence.assertionSites, hassert x rfl]
    | _ => simp [Occurrence.sites, hcall, hassign]
  rw [hsites, Node.checkedPlace?, hassign, List.append_nil]
  rfl

/-- A visit reports what the node is reported for in its context, if the list knows whether the
node is checked there. It adds the assertion that the node itself checks. -/
theorem visit_eq (modes : Modes) (excluded : Call → Bool) (scan : Scan) (v : Visit)
    (parent : Option (Node × Nat))
    (h : v.address ∈ scan.commaOk ↔ (Occurrence.mk v.node parent).isChecked = true) :
    scan.visit modes excluded v =
      ⟨scan.sites ++ (Occurrence.mk v.node parent).sites modes excluded,
        (v.node.checkedPlace?.map (· :: v.address)).toList ++ scan.commaOk⟩ := by
  obtain ⟨n, a⟩ := v
  have hplain := eq_of_plain modes excluded scan n parent a
  cases n with
  | expr x =>
    cases x with
    | typeAssert x lparen asserted type =>
      cases asserted with
      | none => exact hplain rfl rfl (by rintro _ ⟨⟩; rfl)
      | some t =>
        have hmem : scan.commaOk.contains a = (Occurrence.mk _ parent).isChecked :=
          Bool.eq_iff_iff.mpr (List.contains_iff_mem.trans h)
        simp only [visit, hmem]
        simp only [Occurrence.sites, Occurrence.assertionSites, Node.droppedCall?,
          Node.assignment?, Node.checkedPlace?, Expr.isAssertion, Expr.pos]
        cases modes.asserts <;> cases (Occurrence.mk _ parent).isChecked <;> simp [report]
    | _ => exact hplain rfl rfl (by rintro _ ⟨⟩; rfl)
  | stmt s =>
    cases s with
    | expr x =>
      cases x with
      | call c => simp [visit, report, Occurrence.sites, Node.droppedCall?, Node.assignment?,
          Node.checkedPlace?]
      | _ => exact hplain rfl rfl (by rintro _ ⟨⟩)
    | goStmt c | deferStmt c => simp [visit, report, Occurrence.sites, Node.droppedCall?,
          Node.assignment?, Node.checkedPlace?]
    | assign lhs tok tokPos rhs =>
      simp only [visit]
      rw [assignment_eq modes excluded scan (n := .stmt (.assign lhs tok tokPos rhs)) rfl]
      simp [Occurrence.sites, Node.droppedCall?, Node.assignment?]
    | _ => exact hplain rfl rfl (by rintro _ ⟨⟩)
  | valueSpec spec =>
    simp only [visit]
    by_cases hv : spec.values.isEmpty = true
    · obtain ⟨name, others, values, type⟩ := spec
      obtain rfl : values = [] := List.isEmpty_iff.mp hv
      -- There is at least one target, so the empty list of values pairs with none.
      have hnone : scan.assignment modes excluded a ((name :: others).map .ident) [] = scan := by
        simp [assignment, assignmentSites, bindsOk]
      exact hnone.trans (hplain rfl rfl (by rintro _ ⟨⟩))
    · have hassign : (Node.valueSpec spec).assignment? =
          some (spec.names.map .ident, spec.values) := by simp [Node.assignment?, hv]
      rw [assignment_eq modes excluded scan hassign]
      simp [Occurrence.sites, Node.droppedCall?, hassign]
  | _ => exact hplain rfl rfl (by rintro _ ⟨⟩)

end Scan

/-! ## A whole walk -/

theorem Visit.walkAll_append (visits waiting : List Visit) :
    walkAll (visits ++ waiting) = walkAll visits ++ walkAll waiting := by
  fun_induction walkAll visits with
  | case1 => rfl
  | case2 v visits ih => rw [List.cons_append, walkAll, ← List.append_assoc, ih, List.cons_append]

theorem Visit.walkAll_cons (v : Visit) (waiting : List Visit) :
    walkAll (v :: waiting) = walkAll [v] ++ walkAll waiting :=
  walkAll_append [v] waiting

/-- Entering a node and carrying out everything below it. -/
theorem Visit.walkAll_singleton (v : Visit) : walkAll [v] = v :: walkAll v.children := by
  rw [walkAll, List.append_nil]

/-- Whether the address `b` is below `a`. -/
def Address.Below (a b : Address) : Prop := ∃ c i, b = c ++ i :: a

namespace Address

theorem below_child (a : Address) (i : Nat) : Below a (i :: a) := ⟨[], i, rfl⟩

theorem Below.length_lt {a b : Address} (h : Below a b) : a.length < b.length := by
  obtain ⟨c, i, rfl⟩ := h
  simp only [List.length_append, List.length_cons]
  omega

/-- What is below a child is below the parent. -/
theorem Below.of_child {a b : Address} {i : Nat} (h : Below (i :: a) b) : Below a b := by
  obtain ⟨c, j, rfl⟩ := h
  exact ⟨c ++ [j], i, by simp⟩

/-- Nothing is below two different children. -/
theorem Below.unique {a b : Address} {i j : Nat} (hi : Below (i :: a) b) (hj : Below (j :: a) b) :
    i = j := by
  obtain ⟨c, k, rfl⟩ := hi
  obtain ⟨c', k', h⟩ := hj
  rw [List.append_cons c, List.append_cons c'] at h
  exact (List.cons.inj (List.append_inj_right' h rfl)).1

end Address

namespace Scan

/-- The list holds nothing from below `a`. -/
def Fresh (scan : Scan) (a : Address) : Prop := ∀ b ∈ scan.commaOk, ¬ Address.Below a b

/-- What visits below `a` may do to a scan: they report `sites`, and change the list only below. -/
structure Scanned (a : Address) (sites : List Site) (before after : Scan) : Prop where
  sites_eq : after.sites = before.sites ++ sites
  frame : ∀ b, ¬ Address.Below a b → (b ∈ after.commaOk ↔ b ∈ before.commaOk)

/-- The visits to a child leave what concerns its siblings alone. -/
theorem Scanned.sibling {a : Address} {i j : Nat} {sites : List Site} {before after : Scan}
    (h : Scanned (i :: a) sites before after) (hij : i ≠ j) (hfresh : before.Fresh (j :: a)) :
    after.Fresh (j :: a) ∧ (j :: a ∈ after.commaOk ↔ j :: a ∈ before.commaOk) := by
  refine ⟨fun b hb hj => ?_, h.frame _ fun hi => ?_⟩
  · exact hfresh b ((h.frame b fun hi => hij (hi.unique hj)).mp hb) hj
  · exact absurd hi.length_lt (by simp)

variable (modes : Modes) (excluded : Call → Bool)

/-- The visits to a node and to everything below it. -/
def enter (v : Visit) (scan : Scan) : Scan :=
  (Visit.walkAll [v]).foldl (·.visit modes excluded) scan

/-- The visits to the children of `n`, from place `k` on, given what the visits to each of them
do. -/
theorem scanned_children {n : Node} {a : Address}
    (hchild : ∀ child ∈ n.children, ∀ i scan, scan.Fresh (i :: a) →
      (i :: a ∈ scan.commaOk ↔ n.checkedPlace? = some i) →
      Scanned (i :: a) ((child.occurrences (some (n, i))).flatMap (·.sites modes excluded)) scan
        (enter modes excluded ⟨child, i :: a⟩ scan))
    (ns : List Node) (k : Nat) (hns : ∀ child ∈ ns, child ∈ n.children) (scan : Scan)
    (hfresh : ∀ i, k ≤ i → scan.Fresh (i :: a))
    (hctx : ∀ i, k ≤ i → (i :: a ∈ scan.commaOk ↔ n.checkedPlace? = some i)) :
    Scanned a
      ((ns.zipIdx k).flatMap fun child =>
        (child.1.occurrences (some (n, child.2))).flatMap (·.sites modes excluded))
      scan
      ((Visit.walkAll ((ns.zipIdx k).map fun (child, i) => ⟨child, i :: a⟩)).foldl
        (·.visit modes excluded) scan) := by
  induction ns generalizing k scan with
  | nil =>
    rw [List.zipIdx_nil, List.map_nil, Visit.walkAll]
    exact ⟨(List.append_nil _).symm, fun _ _ => Iff.rfl⟩
  | cons child ns ih =>
    have hfirst := hchild child (hns child List.mem_cons_self) k scan
      (hfresh k (Nat.le_refl k)) (hctx k (Nat.le_refl k))
    have hrest := ih (k + 1) (fun c hc => hns c (List.mem_cons_of_mem _ hc))
      (enter modes excluded ⟨child, k :: a⟩ scan)
      (fun i hi => (hfirst.sibling (by omega) (hfresh i (by omega))).1)
      (fun i hi => (hfirst.sibling (by omega) (hfresh i (by omega))).2.trans (hctx i (by omega)))
    rw [List.zipIdx_cons, List.map_cons, Visit.walkAll_cons, List.foldl_append, List.flatMap_cons]
    refine ⟨?_, fun b hb => ?_⟩
    · rw [← List.append_assoc, ← hfirst.sites_eq]
      exact hrest.sites_eq
    · exact (hrest.frame b hb).trans (hfirst.frame b fun hk => hb hk.of_child)

/-- The visits to a node and to everything below it report what stands there, each node in its
context. -/
theorem scanned_node (n : Node) (parent : Option (Node × Nat)) (a : Address) (scan : Scan)
    (hfresh : scan.Fresh a)
    (hctx : a ∈ scan.commaOk ↔ (Occurrence.mk n parent).isChecked = true) :
    Scanned a ((n.occurrences parent).flatMap (·.sites modes excluded)) scan
      (enter modes excluded ⟨n, a⟩ scan) := by
  have hvisit := visit_eq modes excluded scan ⟨n, a⟩ parent hctx
  have hmem : ∀ b, b ∈ (scan.visit modes excluded ⟨n, a⟩).commaOk ↔
      (∃ i, n.checkedPlace? = some i ∧ i :: a = b) ∨ b ∈ scan.commaOk := by
    intro b
    rw [hvisit]
    simp
  -- Below `a` the list now holds at most one child of `n`, and nothing from below a child.
  have hchildren := scanned_children modes excluded (n := n) (a := a)
    (fun child hchild i scan hf hc => scanned_node child (some (n, i)) (i :: a) scan hf
      (by simpa [Occurrence.isChecked] using hc))
    n.children 0 (fun _ h => h) (scan.visit modes excluded ⟨n, a⟩)
    (fun i _ b hb hi => by
      rcases (hmem b).mp hb with ⟨j, -, rfl⟩ | hb
      · exact absurd hi.length_lt (by simp)
      · exact hfresh b hb hi.of_child)
    (fun i _ => by
      rw [hmem]
      constructor
      · rintro (⟨j, hj, h⟩ | hb)
        · rwa [← (List.cons.inj h).1]
        · exact absurd (Address.below_child a i) (hfresh _ hb)
      · exact fun h => .inl ⟨i, h, rfl⟩)
  rw [enter, Visit.walkAll_singleton, List.foldl_cons, Node.occurrences_eq, List.flatMap_cons,
    List.flatMap_assoc]
  refine ⟨?_, fun b hb => ?_⟩
  · refine hchildren.sites_eq.trans ?_
    rw [hvisit, List.append_assoc]
  · refine (hchildren.frame b hb).trans ((hmem b).trans ?_)
    refine or_iff_right ?_
    rintro ⟨i, -, rfl⟩
    exact hb (Address.below_child a i)
termination_by n.weight
decreasing_by exact Nat.lt_of_le_of_lt (Node.weight_lt_of_mem hchild) (Node.total_children_lt n)

end Scan

/-- A scan of a file reports, in pre-order of the nodes, what each node is reported for in its
context. -/
theorem File.sites_eq_occurrences (modes : Modes) (excluded : Call → Bool) (file : File) :
    ((Node.file file).occurrences none).map (·.node) = (Node.file file).walk ∧
    file.sites modes excluded =
      ((Node.file file).occurrences none).flatMap (·.sites modes excluded) := by
  constructor
  · rw [Node.map_node_occurrences, Node.walk, Node.walkAll_eq, List.flatMap_singleton]
  · exact (Scan.scanned_node modes excluded (.file file) none [] {}
      (fun _ h => absurd h List.not_mem_nil) (by simp [Occurrence.isChecked])).sites_eq

end UncheckedErrors
