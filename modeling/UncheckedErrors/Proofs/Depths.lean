import Mathlib.Data.List.Basic
import UncheckedErrors.Run

/-!
# Depths of checks

A check needs some number of steps, and `Checker.run` fails if a task has fewer of them at hand.

* `File.sites_congr`: nothing is found out about calls but those of `File.tests`, so the depth of a
  check, which counts these calls only, leaves none out.
* `Checker.exists_tooDeep`: no number of steps is enough for all programs. The programs that are
  told here have a chain of interfaces, each of which embeds the one before.
-/

namespace UncheckedErrors

/-! ## Calls that are asked about -/

section

variable (modes : Modes) {excluded excluded' : Call → Bool}

theorem callSites_congr {c : Call} (h : ∀ t ∈ callTests c, excluded t.2 = excluded' t.2) :
    callSites excluded c = callSites excluded' c := by
  unfold callSites
  unfold callTests at h
  cases hreturns : c.returnsError with
  | false => rfl
  | true =>
    rw [if_pos hreturns] at h
    rw [h _ List.mem_cons_self]

theorem pairSites_congr {target value : Expr}
    (h : ∀ c, value = .call c → target.isBlank → modes.blank → c.returnsError →
      excluded c = excluded' c) :
    pairSites modes excluded target value = pairSites modes excluded' target value := by
  unfold pairSites
  split
  · rename_i hblank
    rw [Bool.and_eq_true] at hblank
    split
    · rename_i c
      cases hreturns : c.returnsError with
      | false => rfl
      | true => rw [h c rfl hblank.1 hblank.2 hreturns]
    · rfl
    · rfl
  · rfl

theorem assignmentSites_congr {lhs rhs : List Expr}
    (h : ∀ c ∈ assignmentTests modes lhs rhs, excluded c = excluded' c) :
    assignmentSites modes excluded lhs rhs = assignmentSites modes excluded' lhs rhs := by
  unfold assignmentSites
  split
  · rename_i x
    unfold soleSites
    split
    · rename_i c
      cases hblank : modes.blank with
      | false => rfl
      | true =>
        rw [assignmentTests, if_pos hblank] at h
        rw [h c List.mem_cons_self]
    · rfl
    · rfl
  · rename_i hmany
    split
    · rename_i hlength
      refine List.flatMap_congr fun pair hpair =>
        pairSites_congr modes fun c hc htarget hblank hreturns => h c ?_
      unfold assignmentTests
      split
      · exact absurd rfl (hmany _)
      · exact absurd rfl (hmany _)
      · rw [if_pos hlength]
        refine List.mem_filterMap.mpr ⟨pair, hpair, ?_⟩
        simp [hc, htarget, hblank, hreturns]
    · rfl

/-- One visit. -/
theorem Scan.visit_congr (scan : Scan) {v : Visit}
    (h : ∀ t ∈ v.node.tests modes, excluded t.2 = excluded' t.2) :
    scan.visit modes excluded v = scan.visit modes excluded' v := by
  obtain ⟨node, address⟩ := v
  unfold visit
  unfold Node.tests at h
  dsimp only at h ⊢
  split
  · exact congrArg scan.report (callSites_congr h)
  · exact congrArg scan.report (callSites_congr h)
  · exact congrArg scan.report (callSites_congr h)
  · rw [assignment, assignment]
    rw [assignmentSites_congr modes fun c hc => h _ (List.mem_map_of_mem hc)]
  · rw [assignment, assignment]
    rw [assignmentSites_congr modes fun c hc => h _ (List.mem_map_of_mem hc)]
  · rfl
  · rfl

/-- What is found in a file depends on the calls of its tests only. -/
theorem File.sites_congr {file : File}
    (h : ∀ t ∈ file.tests modes, excluded t.2 = excluded' t.2) :
    file.sites modes excluded = file.sites modes excluded' := by
  have hrun (visits : List Visit)
      (hvisits : ∀ v ∈ visits, ∀ t ∈ v.node.tests modes, excluded t.2 = excluded' t.2)
      (scan : Scan) :
      visits.foldl (·.visit modes excluded) scan = visits.foldl (·.visit modes excluded') scan := by
    induction visits generalizing scan with
    | nil => rfl
    | cons v visits ih =>
      obtain ⟨hv, hvisits⟩ := List.forall_mem_cons.mp hvisits
      rw [List.foldl_cons, List.foldl_cons, scan.visit_congr modes hv, ih hvisits]
  have hnodes : (Visit.walk (.file file)).map (·.node) = (Node.file file).walk :=
    Visit.map_node_walkAll _
  rw [sites, sites, hrun]
  intro v hv t ht
  exact h t (List.mem_flatMap.mpr ⟨v.node, hnodes ▸ List.mem_map_of_mem hv, ht⟩)

end

/-! ## Chains of embedded interfaces -/

namespace TypeTable

/-- The depth of a walk without the proofs that it ends. -/
theorem walkDepth_cons (table : TypeTable) (visited : List TypeName) (depth : Nat) (t : GoType)
    (work : List (Nat × GoType)) :
    table.walkDepth visited ((depth, t) :: work) =
      max (depth + unnameDepth t)
        (match table.view t with
        | (some owner, .interface _ embedded) =>
          if owner ∈ visited then table.walkDepth visited work
          else table.walkDepth (owner :: visited) (embedded.map (depth + 1, ·) ++ work)
        | (none, .interface _ embedded) =>
          table.walkDepth visited (embedded.map (depth + 1, ·) ++ work)
        | _ => table.walkDepth visited work) := by
  rw [TypeTable.walkDepth]
  obtain ⟨owner, u⟩ := table.view t
  cases owner <;> cases u <;> rfl

/-- The greatest depth on the way down to an interface without the proofs that the way ends. -/
theorem descentDepth_eq (table : TypeTable) (id : String) (visited : List TypeName)
    (current : GoType) :
    table.descentDepth id visited current =
      match table.view current with
      | (some owner, .interface _ embedded) =>
        if owner ∈ visited || table.explicitlyDeclares current id then 0
        else
          max (table.supplierDepth id embedded)
            (match table.supplier? id embedded with
            | some next => table.descentDepth id (owner :: visited) next
            | none => 0)
      | (none, .interface _ embedded) =>
        if table.explicitlyDeclares current id then 0
        else
          max (table.supplierDepth id embedded)
            (match table.supplier? id embedded with
            | some next => table.descentDepth id visited next
            | none => 0)
      | _ => 0 := by
  rw [TypeTable.descentDepth]
  obtain ⟨owner, u⟩ := table.view current
  cases u with
  | interface methods embedded =>
    cases owner with
    | some owner => rfl
    | none =>
      dsimp only
      cases table.supplier? id embedded <;> rfl
  | _ => cases owner <;> rfl


/-- A walk is at least as deep as it is long. -/
theorem le_walkDepth (table : TypeTable) (visited : List TypeName) (depth : Nat) (t : GoType)
    (work : List (Nat × GoType)) : depth ≤ table.walkDepth visited ((depth, t) :: work) := by
  rw [walkDepth_cons]
  exact Nat.le_trans (Nat.le_add_right _ _) (Nat.le_max_left _ _)

/-- Going into an interface under a name that the walk has not been to. -/
theorem walkDepth_embedded_le {table : TypeTable} {visited : List TypeName} {t : GoType}
    {owner : TypeName} {methods : List Method} {embedded : List GoType}
    (hview : table.view t = (some owner, .interface methods embedded)) (howner : owner ∉ visited)
    (depth : Nat) :
    table.walkDepth (owner :: visited) (embedded.map (depth + 1, ·)) ≤
      table.walkDepth visited [(depth, t)] := by
  rw [walkDepth_cons, hview]
  refine Nat.le_trans (Nat.le_of_eq ?_) (Nat.le_max_right _ _)
  dsimp only
  rw [if_neg howner, List.append_nil]

end TypeTable

/-- The name of the `n`-th interface of a chain. -/
def linkName (n : Nat) : TypeName := ⟨some "p", String.ofList (List.replicate n 'A')⟩

theorem linkName_inj {m n : Nat} : linkName m = linkName n ↔ m = n := by
  refine ⟨fun h => ?_, congrArg linkName⟩
  have hchars := congrArg (·.name.toList.length) h
  simpa [linkName] using hchars

/-- The `n`-th interface of a chain: the first one has the method `m`, every other one embeds the
one before. -/
def linkType : Nat → GoType
  | 0 => .interface [.mk "m" (.signature [] [.error] false)] []
  | n + 1 => .interface [] [.named (linkName n)]

/-- The table of a chain up to its `n`-th interface. -/
def chainTable : Nat → TypeTable
  | 0 => TypeTable.initial.define (linkName 0) (linkType 0)
  | n + 1 => (chainTable n).define (linkName (n + 1)) (linkType (n + 1))

theorem definition?_chainTable {n k : Nat} (hk : k ≤ n) :
    (chainTable n).definition? (linkName k) = some (linkType k) := by
  induction n with
  | zero => simp [chainTable, Nat.le_zero.mp hk]
  | succ n ih =>
    rw [chainTable, TypeTable.definition?_define]
    by_cases hlast : n + 1 = k
    · rw [if_pos (congrArg linkName hlast), hlast]
    · rw [if_neg fun h => hlast (linkName_inj.mp h), ih (by omega)]

theorem view_chainTable {n k : Nat} (hk : k ≤ n) :
    (chainTable n).view (.named (linkName k)) = (some (linkName k), linkType k) := by
  have hresolve : (chainTable n).resolve? TypeTable.linkLimit (linkName k) =
      some (linkName k, linkType k) := by
    rw [TypeTable.linkLimit, TypeTable.resolve?, definition?_chainTable hk]
    cases k <;> rfl
  rw [TypeTable.view, hresolve]

/-- The walk goes down the chain, one call deeper for each interface. -/
theorem add_le_walkDepth_chainTable {n k : Nat} (hk : k ≤ n) {visited : List TypeName}
    (hvisited : ∀ j ≤ k, linkName j ∉ visited) (depth : Nat) :
    depth + k ≤ (chainTable n).walkDepth visited [(depth, .named (linkName k))] := by
  induction k generalizing visited depth with
  | zero => exact TypeTable.le_walkDepth _ _ _ _ _
  | succ k ih =>
    have hbelow : ∀ j ≤ k, linkName j ∉ linkName (k + 1) :: visited := by
      intro j hj hmem
      rcases List.mem_cons.mp hmem with h | h
      · have := linkName_inj.mp h
        omega
      · exact hvisited j (by omega) h
    have hdown := TypeTable.walkDepth_embedded_le (view_chainTable hk)
      (hvisited (k + 1) (Nat.le_refl _)) depth
    have hrest := ih (by omega) hbelow (depth + 1)
    exact Nat.le_trans (by omega) (Nat.le_trans hrest hdown)

theorem isInterface_chainTable {n k : Nat} (hk : k ≤ n) :
    (chainTable n).isInterface (.named (linkName k)) = true := by
  rw [TypeTable.isInterface, TypeTable.unname, view_chainTable hk]
  cases k <;> rfl

/-- On the way down to a method that the last interface of a chain does not have itself, the one it
embeds is asked for its method set. -/
theorem le_descentDepth_chainTable (n : Nat) (id : String) :
    n ≤ (chainTable (n + 1)).descentDepth id [] (.named (linkName (n + 1))) := by
  have hview := view_chainTable (Nat.le_refl (n + 1))
  have hdeclares :
      (chainTable (n + 1)).explicitlyDeclares (.named (linkName (n + 1))) id = false := by
    rw [TypeTable.explicitlyDeclares, TypeTable.explicitMethods, hview]
    rfl
  have hwalk := add_le_walkDepth_chainTable (Nat.le_add_right n 1)
    (fun _ _ => List.not_mem_nil) 1
  rw [TypeTable.descentDepth_eq, hview]
  simp only [linkType, hdeclares, List.not_mem_nil, decide_false, Bool.or_false,
    Bool.false_eq_true, if_false]
  refine Nat.le_trans ?_ (Nat.le_max_left _ _)
  rw [TypeTable.supplierDepth, if_pos (isInterface_chainTable (Nat.le_add_right n 1)),
    TypeTable.methodsDepth]
  exact Nat.le_trans (by omega) (Nat.le_max_left _ _)

/-- The method of the first interface of a chain. -/
def linkMethod : Object :=
  .func (some "p") "m" (some (.named (linkName 0))) (some (.signature [] [.error] false))

/-- A call of that method through the `n`-th interface. -/
def chainCall (n : Nat) : Call :=
  .mk (.selector (.ident ⟨"x", 0, none, none⟩) ⟨"m", 0, some linkMethod, none⟩
    (some ⟨.methodVal, .named (linkName n), linkMethod, [0]⟩) none) [] 0 0 (some .error) none

/-- A program of a package with one file, which has nothing but a function with this call. -/
def chainProgram (n : Nat) : Program where
  packages := [{
    path := "p"
    name := "p"
    files := [{
      name := "a.go"
      tree := ⟨"p", 0, [.func ⟨⟨"main", 0, none, none⟩, 0,
        some (.mk [.expr (.call (chainCall n))] 0), none⟩]⟩
      source := ⟨"a.go", ""⟩
      buildTags := [] }]
    errors := []
    isTestVariant := false }]
  mod := none
  types := chainTable n

theorem le_excludesDepth_chainCall (n : Nat) :
    n ≤ (ExclusionIndex.ofSymbols [] false).excludesDepth (chainTable (n + 1))
      (chainCall (n + 1)) := by
  have hdescent := le_descentDepth_chainTable n linkMethod.id
  have hchain : n ≤ (chainTable (n + 1)).chainDepth
      ⟨.methodVal, .named (linkName (n + 1)), linkMethod, [0]⟩ := Nat.le_succ_of_le hdescent
  have hnames : n ≤ ExclusionIndex.namesDepth (chainTable (n + 1)) (chainCall (n + 1)) linkMethod :=
    Nat.le_succ_of_le (Nat.le_trans hchain (Nat.le_max_left _ _))
  exact Nat.le_succ_of_le (Nat.le_trans hnames (Nat.le_max_left _ _))

/-- The call is asked about. -/
theorem chainCall_mem_tests (modes : Modes) (n : Nat) :
    (7, chainCall n) ∈ File.tests modes ⟨"p", 0, [.func ⟨⟨"main", 0, none, none⟩, 0,
      some (.mk [.expr (.call (chainCall n))] 0), none⟩]⟩ := by
  refine List.mem_flatMap.mpr ⟨.stmt (.expr (.call (chainCall n))), ?_, List.mem_cons_self⟩
  rw [Node.walk_eq]
  have hblock : Node.stmt (.expr (.call (chainCall n))) ∈
      (Node.block (.mk [.expr (.call (chainCall n))] 0)).preorder :=
    Node.mem_preorder_of_child List.mem_cons_self (Node.mem_preorder_self _)
  exact Node.mem_preorder_of_child List.mem_cons_self
    (Node.mem_preorder_of_child (List.mem_cons_of_mem _ List.mem_cons_self) hblock)

/-- No number of steps is enough for all programs: a call through the last one of enough interfaces,
each of which embeds the one before, fails the run. -/
theorem Checker.exists_tooDeep (steps : Nat) :
    ∃ checker program, Checker.ofExclusions {} = .ok checker ∧
      checker.run none program steps = .error .tooDeep := by
  refine ⟨⟨{}, .ofSymbols [] false⟩, chainProgram (steps + 1), rfl, ?_⟩
  rw [run, if_neg (by simp [jobsSuffice]), if_neg]
  intro hneed
  have hfile := maxDepth_le_iff.mp (maxDepth_le_iff.mp hneed _ List.mem_cons_self) _
    List.mem_cons_self
  have htests := Nat.le_trans (Nat.le_max_left _ _) hfile
  have hcall := maxDepth_le_iff.mp htests _ (List.mem_map_of_mem (chainCall_mem_tests _ _))
  have hdepth := le_excludesDepth_chainCall steps
  have hseven : 7 + (ExclusionIndex.ofSymbols [] false).excludesDepth (chainTable (steps + 1))
    (chainCall (steps + 1)) ≤ steps := hcall
  omega

end UncheckedErrors
