import UncheckedErrors.CommandLine.Session
import UncheckedErrors.Proofs.Merge

/-!
# The order in which tasks complete

Each package hands in its diagnostics when its task completes, and a finding that several packages
hand in is kept as it came first. `diagnostics_order_independent_iff` says when the order of
completion does not matter: the findings themselves and what is printed of them are always the same,
and the whole diagnostics exactly if no two packages hand in one finding in two forms.
-/

namespace UncheckedErrors

/-- Two batches have the same form of every finding that they share. -/
def AgreeOnFindings (ds es : List Diagnostic) : Prop :=
  ∀ k d e, firstWithKey ds k = some d → firstWithKey es k = some e → d = e

namespace Checker

theorem byPackage_skipped (program : Program) : (skipped program).byPackage = .empty := by
  have hfold : ∀ (ps : List Package) (results : RunResults),
      (ps.foldl (fun results p => results.skip p.id) results).byPackage = results.byPackage := by
    intro ps
    induction ps with
    | nil => exact fun _ => rfl
    | cons p ps ih => exact fun results => ih (results.skip p.id)
  exact hfold _ {}

variable (checker : Checker) (types : TypeTable)

/-- One task: what is handed in then is what was there before and what the package has. -/
theorem mem_merged_handIn {results : RunResults} {p : Package} {d : Diagnostic} :
    d ∈ (checker.handIn types results p).merged ↔
      d ∈ results.merged ∨ d ∈ checker.check types p := by
  obtain ⟨front, back, hbefore, hafter⟩ :=
    results.merged_add p.id (checker.check types p) Number.Binary64.zero
  rw [handIn, hbefore, hafter]
  simp only [List.mem_append]
  tauto

/-- One task: what comes first with a key came first before or comes first in the package. -/
theorem firstWithKey_merged_handIn {results : RunResults} {p : Package} {k : Diagnostic.Key}
    {d : Diagnostic} (h : firstWithKey (checker.handIn types results p).merged k = some d) :
    firstWithKey results.merged k = some d ∨ firstWithKey (checker.check types p) k = some d := by
  obtain ⟨front, back, hbefore, hafter⟩ :=
    results.merged_add p.id (checker.check types p) Number.Binary64.zero
  rw [handIn, hafter, firstWithKey_append, firstWithKey_append] at h
  rw [hbefore, firstWithKey_append]
  cases hfront : firstWithKey front k with
  | some e => exact .inl (by simpa [hfront] using h)
  | none =>
    cases hbatch : firstWithKey (checker.check types p) k with
    | some e => exact .inr (by simpa [hfront, hbatch] using h)
    | none => exact .inl (by simpa [hfront, hbatch] using h)

/-- All tasks: what is handed in comes from some package. -/
theorem mem_merged_foldl {results : RunResults} {completed : List Package} {d : Diagnostic} :
    d ∈ (completed.foldl (checker.handIn types) results).merged ↔
      d ∈ results.merged ∨ ∃ p ∈ completed, d ∈ checker.check types p := by
  induction completed generalizing results with
  | nil => simp
  | cons p completed ih =>
    rw [List.foldl_cons, ih, mem_merged_handIn]
    simp [or_assoc]

/-- All tasks: what comes first with a key comes first in some package. -/
theorem firstWithKey_merged_foldl {results : RunResults} {completed : List Package}
    {k : Diagnostic.Key} {d : Diagnostic}
    (h : firstWithKey (completed.foldl (checker.handIn types) results).merged k = some d) :
    firstWithKey results.merged k = some d ∨
      ∃ p ∈ completed, firstWithKey (checker.check types p) k = some d := by
  induction completed generalizing results with
  | nil => exact .inl h
  | cons p completed ih =>
    rcases ih h with hstep | ⟨q, hq, hfirst⟩
    · rcases checker.firstWithKey_merged_handIn types hstep with hbefore | hp
      · exact .inl hbefore
      · exact .inr ⟨p, List.mem_cons_self, hp⟩
    · exact .inr ⟨q, List.mem_cons_of_mem _ hq, hfirst⟩

theorem startsWith_foldl {results : RunResults} {completed : List Package}
    {batch : List Diagnostic} (h : results.StartsWith batch) :
    (completed.foldl (checker.handIn types) results).StartsWith batch := by
  induction completed generalizing results with
  | nil => exact h
  | cons p completed ih => exact ih (h.add _ _ _)

variable (program : Program)

theorem merged_skipped : (skipped program).merged = [] := by
  rw [RunResults.merged, byPackage_skipped]
  rfl

theorem mem_merged_collect {completed : List Package} {d : Diagnostic} :
    d ∈ (checker.collect program completed).merged ↔
      ∃ p ∈ completed, d ∈ checker.check program.types p := by
  rw [collect, mem_merged_foldl, merged_skipped]
  simp

theorem firstWithKey_collect {completed : List Package} {k : Diagnostic.Key} {d : Diagnostic}
    (h : firstWithKey (checker.collect program completed).merged k = some d) :
    ∃ p ∈ completed, firstWithKey (checker.check program.types p) k = some d := by
  rcases checker.firstWithKey_merged_foldl program.types h with hskipped | hp
  · rw [merged_skipped] at hskipped
    cases hskipped
  · exact hp

/-- What comes first in the package whose task completes first comes out. -/
theorem mem_diagnostics_of_first {p : Package} (completed : List Package) {k : Diagnostic.Key}
    {d : Diagnostic} (h : firstWithKey (checker.check program.types p) k = some d) :
    d ∈ (checker.collect program (p :: completed)).diagnostics := by
  have hstart : (checker.collect program (p :: completed)).StartsWith
      (checker.check program.types p) := by
    rw [collect, List.foldl_cons]
    refine checker.startsWith_foldl program.types ?_
    exact RunResults.startsWith_add_empty (byPackage_skipped program) _ _ _
  obtain ⟨rest, hmerged⟩ := hstart.merged_eq
  rw [RunResults.mem_diagnostics, hmerged, firstWithKey_append, key_of_firstWithKey h, h]
  rfl

/-- The keys that come out do not depend on the order of completion. -/
theorem keys_collect_perm {completed completed' : List Package} (h : completed.Perm completed') :
    (checker.collect program completed).diagnostics.map Diagnostic.key =
      (checker.collect program completed').diagnostics.map Diagnostic.key := by
  refine eq_of_strict (RunResults.strict_diagnostics _).map (RunResults.strict_diagnostics _).map ?_
  intro k
  rw [RunResults.mem_keys_diagnostics, RunResults.mem_keys_diagnostics]
  simp only [List.mem_map, mem_merged_collect, h.mem_iff]

/-- If all packages agree, what comes out is what comes first in some package. -/
theorem mem_diagnostics_collect {completed : List Package}
    (hagree : ∀ p ∈ completed, ∀ q ∈ completed,
      AgreeOnFindings (checker.check program.types p) (checker.check program.types q))
    {d : Diagnostic} :
    d ∈ (checker.collect program completed).diagnostics ↔
      ∃ p ∈ completed, firstWithKey (checker.check program.types p) d.key = some d := by
  rw [RunResults.mem_diagnostics]
  refine ⟨checker.firstWithKey_collect program, ?_⟩
  rintro ⟨p, hp, hfirst⟩
  have hmem : d ∈ (checker.collect program completed).merged :=
    (checker.mem_merged_collect program).mpr ⟨p, hp, mem_of_firstWithKey hfirst⟩
  obtain ⟨e, he⟩ := exists_firstWithKey hmem
  obtain ⟨q, hq, hfirst'⟩ := checker.firstWithKey_collect program he
  rw [he, hagree p hp q hq d.key d e hfirst hfirst']

/-- If all packages agree, nothing that comes out depends on the order of completion. -/
theorem diagnostics_collect_perm {completed completed' : List Package}
    (h : completed.Perm completed')
    (hagree : ∀ p ∈ completed, ∀ q ∈ completed,
      AgreeOnFindings (checker.check program.types p) (checker.check program.types q)) :
    (checker.collect program completed).diagnostics =
      (checker.collect program completed').diagnostics := by
  refine eq_of_strict (RunResults.strict_diagnostics _) (RunResults.strict_diagnostics _) ?_
  intro d
  have hagree' : ∀ p ∈ completed', ∀ q ∈ completed',
      AgreeOnFindings (checker.check program.types p) (checker.check program.types q) :=
    fun p hp q hq => hagree p (h.mem_iff.mpr hp) q (h.mem_iff.mpr hq)
  rw [mem_diagnostics_collect checker program hagree,
    mem_diagnostics_collect checker program hagree']
  simp only [h.mem_iff]

/-- A task can be the first to complete. -/
theorem exists_perm_cons {p : Package} (h : p ∈ tasks program) :
    ∃ rest, (p :: rest).Perm (tasks program) := by
  obtain ⟨front, back, heq⟩ := List.append_of_mem h
  exact ⟨front ++ back, heq ▸ List.perm_middle.symm⟩

/-- Packages that hand in one finding in two forms make the order of completion matter. -/
theorem agreeOnFindings_of_perm
    (h : ∀ completed completed' : List Package, completed.Perm (tasks program) →
      completed'.Perm (tasks program) → (checker.collect program completed).diagnostics =
        (checker.collect program completed').diagnostics)
    {p q : Package} (hp : p ∈ tasks program) (hq : q ∈ tasks program) :
    AgreeOnFindings (checker.check program.types p) (checker.check program.types q) := by
  intro k d e hd he
  obtain ⟨ps, hps⟩ := exists_perm_cons program hp
  obtain ⟨qs, hqs⟩ := exists_perm_cons program hq
  have hmem := checker.mem_diagnostics_of_first program ps hd
  have hmem' := checker.mem_diagnostics_of_first program qs he
  rw [← h _ _ hps hqs] at hmem'
  exact (RunResults.strict_diagnostics _).eq_of_key_eq hmem hmem'
    ((key_of_firstWithKey hd).trans (key_of_firstWithKey he).symm)

end Checker

/-- What depends on keys only is the same for lists with the same keys. -/
theorem map_eq_map_of_keys {α : Type} {f : Diagnostic → α} {ds es : List Diagnostic}
    (h : ds.map Diagnostic.key = es.map Diagnostic.key)
    (hf : ∀ {d e : Diagnostic}, d.key = e.key → f d = f e) : ds.map f = es.map f := by
  induction ds generalizing es with
  | nil => simp_all
  | cons d ds ih =>
    cases es with
    | nil => simp at h
    | cons e es =>
      rw [List.map_cons, List.map_cons, List.cons.injEq] at h
      rw [List.map_cons, List.map_cons, hf h.1, ih h.2]

/-- Without the names of callees, a printed finding shows its key only. -/
theorem CommandLine.Options.shown_congr (options : CommandLine.Options) (disk : Disk)
    (hverbosity : options.verbosity = 0) {d e : Diagnostic} (h : d.key = e.key) :
    options.shown disk d = options.shown disk e := by
  obtain ⟨hfile, hline, hcolumn, -, htext⟩ := Diagnostic.Key.mk.inj h
  simp [shown, hverbosity, hfile, hline, hcolumn, htext]

/-- Whatever the order of completion, the same findings are printed; the diagnostics as a whole are
the same in every order exactly if no two packages hand in one finding in two forms. -/
theorem Checker.diagnostics_order_independent_iff (checker : Checker) (program : Program) :
    (∀ completed completed' : List Package, completed.Perm (tasks program) →
      completed'.Perm (tasks program) →
        (checker.collect program completed).diagnostics.map Diagnostic.key =
          (checker.collect program completed').diagnostics.map Diagnostic.key ∧
        ∀ (options : CommandLine.Options) (disk : Disk), options.verbosity = 0 →
          (options.report disk program (checker.collect program completed)).output =
            (options.report disk program (checker.collect program completed')).output) ∧
    ((∀ completed completed' : List Package, completed.Perm (tasks program) →
      completed'.Perm (tasks program) → (checker.collect program completed).diagnostics =
        (checker.collect program completed').diagnostics) ↔
      ∀ p ∈ tasks program, ∀ q ∈ tasks program,
        AgreeOnFindings (checker.check program.types p) (checker.check program.types q)) := by
  refine ⟨fun completed completed' h h' => ?_, fun h p hp q hq => ?_, fun hagree ps qs h h' => ?_⟩
  · have hkeys := checker.keys_collect_perm program (h.trans h'.symm)
    refine ⟨hkeys, fun options disk hverbosity => ?_⟩
    exact map_eq_map_of_keys hkeys (options.shown_congr disk hverbosity)
  · exact checker.agreeOnFindings_of_perm program h hp hq
  · refine checker.diagnostics_collect_perm program (h.trans h'.symm) fun p hp q hq => ?_
    exact hagree p (h.mem_iff.mp hp) q (h.mem_iff.mp hq)

/-! ## Two packages that disagree

Both packages have a file of one name, and drop the error of a call at one place outside of its
text; each calls a function of its own. -/

/-- A call of the function `f` of a package, which returns an error. -/
def bareCall (pkg : String) : Call :=
  .mk (.ident ⟨"f", 0, some (.func (some pkg) "f" none none), none⟩) [] (-1) (-1) (some .error) none

/-- The body of a function that drops the error of `bareCall`. -/
def droppingBody (pkg : String) : Block := .mk [.expr (.call (bareCall pkg))] 0

/-- The function with that body. -/
def droppingFunc (pkg : String) : FuncDecl :=
  ⟨⟨"main", 0, none, none⟩, 0, some (droppingBody pkg), none⟩

/-- A package with one file, which has nothing but this function. -/
def droppingPackage (path : String) : Package where
  path := path
  name := path
  files := [{
    name := "a.go"
    tree := ⟨path, 0, [.func (droppingFunc path)]⟩
    source := ⟨"a.go", ""⟩
    buildTags := [] }]
  errors := []
  isTestVariant := false

/-- The program of two such packages. -/
def disagreeingProgram : Program := ⟨[droppingPackage "p", droppingPackage "q"], none, .initial⟩

/-- A checker without modes and rules. -/
def plainChecker : Checker := ⟨{}, ⟨none, .empty, [], []⟩⟩

/-- The one diagnostic of such a package. -/
def droppedDiagnostic (path : String) : Diagnostic :=
  Site.diagnostic ⟨"a.go", ""⟩ ⟨.uncheckedCall, -1, some (bareCall path)⟩

theorem sites_droppingFunc (modes : Modes) (excluded : Call → Bool) (pkg : String) :
    File.sites modes excluded ⟨pkg, 0, [.func (droppingFunc pkg)]⟩ =
      callSites excluded (bareCall pkg) := by
  have hwalk : Visit.walk (.file ⟨pkg, 0, [.func (droppingFunc pkg)]⟩) = [
      ⟨.file ⟨pkg, 0, [.func (droppingFunc pkg)]⟩, []⟩, ⟨.funcDecl (droppingFunc pkg), [0]⟩,
      ⟨.ident (droppingFunc pkg).name, [0, 0]⟩, ⟨.block (droppingBody pkg), [1, 0]⟩,
      ⟨.stmt (.expr (.call (bareCall pkg))), [0, 1, 0]⟩, ⟨.call (bareCall pkg), [0, 0, 1, 0]⟩,
      ⟨.expr (bareCall pkg).fn, [0, 0, 0, 1, 0]⟩] := by
    simp [Visit.walk, Visit.walkAll, Visit.children, Node.children, Node.decl, droppingFunc,
      droppingBody, bareCall, Node.ident, Node.block, Node.call, Node.ofStmt, Node.stmts,
      Node.ofExpr, Node.exprs, Call.fn]
  rw [File.sites, hwalk]
  exact List.nil_append _

theorem check_droppingPackage (path : String) (types : TypeTable) :
    plainChecker.check types (droppingPackage path) = [droppedDiagnostic path] := by
  have hexcluded : plainChecker.index.excludes types (bareCall path) = false := by
    simp [plainChecker, ExclusionIndex.excludes, bareCall, Call.callee?, Call.calleeIdent?, Call.fn,
      ExclusionIndex.matchesPattern, ExclusionIndex.matchesSymbol, Call.argumentName?, Call.args,
      OrderedMap.empty, OrderedMap.get?, OrderedMap.lookup, Object.pkg]
  have hfiles : (droppingPackage path).files.filter plainChecker.looksAt =
      (droppingPackage path).files := rfl
  rw [Checker.check, hfiles, droppingPackage, List.flatMap_singleton, ParsedFile.diagnostics,
    sites_droppingFunc, callSites, hexcluded]
  rfl

/-- The order of completion can matter: one of two packages is named as the callee's, whichever
completes first. -/
theorem Checker.diagnostics_depend_on_order :
    ¬ ∀ completed completed' : List Package, completed.Perm (tasks disagreeingProgram) →
      completed'.Perm (tasks disagreeingProgram) →
        (plainChecker.collect disagreeingProgram completed).diagnostics =
          (plainChecker.collect disagreeingProgram completed').diagnostics := by
  intro h
  have hp : droppingPackage "p" ∈ tasks disagreeingProgram := List.mem_cons_self
  have hq : droppingPackage "q" ∈ tasks disagreeingProgram :=
    List.mem_cons_of_mem _ List.mem_cons_self
  have hagree := plainChecker.agreeOnFindings_of_perm disagreeingProgram h hp hq
  rw [check_droppingPackage, check_droppingPackage] at hagree
  have heq : droppedDiagnostic "p" = droppedDiagnostic "q" :=
    hagree (droppedDiagnostic "p").key _ _ (by decide) (by decide)
  exact absurd heq (by decide)

end UncheckedErrors
