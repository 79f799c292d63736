import UncheckedErrors.Load
import UncheckedErrors.Proofs.Depths
import UncheckedErrors.Proofs.Descents
import UncheckedErrors.Proofs.TypeEntries

/-!
# The order of type definitions

A type may be used before it is defined, so the definitions of a dump may stand anywhere among its
forms. If a sequence of forms is another with only type definitions moved (`Reordered`), then both
are read or neither is: whether forms fit together does not depend on their order
(`FitTogether.of_perm`).

The two programs have the same packages. Their tables enter the named types in different orders but
define them alike (`TypeTable.Alike`), and nothing that is told from a table depends on more than
that: method sets, chains of selections, excluded calls, the steps that a check takes, and
diagnostics (`definitions_anywhere`).
-/

namespace UncheckedErrors

/-! ## Tables that define alike -/

namespace TypeTable

/-- The tables define the same names, each as the same type. The order of their entries is left
open. -/
def Alike (table table' : TypeTable) : Prop :=
  ∀ n, table.definition? n = table'.definition? n

/-- The way down to an interface without the proofs that it ends. -/
theorem descend_eq (table : TypeTable) (id : String) (visited : List TypeName) (current : GoType) :
    table.descend id visited current =
      match table.view current with
      | (some owner, .interface _ embedded) =>
        if owner ∈ visited then none
        else if table.explicitlyDeclares current id then some []
        else
          match table.supplier? id embedded with
          | some next => (table.descend id (owner :: visited) next).map (next :: ·)
          | none => none
      | (none, .interface _ embedded) =>
        if table.explicitlyDeclares current id then some []
        else
          match table.supplier? id embedded with
          | some next => (table.descend id visited next).map (next :: ·)
          | none => none
      | _ => none := by
  rw [TypeTable.descend]
  obtain ⟨owner, u⟩ := table.view current
  cases u with
  | interface methods embedded =>
    cases owner with
    | some owner => rfl
    | none =>
      dsimp only
      cases table.supplier? id embedded <;> rfl
  | _ => cases owner <;> rfl

namespace Alike

variable {table table' : TypeTable} (h : table.Alike table')

include h

theorem resolve? (limit : Nat) (n : TypeName) :
    table.resolve? limit n = table'.resolve? limit n := by
  induction limit generalizing n with
  | zero => rfl
  | succ limit ih =>
    rw [TypeTable.resolve?, TypeTable.resolve?, h n]
    split
    · rfl
    · exact ih _
    · rfl

theorem view (t : GoType) : table.view t = table'.view t := by
  cases t with
  | named n => rw [TypeTable.view, TypeTable.view, h.resolve?]
  | _ => rfl

theorem unname (t : GoType) : table.unname t = table'.unname t := by
  rw [TypeTable.unname, TypeTable.unname, h.view]

theorem isInterface (t : GoType) : table.isInterface t = table'.isInterface t := by
  rw [TypeTable.isInterface, TypeTable.isInterface, h.unname]

theorem explicitMethods (t : GoType) : table.explicitMethods t = table'.explicitMethods t := by
  rw [TypeTable.explicitMethods, TypeTable.explicitMethods, h.view]

theorem explicitlyDeclares (t : GoType) (id : String) :
    table.explicitlyDeclares t id = table'.explicitlyDeclares t id := by
  rw [TypeTable.explicitlyDeclares, TypeTable.explicitlyDeclares, h.explicitMethods]

theorem methodsFrom (visited : List TypeName) (work : List GoType) :
    table.methodsFrom visited work = table'.methodsFrom visited work := by
  fun_induction table.methodsFrom visited work with
  | case1 visited => rw [TypeTable.methodsFrom]
  | case2 visited t work owner methods embedded hview hvisited ih =>
    rw [methodsFrom_cons, ← h.view, hview]
    exact ih.trans (if_pos hvisited).symm
  | case3 visited t work owner methods embedded hview hvisited ih =>
    rw [methodsFrom_cons, ← h.view, hview, ih]
    exact (if_neg hvisited).symm
  | case4 visited t work methods embedded hview ih => rw [methodsFrom_cons, ← h.view, hview, ih]
  | case5 visited t work hnamed hliteral ih =>
    rw [methodsFrom_cons, ← h.view]
    split
    · exact absurd ‹_› (hnamed _ _ _)
    · exact absurd ‹_› (hliteral _ _)
    · exact ih

theorem declares (t : GoType) (id : String) : table.declares t id = table'.declares t id := by
  rw [TypeTable.declares, TypeTable.declares, TypeTable.allMethods, TypeTable.allMethods,
    h.methodsFrom]

theorem supplier? (id : String) (embedded : List GoType) :
    table.supplier? id embedded = table'.supplier? id embedded := by
  simp only [TypeTable.supplier?, h.isInterface, h.declares]

theorem descend (id : String) (visited : List TypeName) (current : GoType) :
    table.descend id visited current = table'.descend id visited current := by
  have hstep (visited : List TypeName) (current : GoType) :=
    descend_eq table' id visited current
  simp only [← h.view, ← h.explicitlyDeclares, ← h.supplier?] at hstep
  fun_induction table.descend id visited current with
  | case1 visited current owner methods embedded hview hvisited =>
    rw [hstep, hview]
    exact (if_pos hvisited).symm
  | case2 visited current owner methods embedded hview hvisited hdeclares =>
    rw [hstep, hview]
    simp only [if_neg hvisited, if_pos hdeclares]
  | case3 visited current owner methods embedded hview hvisited hdeclares next hnext ih =>
    rw [hstep, hview]
    simp only [if_neg hvisited, if_neg hdeclares, hnext, ih]
  | case4 visited current owner methods embedded hview hvisited hdeclares hnext =>
    rw [hstep, hview]
    simp only [if_neg hvisited, if_neg hdeclares, hnext]
  | case5 visited current methods embedded hview hdeclares =>
    rw [hstep, hview]
    exact (if_pos hdeclares).symm
  | case6 visited current methods embedded hview hdeclares next hnext ih =>
    rw [hstep, hview]
    simp only [if_neg hdeclares, hnext, ih]
  | case7 visited current methods embedded hview hdeclares hnext =>
    rw [hstep, hview]
    simp only [if_neg hdeclares, hnext]
  | case8 visited current hnamed hliteral =>
    rw [hstep]
    split
    · exact absurd ‹_› (hnamed _ _ _)
    · exact absurd ‹_› (hliteral _ _)
    · rfl

theorem fieldPath (current : GoType) (indices : List Int) :
    table.fieldPath current indices = table'.fieldPath current indices := by
  induction indices generalizing current with
  | nil => rfl
  | cons i rest ih => simp only [TypeTable.fieldPath, h.unname, ih]

theorem chain? (selection : Selection) : table.chain? selection = table'.chain? selection := by
  simp only [TypeTable.chain?, TypeTable.chain, h.fieldPath, h.isInterface, h.descend]

theorem walkDepth (visited : List TypeName) (work : List (Nat × GoType)) :
    table.walkDepth visited work = table'.walkDepth visited work := by
  induction visited, work using TypeTable.walkDepth.induct table with
  | case1 visited => rw [TypeTable.walkDepth, TypeTable.walkDepth]
  | case2 visited depth t work ih ihnamed ihliteral =>
    rw [walkDepth_cons, walkDepth_cons, ← h.view]
    refine congrArg _ ?_
    split
    · rename_i owner methods embedded hview
      split
      · exact ih
      · exact ihnamed _ _ _ hview ‹_›
    · exact ihliteral _ _ ‹_›
    · exact ih

theorem methodsDepth (t : GoType) : table.methodsDepth t = table'.methodsDepth t := by
  rw [TypeTable.methodsDepth, TypeTable.methodsDepth, h.walkDepth]

theorem supplierDepth (id : String) (embedded : List GoType) :
    table.supplierDepth id embedded = table'.supplierDepth id embedded := by
  induction embedded with
  | nil => rfl
  | cons t ts ih =>
    simp only [TypeTable.supplierDepth, h.isInterface, h.methodsDepth, h.declares, ih]

theorem descentDepth (id : String) (visited : List TypeName) (current : GoType) :
    table.descentDepth id visited current = table'.descentDepth id visited current := by
  have hstep (visited : List TypeName) (current : GoType) :=
    descentDepth_eq table' id visited current
  simp only [← h.view, ← h.explicitlyDeclares, ← h.supplier?, ← h.supplierDepth] at hstep
  induction visited, current using TypeTable.descentDepth.induct table id with
  | case1 visited current owner methods embedded hview hstop =>
    rw [descentDepth_eq, hstep, hview]
    simp only [hstop, if_true]
  | case2 visited current owner methods embedded hview hgo ih =>
    rw [descentDepth_eq, hstep, hview]
    simp only [hgo, ih]
  | case3 visited current methods embedded hview hstop =>
    rw [descentDepth_eq, hstep, hview]
    simp only [hstop, if_true]
  | case4 visited current methods embedded hview hgo ih =>
    rw [descentDepth_eq, hstep, hview]
    dsimp only
    cases hnext : table.supplier? id embedded with
    | none => rfl
    | some next =>
      dsimp only
      rw [ih next hnext]
  | case5 visited current hnamed hliteral =>
    rw [descentDepth_eq, hstep]
    split
    · exact absurd ‹_› (hnamed _ _ _)
    · exact absurd ‹_› (hliteral _ _)
    · rfl

theorem excludes (index : ExclusionIndex) (c : Call) :
    index.excludes table c = index.excludes table' c := by
  simp only [ExclusionIndex.excludes, ExclusionIndex.namesOf, h.chain?]

theorem chainDepth (selection : Selection) :
    table.chainDepth selection = table'.chainDepth selection := by
  simp only [TypeTable.chainDepth, h.fieldPath, h.descentDepth]

theorem excludesDepth (index : ExclusionIndex) (c : Call) :
    index.excludesDepth table c = index.excludesDepth table' c := by
  have hchainDepth : table.chainDepth = table'.chainDepth := funext h.chainDepth
  have hchain : table.chain? = table'.chain? := funext h.chain?
  simp only [ExclusionIndex.excludesDepth, ExclusionIndex.namesDepth, hchainDepth, hchain]

theorem depth (modes : Modes) (index : ExclusionIndex) (file : ParsedFile) :
    file.depth modes index table = file.depth modes index table' := by
  have hexcludes : index.excludes table = index.excludes table' := funext (h.excludes index)
  simp only [ParsedFile.depth, h.excludesDepth, hexcludes]

end Alike

end TypeTable

/-! ## Reordered forms -/

/-- Whether a form is headed `typedef`. -/
def Datum.isTypedef : Datum → Bool
  | .list (.symbol "typedef" :: _) => true
  | _ => false

theorem isTypedef_of_contribution? {root : SourceRoot} {d : Datum} {c : Contribution}
    (h : d.contribution? root = some c) : d.isTypedef = c.defined?.isSome := by
  unfold Datum.contribution? at h
  split at h
  · split at h
    · cases h
      rfl
    · cases h
  · split at h
    · cases h
      rfl
    · cases h
  · split at h
    · cases h
      rfl
    · cases h
  · cases h

theorem contributions_filter (root : SourceRoot) (forms : List Datum) :
    contributions root (forms.filter (!·.isTypedef)) =
      (contributions root forms).filter (·.defined?.isNone) := by
  rw [contributions, contributions, List.filterMap_filter, List.filter_filterMap]
  refine List.filterMap_congr fun d _ => ?_
  cases hd : d.contribution? root with
  | none => simp
  | some c =>
    rw [isTypedef_of_contribution? hd]
    cases c <;> rfl

/-- Definitions add nothing to the parts of a program. -/
theorem ProgramParts.addAll_filter (parts : ProgramParts) (cs : List Contribution) :
    parts.addAll (cs.filter (·.defined?.isNone)) = parts.addAll cs := by
  induction cs generalizing parts with
  | nil => rfl
  | cons c cs ih =>
    cases c with
    | mod mode => exact ih _
    | definition n t inType inMethods => exact ih parts
    | package p names => exact ih _

theorem FitTogether.of_perm {cs cs' : List Contribution} {table : TypeTable}
    (h : FitTogether cs table) (hperm : cs.Perm cs') : FitTogether cs' table where
  nodup := (hperm.filterMap _).nodup_iff.mp h.nodup
  new hn := h.new ((hperm.filterMap _).mem_iff.mpr hn)

/-- Definitions that fit together come out the same in any order. -/
theorem FitTogether.alike {cs cs' : List Contribution} {table : TypeTable}
    (h : FitTogether cs table) (hperm : cs.Perm cs') :
    (table.performAll (cs.flatMap Contribution.events)).Alike
      (table.performAll (cs'.flatMap Contribution.events)) := by
  intro n
  refine Option.ext fun t => ?_
  rw [definition?_of_fitTogether h, definition?_of_fitTogether (h.of_perm hperm)]
  simp only [hperm.mem_iff]

/-- A program is read exactly if its forms contribute something each and fit together. -/
theorem readProgram_eq_ok {root : SourceRoot} {head : Datum} {forms : List Datum}
    {program : Program} :
    readProgram root (.list (head :: forms)) = .ok program ↔
      head = .symbol "program" ∧ (∀ d ∈ forms, (d.contribution? root).isSome) ∧
        FitTogether (contributions root forms) .initial ∧
        ∃ parts, (⟨none, []⟩ : ProgramParts).addAll (contributions root forms) = parts ∧
          program = ⟨parts.packages, parts.mod,
            TypeTable.initial.performAll (tableEvents root forms)⟩ := by
  unfold readProgram
  simp only [exceptBind_eq_ok, exceptPure_eq_ok, StateT.run, Prod.exists, bind_eq_ok,
    Reader.lift_eq_ok, liftM_eq_ok, Form.tagged_eq_ok, readTopLevels_eq_ok]
  constructor
  · rintro ⟨_, _, ⟨⟨tag, args⟩, _, ⟨⟨hd, rfl, -⟩, rfl⟩, hread, hfit, rfl, rfl⟩, rfl⟩
    cases hd
    exact ⟨rfl, hread, hfit, _, rfl, rfl⟩
  · rintro ⟨rfl, hread, hfit, _, rfl, rfl⟩
    exact ⟨_, _, ⟨⟨"program", forms⟩, _, ⟨⟨rfl, rfl, Nat.zero_le _⟩, rfl⟩, hread, hfit, rfl, rfl⟩,
      rfl⟩

/-- The programs differ at most in the order in which named types were entered. -/
structure Program.Alike (program program' : Program) : Prop where
  packages : program.packages = program'.packages
  mod : program.mod = program'.mod
  types : program.types.Alike program'.types

/-- What the packages hand in depends on them and on the definitions of types. -/
theorem Program.Alike.collect {program program' : Program} (h : program.Alike program')
    (checker : Checker) (completed : List Package) :
    checker.collect program completed = checker.collect program' completed := by
  have hexcludes : checker.index.excludes program.types = checker.index.excludes program'.types :=
    funext (h.types.excludes checker.index)
  have hhandIn : checker.handIn program.types = checker.handIn program'.types := by
    funext results p
    rw [Checker.handIn, Checker.handIn, Checker.check, Checker.check, hexcludes]
  rw [Checker.collect, Checker.collect, hhandIn, Checker.skipped, Checker.skipped, h.packages]

theorem Program.Alike.run {program program' : Program} (h : program.Alike program')
    (checker : Checker) (jobs : Option Int) (steps : Nat) :
    checker.run jobs program steps = checker.run jobs program' steps := by
  have htasks : Checker.tasks program = Checker.tasks program' := by
    rw [Checker.tasks, Checker.tasks, h.packages]
  have hdepth : checker.depth program.types = checker.depth program'.types := by
    funext p
    simp only [Checker.depth, h.types.depth]
  rw [Checker.run, Checker.run, Checker.workload, Checker.workload, Checker.need, Checker.need,
    Checker.results, Checker.results, hdepth, htasks, h.collect]

/-- One sequence of forms is another with only type definitions moved. -/
structure Reordered (forms forms' : List Datum) : Prop where
  perm : forms.Perm forms'
  others : forms.filter (!·.isTypedef) = forms'.filter (!·.isTypedef)

theorem Reordered.symm {forms forms' : List Datum} (h : Reordered forms forms') :
    Reordered forms' forms :=
  ⟨h.perm.symm, h.others.symm⟩

section

variable {root : SourceRoot} {head : Datum} {forms forms' : List Datum}
  (hreordered : Reordered forms forms')

include hreordered

theorem Reordered.readProgram {program : Program}
    (h : readProgram root (.list (head :: forms)) = .ok program) :
    ∃ program', readProgram root (.list (head :: forms')) = .ok program' ∧
      program.Alike program' := by
  obtain ⟨rfl, hread, hfit, _, rfl, rfl⟩ := readProgram_eq_ok.mp h
  have hperm : (contributions root forms).Perm (contributions root forms') :=
    hreordered.perm.filterMap _
  have hparts (parts : ProgramParts) :
      parts.addAll (contributions root forms) = parts.addAll (contributions root forms') := by
    rw [← parts.addAll_filter, ← contributions_filter, hreordered.others, contributions_filter,
      parts.addAll_filter]
  refine ⟨_, readProgram_eq_ok.mpr ⟨rfl, ?_, hfit.of_perm hperm, _, rfl, rfl⟩, ?_⟩
  · exact fun d hd => hread d (hreordered.perm.mem_iff.mpr hd)
  · exact ⟨by rw [hparts], by rw [hparts], hfit.alike hperm⟩

end

/-- What is selected from programs that are alike is alike. -/
theorem Program.Alike.select {program program' selected : Program} (h : program.Alike program')
    {config : LoadConfig} (hselect : (config.select program).2 = .ok selected) :
    ∃ selected', (config.select program').2 = .ok selected' ∧ selected.Alike selected' := by
  obtain ⟨packages, mod, table⟩ := program
  obtain ⟨packages', mod', table'⟩ := program'
  obtain ⟨rfl, rfl, htypes⟩ := h
  have htable : selected.types = table := LoadConfig.types_of_select hselect
  refine ⟨{ selected with types := table' }, ?_, rfl, rfl, ?_⟩
  · rw [LoadConfig.select_types config packages mod table, hselect]
    rfl
  · rw [htable]
    exact htypes

theorem loadText_eq_ok {root : SourceRoot} {config : LoadConfig} {filename text : String}
    {d : Datum} {selected : Program} (hparse : Datum.parse text = .ok d) :
    (loadText root config filename text).outcome = .ok selected ↔
      ∃ program, readProgram root d = .ok program ∧ (config.select program).2 = .ok selected := by
  unfold loadText
  simp only [hparse]
  cases readProgram root d with
  | error e => simp
  | ok program =>
    simp only [Except.ok.injEq, exists_eq_left']
    cases (config.select program).2 with
    | error fault => simp [Except.mapError]
    | ok p => simp [Except.mapError]

theorem Reordered.loadText {forms forms' : List Datum} (h : Reordered forms forms')
    {root : SourceRoot} {config : LoadConfig} {filename filename' text text' : String}
    {head : Datum} (hparse : Datum.parse text = .ok (.list (head :: forms)))
    (hparse' : Datum.parse text' = .ok (.list (head :: forms'))) {program : Program}
    (hload : (loadText root config filename text).outcome = .ok program) :
    ∃ program', (loadText root config filename' text').outcome = .ok program' ∧
      program.Alike program' := by
  obtain ⟨read, hread, hselect⟩ := (loadText_eq_ok hparse).mp hload
  obtain ⟨read', hread', halike⟩ := h.readProgram hread
  obtain ⟨program', hselect', halike'⟩ := halike.select hselect
  exact ⟨program', (loadText_eq_ok hparse').mpr ⟨read', hread', hselect'⟩, halike'⟩

/-- Where the type definitions of a dump stand makes no difference: it loads or not, and if it does,
the packages, the definitions of types, the excluded calls and the diagnostics are the same. -/
theorem definitions_anywhere {root : SourceRoot} {config : LoadConfig}
    {filename filename' text text' : String} {head : Datum} {forms forms' : List Datum}
    (hparse : Datum.parse text = .ok (.list (head :: forms)))
    (hparse' : Datum.parse text' = .ok (.list (head :: forms'))) (hperm : forms.Perm forms')
    (hothers : forms.filter (!·.isTypedef) = forms'.filter (!·.isTypedef)) :
    ((∃ program, (loadText root config filename text).outcome = .ok program) ↔
      ∃ program', (loadText root config filename' text').outcome = .ok program') ∧
    ∀ program program', (loadText root config filename text).outcome = .ok program →
      (loadText root config filename' text').outcome = .ok program' →
      program.packages = program'.packages ∧ program.mod = program'.mod ∧
      (∀ n, program.types.definition? n = program'.types.definition? n) ∧
      (∀ (index : ExclusionIndex) c,
        index.excludes program.types c = index.excludes program'.types c) ∧
      (∀ (checker : Checker) completed, (checker.collect program completed).diagnostics =
        (checker.collect program' completed).diagnostics) ∧
      ∀ (checker : Checker) jobs steps, (checker.run jobs program steps).map (·.diagnostics) =
        (checker.run jobs program' steps).map (·.diagnostics) := by
  have hreordered : Reordered forms forms' := ⟨hperm, hothers⟩
  refine ⟨⟨?_, ?_⟩, ?_⟩
  · rintro ⟨program, hload⟩
    exact (hreordered.loadText hparse hparse' hload).imp fun _ h => h.1
  · rintro ⟨program', hload'⟩
    exact (hreordered.symm.loadText hparse' hparse hload').imp fun _ h => h.1
  · intro program program' hload hload'
    obtain ⟨other, hother, halike⟩ := hreordered.loadText hparse hparse' hload
    rw [hload'] at hother
    cases hother
    refine ⟨halike.packages, halike.mod, halike.types, halike.types.excludes, ?_, ?_⟩
    · exact fun checker completed => congrArg _ (halike.collect checker completed)
    · exact fun checker jobs steps => congrArg _ (halike.run checker jobs steps)

/-- A dump of a package, with two types that stand for each other behind it. -/
def definitionsLast : String :=
  "(program (package p p (file f (source))) (typedef p T (pointer (named p U)))" ++
    " (typedef p U (slice (named p T))))"

/-- The same dump with the types around the package. -/
def definitionsAround : String :=
  "(program (typedef p U (slice (named p T))) (package p p (file f (source)))" ++
    " (typedef p T (pointer (named p U))))"

def lonePackage : Datum :=
  .list [.symbol "package", .symbol "p", .symbol "p", .list [.symbol "file", .symbol "f",
    .list [.symbol "source"]]]

def pointerTypedef : Datum :=
  .list [.symbol "typedef", .symbol "p", .symbol "T",
    .list [.symbol "pointer", .list [.symbol "named", .symbol "p", .symbol "U"]]]

def sliceTypedef : Datum :=
  .list [.symbol "typedef", .symbol "p", .symbol "U",
    .list [.symbol "slice", .list [.symbol "named", .symbol "p", .symbol "T"]]]

theorem toList_ofList_append (cs ds : List Char) :
    (String.ofList cs ++ String.ofList ds).toList = cs ++ ds := by
  rw [String.toList_append, String.toList_ofList, String.toList_ofList]

theorem parse_definitionsLast : Datum.parse definitionsLast =
    .ok (.list [.symbol "program", lonePackage, pointerTypedef, sliceTypedef]) :=
  Datum.parse_of_toList (toList_ofList_append _ _) rfl

theorem parse_definitionsAround : Datum.parse definitionsAround =
    .ok (.list [.symbol "program", sliceTypedef, lonePackage, pointerTypedef]) :=
  Datum.parse_of_toList (toList_ofList_append _ _) rfl

theorem definitionsAround_alike :
    ∃ program program',
      (loadText ⟨⟨[], []⟩, .ofString "."⟩ {} "last" definitionsLast).outcome = .ok program ∧
      (loadText ⟨⟨[], []⟩, .ofString "."⟩ {} "around" definitionsAround).outcome = .ok program' ∧
      program.types.names ≠ program'.types.names ∧ program.packages = program'.packages ∧
      ∀ (index : ExclusionIndex) c,
        index.excludes program.types c = index.excludes program'.types c := by
  have hload : (loadText ⟨⟨[], []⟩, .ofString "."⟩ {} "last" definitionsLast).outcome = .ok _ :=
    (loadText_eq_ok parse_definitionsLast).mpr ⟨_, rfl, rfl⟩
  have hload' :
      (loadText ⟨⟨[], []⟩, .ofString "."⟩ {} "around" definitionsAround).outcome = .ok _ :=
    (loadText_eq_ok parse_definitionsAround).mpr ⟨_, rfl, rfl⟩
  have hperm : ([lonePackage, pointerTypedef] ++ [sliceTypedef]).Perm
      ([sliceTypedef] ++ [lonePackage, pointerTypedef]) := List.perm_append_comm
  obtain ⟨-, halike⟩ :=
    definitions_anywhere parse_definitionsLast parse_definitionsAround hperm rfl
  obtain ⟨hpackages, -, -, hexcludes, -⟩ := halike _ _ hload hload'
  exact ⟨_, _, hload, hload', by decide, hpackages, hexcludes⟩

end UncheckedErrors
