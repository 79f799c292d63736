import Mathlib.Data.List.Flatten
import UncheckedErrors.Proofs.SharedFiles

/-!
# The switches for files

A configuration has a switch for test files and one for generated files. A check looks at the second
one only: test files are left out when a program is loaded, by a switch of its own.

So generated files are always treated as the configuration says, and test files exactly if they have
no findings to report (`Checker.switches_honoured_iff`), as in a program that was loaded with the
same switch.
-/

namespace UncheckedErrors

/-- Whether both switches let a file be looked at. -/
def Exclusions.wants (exclusions : Exclusions) (file : ParsedFile) : Bool :=
  (exclusions.testFiles || !file.isTest) && (exclusions.generatedFiles || !file.isGenerated)

/-- The configuration with both switches on. -/
def Exclusions.withAllFiles (exclusions : Exclusions) : Exclusions :=
  { exclusions with testFiles := true, generatedFiles := true }

/-- The package with the files that are kept. -/
def Package.keep (p : Package) (kept : ParsedFile → Bool) : Package :=
  { p with files := p.files.filter kept }

/-- The program with the files that are kept. -/
def Program.keep (program : Program) (kept : ParsedFile → Bool) : Program :=
  { program with packages := program.packages.map (·.keep kept) }

namespace Checker

/-- The checker with both switches on. -/
def withAllFiles (checker : Checker) : Checker :=
  { checker with exclusions := checker.exclusions.withAllFiles }

/-- Of the package only the kept files are checked: what comes out is what a check of them gives
with both switches on. -/
def ChecksOnly (checker : Checker) (types : TypeTable) (p : Package) (kept : ParsedFile → Bool) :
    Prop :=
  checker.check types p = checker.withAllFiles.check types (p.keep kept)

/-- Of the program only the kept files are checked: in whatever order the tasks complete, the
findings that come out are those of a run over these files with both switches on. -/
def RunsOnly (checker : Checker) (program : Program) (kept : ParsedFile → Bool) : Prop :=
  ∀ completed completed' : List Package, completed.Perm (tasks program) →
    completed'.Perm (tasks (program.keep kept)) →
      (checker.collect program completed).diagnostics.map Diagnostic.key =
        (checker.withAllFiles.collect (program.keep kept) completed').diagnostics.map
          Diagnostic.key

/-- What is found in the test files of a package that the checker looks at. -/
def testFindings (checker : Checker) (types : TypeTable) (p : Package) : List Diagnostic :=
  checker.check types (p.keep (·.isTest))

/-- Leaving elements out makes no difference exactly if nothing comes of them. -/
theorem flatMap_eq_flatMap_filter_iff {α β : Type} (xs : List α) (kept : α → Bool)
    (f : α → List β) :
    xs.flatMap f = (xs.filter kept).flatMap f ↔ (xs.filter (!kept ·)).flatMap f = [] := by
  have hlength := ((List.filter_append_perm kept xs).flatMap_right f).length_eq
  rw [List.flatMap_append, List.length_append] at hlength
  constructor
  · intro h
    rw [h] at hlength
    exact List.eq_nil_of_length_eq_zero (by omega)
  · intro h
    rw [h, List.length_nil, Nat.add_zero] at hlength
    exact (((List.filter_sublist).flatMap f).eq_of_length hlength).symm

/-! ## Packages -/

section

variable (checker : Checker) (types : TypeTable)

/-- Both switches on, every file is looked at. -/
theorem check_withAllFiles_keep (p : Package) (kept : ParsedFile → Bool) :
    checker.withAllFiles.check types (p.keep kept) =
      (p.files.filter kept).flatMap
        (·.diagnostics checker.modes (checker.index.excludes types)) := by
  have hall : (p.files.filter kept).filter checker.withAllFiles.looksAt = p.files.filter kept :=
    List.filter_eq_self.mpr fun _ _ => rfl
  rw [check, Package.keep, hall]
  rfl

theorem checksOnly_looksAt (p : Package) : checker.ChecksOnly types p checker.looksAt := by
  rw [ChecksOnly, check_withAllFiles_keep, check]

theorem wants_eq (file : ParsedFile) :
    checker.exclusions.wants file =
      ((checker.exclusions.testFiles || !file.isTest) && checker.looksAt file) := rfl

variable {checker types}

theorem mem_check {p : Package} {d : Diagnostic} :
    d ∈ checker.check types p ↔ ∃ file ∈ p.files, checker.looksAt file = true ∧
      d ∈ file.diagnostics checker.modes (checker.index.excludes types) := by
  simp only [check, List.mem_flatMap, List.mem_filter, and_assoc]

theorem mem_testFindings {p : Package} {d : Diagnostic} :
    d ∈ checker.testFindings types p ↔ ∃ file ∈ p.files, file.isTest = true ∧
      checker.looksAt file = true ∧
        d ∈ file.diagnostics checker.modes (checker.index.excludes types) := by
  simp only [testFindings, mem_check, Package.keep, List.mem_filter, and_assoc]

theorem mem_check_wanted {p : Package} {d : Diagnostic} :
    d ∈ checker.withAllFiles.check types (p.keep checker.exclusions.wants) ↔
      ∃ file ∈ p.files, checker.exclusions.wants file = true ∧
        d ∈ file.diagnostics checker.modes (checker.index.excludes types) := by
  simp only [check_withAllFiles_keep, List.mem_flatMap, List.mem_filter, and_assoc]

/-- What comes out of a check comes from a wanted file or from a test file. -/
theorem mem_check_iff {p : Package} {d : Diagnostic} :
    d ∈ checker.check types p ↔
      d ∈ checker.withAllFiles.check types (p.keep checker.exclusions.wants) ∨
        d ∈ checker.testFindings types p := by
  rw [mem_check, mem_check_wanted, mem_testFindings]
  constructor
  · rintro ⟨file, hfile, hlooks, hd⟩
    cases htest : file.isTest with
    | false => exact .inl ⟨file, hfile, by rw [wants_eq, htest, hlooks]; simp, hd⟩
    | true => exact .inr ⟨file, hfile, htest, hlooks, hd⟩
  · rintro (⟨file, hfile, hwanted, hd⟩ | ⟨file, hfile, -, hlooks, hd⟩)
    · rw [wants_eq, Bool.and_eq_true] at hwanted
      exact ⟨file, hfile, hwanted.2, hd⟩
    · exact ⟨file, hfile, hlooks, hd⟩

/-- Of a package only the wanted files are checked exactly if test files are to be looked at or
nothing is found in them. -/
theorem checksOnly_wants_iff {p : Package} :
    checker.ChecksOnly types p checker.exclusions.wants ↔
      checker.exclusions.testFiles = true ∨ checker.testFindings types p = [] := by
  have hwanted : p.files.filter checker.exclusions.wants =
      (p.files.filter checker.looksAt).filter
        fun file => checker.exclusions.testFiles || !file.isTest := by
    rw [List.filter_filter]
    rfl
  rw [ChecksOnly, check_withAllFiles_keep, check, hwanted, flatMap_eq_flatMap_filter_iff]
  cases checker.exclusions.testFiles with
  | true => simp
  | false =>
    have htests : (p.files.filter checker.looksAt).filter (fun file => !(false || !file.isTest)) =
        (p.files.filter (·.isTest)).filter checker.looksAt := by
      rw [List.filter_filter, List.filter_filter]
      simp [Bool.and_comm]
    rw [htests]
    exact (or_iff_right Bool.false_ne_true).symm

end

/-! ## Programs -/

section

variable {checker : Checker} {program : Program}

/-- The findings that come out of a run are those of its packages. -/
theorem mem_keys_collect {completed : List Package} (hperm : completed.Perm (tasks program))
    {k : Diagnostic.Key} :
    k ∈ (checker.collect program completed).diagnostics.map Diagnostic.key ↔
      ∃ p ∈ program.packages, ∃ d ∈ checker.check program.types p, d.key = k := by
  rw [RunResults.mem_keys_diagnostics]
  simp only [List.mem_map, mem_merged_collect, hperm.mem_iff, tasks, List.mem_filter]
  constructor
  · rintro ⟨d, ⟨p, ⟨hp, -⟩, hd⟩, rfl⟩
    exact ⟨p, hp, d, hd, rfl⟩
  · rintro ⟨p, hp, d, hd, rfl⟩
    obtain ⟨file, hfile, -⟩ := mem_check.mp hd
    exact ⟨d, ⟨p, ⟨hp, by simpa using List.ne_nil_of_mem hfile⟩, hd⟩, rfl⟩

theorem mem_keys_collect_keep {kept : ParsedFile → Bool} {completed : List Package}
    (hperm : completed.Perm (tasks (program.keep kept))) {k : Diagnostic.Key} :
    k ∈ (checker.collect (program.keep kept) completed).diagnostics.map Diagnostic.key ↔
      ∃ p ∈ program.packages, ∃ d ∈ checker.check program.types (p.keep kept), d.key = k := by
  rw [mem_keys_collect hperm]
  simp only [Program.keep, List.mem_map, exists_exists_and_eq_and]

/-- If of each package only the kept files are checked, then of the program. -/
theorem runsOnly_of_checksOnly {kept : ParsedFile → Bool}
    (h : ∀ p ∈ program.packages, checker.ChecksOnly program.types p kept) :
    checker.RunsOnly program kept := by
  intro completed completed' hperm hperm'
  refine eq_of_strict (RunResults.strict_diagnostics _).map (RunResults.strict_diagnostics _).map
    fun k => ?_
  rw [mem_keys_collect hperm, mem_keys_collect_keep hperm']
  refine exists_congr fun p => and_congr_right fun hp => ?_
  rw [h p hp]

/-- Of a program only the wanted files are checked exactly if test files are to be looked at or each
finding there is one of a wanted file as well. -/
theorem runsOnly_wants_iff :
    checker.RunsOnly program checker.exclusions.wants ↔
      checker.exclusions.testFiles = true ∨
        ∀ p ∈ program.packages, ∀ d ∈ checker.testFindings program.types p,
          ∃ q ∈ program.packages, ∃ e ∈ checker.withAllFiles.check program.types
            (q.keep checker.exclusions.wants), e.key = d.key := by
  constructor
  · intro h
    refine .inr fun p hp d hd => ?_
    have hkeys := h _ _ (.refl _) (.refl _)
    rw [← mem_keys_collect_keep (.refl _), ← hkeys, mem_keys_collect (.refl _)]
    exact ⟨p, hp, d, mem_check_iff.mpr (.inr hd), rfl⟩
  · rintro (htests | h)
    · exact runsOnly_of_checksOnly fun p _ => checksOnly_wants_iff.mpr (.inl htests)
    · intro completed completed' hperm hperm'
      refine eq_of_strict (RunResults.strict_diagnostics _).map
        (RunResults.strict_diagnostics _).map fun k => ?_
      rw [mem_keys_collect hperm, mem_keys_collect_keep hperm']
      constructor
      · rintro ⟨p, hp, d, hd, rfl⟩
        rcases mem_check_iff.mp hd with hd | hd
        · exact ⟨p, hp, d, hd, rfl⟩
        · exact h p hp d hd
      · rintro ⟨p, hp, d, hd, rfl⟩
        exact ⟨p, hp, d, mem_check_iff.mpr (.inl hd), rfl⟩

/-- In a program whose sources go by the names of their files, no finding of a test file is one of
another file. -/
theorem runsOnly_wants_iff_of_names
    (hnames : ∀ file ∈ program.packages.flatMap (·.files), file.source.name = file.name) :
    checker.RunsOnly program checker.exclusions.wants ↔
      checker.exclusions.testFiles = true ∨
        ∀ p ∈ program.packages, checker.testFindings program.types p = [] := by
  have hfile {p : Package} (hp : p ∈ program.packages) {file : ParsedFile} (hfile : file ∈ p.files)
      {d : Diagnostic}
      (hd : d ∈ file.diagnostics checker.modes (checker.index.excludes program.types)) :
      d.key.filename = file.name := by
    obtain ⟨site, -, rfl⟩ := List.mem_map.mp hd
    rw [← hnames file (List.mem_flatMap.mpr ⟨p, hp, hfile⟩)]
    exact SourceFile.position_filename _ _
  rw [runsOnly_wants_iff]
  refine or_congr_right' fun htests => forall₂_congr fun p hp => ?_
  rw [List.eq_nil_iff_forall_not_mem]
  refine forall_congr' fun d => ⟨fun h hd => ?_, fun h hd => absurd hd h⟩
  obtain ⟨q, hq, e, he, hkey⟩ := h hd
  obtain ⟨file, hfile', htest, -, hd⟩ := mem_testFindings.mp hd
  obtain ⟨other, hother, hwanted, he⟩ := mem_check_wanted.mp he
  have hname : other.name = file.name := by
    rw [← hfile hq hother he, hkey, hfile hp hfile' hd]
  -- Files with one name are both test files.
  have hother : other.isTest = true := by rwa [ParsedFile.isTest, hname]
  rw [wants_eq, hother] at hwanted
  simp [htests] at hwanted

end

section

variable {root : SourceRoot} {config : LoadConfig} {filename text : String} {program : Program}
  (hload : (loadText root config filename text).outcome = .ok program)

include hload

/-- The files of a loaded program are those that the load was to keep. -/
theorem wants_of_loadText {p : Package} (hp : p ∈ program.packages) {file : ParsedFile}
    (hfile : file ∈ p.files) : config.wants file = true := by
  cases hparse : Datum.parse text with
  | error e =>
    rw [loadText, hparse] at hload
    cases hload
  | ok d =>
    obtain ⟨read, -, hselect⟩ := (loadText_eq_ok hparse).mp hload
    obtain ⟨q, -, hfile⟩ := LoadConfig.mem_selectFiles_of_select hselect hp hfile
    exact (Bool.and_eq_true_iff.mp (List.mem_filter.mp hfile).2).1

theorem testFindings_of_loadText (htests : config.tests = false) (checker : Checker) {p : Package}
    (hp : p ∈ program.packages) : checker.testFindings program.types p = [] := by
  refine List.eq_nil_iff_forall_not_mem.mpr fun d hd => ?_
  obtain ⟨file, hfile, htest, -⟩ := mem_testFindings.mp hd
  have hwants := wants_of_loadText hload hp hfile
  rw [LoadConfig.wants, htests, htest] at hwants
  cases hwants

end

/-- A check leaves generated files out as the configuration says. Test files it leaves out as the
configuration says only if nothing is found in them; for a run nothing may be found in them that is
not found in a wanted file as well, and in a loaded program no such thing is. Of a program that was
loaded with the switch of the configuration only the wanted files are checked. -/
theorem switches_honoured_iff (checker : Checker) :
    (∀ types p, checker.ChecksOnly types p fun file =>
      checker.exclusions.generatedFiles || !file.isGenerated) ∧
    (∀ program, checker.RunsOnly program fun file =>
      checker.exclusions.generatedFiles || !file.isGenerated) ∧
    (∀ types p, checker.ChecksOnly types p checker.exclusions.wants ↔
      checker.exclusions.testFiles = true ∨ checker.testFindings types p = []) ∧
    (∀ program, checker.RunsOnly program checker.exclusions.wants ↔
      checker.exclusions.testFiles = true ∨
        ∀ p ∈ program.packages, ∀ d ∈ checker.testFindings program.types p,
          ∃ q ∈ program.packages, ∃ e ∈ checker.withAllFiles.check program.types
            (q.keep checker.exclusions.wants), e.key = d.key) ∧
    ∀ root config filename text program,
      (loadText root config filename text).outcome = .ok program →
        (checker.RunsOnly program checker.exclusions.wants ↔
          checker.exclusions.testFiles = true ∨
            ∀ p ∈ program.packages, checker.testFindings program.types p = []) ∧
        (config.tests = checker.exclusions.testFiles →
          (∀ p ∈ program.packages,
            checker.ChecksOnly program.types p checker.exclusions.wants) ∧
          checker.RunsOnly program checker.exclusions.wants) := by
  refine ⟨fun types p => checksOnly_looksAt checker types p, fun program => ?_,
    fun _ _ => checksOnly_wants_iff, fun _ => runsOnly_wants_iff,
    fun root config filename text program hload => ?_⟩
  · exact runsOnly_of_checksOnly fun p _ => checksOnly_looksAt checker program.types p
  · have hrun : checker.RunsOnly program checker.exclusions.wants ↔ _ :=
      runsOnly_wants_iff_of_names fun file hfile => source_name_of_loadText hload hfile
    refine ⟨hrun, fun hsame => ?_⟩
    have hnothing : checker.exclusions.testFiles = true ∨
        ∀ p ∈ program.packages, checker.testFindings program.types p = [] := by
      cases htests : config.tests with
      | true => exact .inl (hsame ▸ htests)
      | false => exact .inr fun p hp => testFindings_of_loadText hload htests checker hp
    exact ⟨fun p hp => checksOnly_wants_iff.mpr (hnothing.imp_right fun h => h p hp),
      hrun.mpr hnothing⟩

end Checker

/-! ## A test file -/

/-- A dump of a package with a test file and another file; both drop the error of a call. -/
def testedDump : String :=
  "(program (package p p (file a_test.go (source \"f()\") (func-decl f 0 (body (block 0 (expr-stmt" ++
    " (call (ident f 6) 7 8 (type (named \"\" error)))))))) (file b.go (source \"f()\") (func-decl" ++
    " f 0 (body (block 0 (expr-stmt (call (ident f 6) 7 8 (type (named \"\" error))))))))))"

/-- The form of a file that drops the error of a call. -/
def droppingFileForm (name : String) : Datum :=
  .list [.symbol "file", .symbol name, .list [.symbol "source", .string "f()"],
    .list [.symbol "func-decl", .symbol "f", .int 0, .list [.symbol "body",
      .list [.symbol "block", .int 0, droppingForm 7 8]]]]

set_option maxRecDepth 2000 in
theorem parse_testedDump : Datum.parse testedDump =
    .ok (.list [.symbol "program", .list [.symbol "package", .symbol "p", .symbol "p",
      droppingFileForm "a_test.go", droppingFileForm "b.go"]]) :=
  Datum.parse_of_toList (toList_ofList_append_append _ _ _) rfl

/-- A configuration without test files. -/
def withoutTests : Exclusions := { testFiles := false }

/-- Loaded with the same switch, only the finding of the other file comes out. -/
theorem Checker.test_file_dropped_by_load :
    ∃ checker program, Checker.ofExclusions withoutTests = .ok checker ∧
      (loadText ⟨⟨[], []⟩, .ofString "."⟩ { tests := false } "dump" testedDump).outcome =
        .ok program ∧
      (∀ p ∈ program.packages,
        checker.ChecksOnly program.types p checker.exclusions.wants) ∧
      checker.RunsOnly program checker.exclusions.wants ∧
      (checker.results program).merged.map (·.position.filename) = ["b.go"] := by
  have hload : (loadText ⟨⟨[], []⟩, .ofString "."⟩ { tests := false } "dump" testedDump).outcome =
      .ok _ := (loadText_eq_ok parse_testedDump).mpr ⟨_, rfl, rfl⟩
  have hchecker : Checker.ofExclusions withoutTests = .ok _ := rfl
  obtain ⟨-, -, -, -, hloaded⟩ := switches_honoured_iff ⟨withoutTests, _⟩
  obtain ⟨hpackages, hrun⟩ := (hloaded _ _ _ _ _ hload).2 rfl
  exact ⟨_, _, hchecker, hload, hpackages, hrun, by decide +kernel⟩

/-- Loaded with test files, the finding in the test file comes out as well, although the
configuration leaves them out. -/
theorem Checker.test_file_checked_though_excluded :
    ∃ checker program, Checker.ofExclusions withoutTests = .ok checker ∧
      (loadText ⟨⟨[], []⟩, .ofString "."⟩ {} "dump" testedDump).outcome = .ok program ∧
      (checker.results program).merged.map (·.position.filename) = ["a_test.go", "b.go"] ∧
      ¬ (∀ p ∈ program.packages,
        checker.ChecksOnly program.types p checker.exclusions.wants) ∧
      ¬ checker.RunsOnly program checker.exclusions.wants := by
  have hload : (loadText ⟨⟨[], []⟩, .ofString "."⟩ {} "dump" testedDump).outcome = .ok _ :=
    (loadText_eq_ok parse_testedDump).mpr ⟨_, rfl, rfl⟩
  have hchecker : Checker.ofExclusions withoutTests = .ok _ := rfl
  refine ⟨_, _, hchecker, hload, by decide +kernel, fun h => ?_, fun h => ?_⟩
  · have hnothing := checksOnly_wants_iff.mp (h _ List.mem_cons_self)
    revert hnothing
    decide +kernel
  · have hnothing := (runsOnly_wants_iff_of_names fun file hfile =>
      source_name_of_loadText hload hfile).mp h
    revert hnothing
    decide +kernel

end UncheckedErrors
