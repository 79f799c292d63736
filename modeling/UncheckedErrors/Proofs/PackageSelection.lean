import UncheckedErrors.Load

/-!
# Selected packages

What a configuration selects from a program is told without the loop over the packages: a package is
asked for (`LoadConfig.Asks`) or passed over, and nothing of a package that is passed over is looked
at. A selection fails if the dump was made under another module mode, and otherwise if a package
that is asked for has type errors, with the first such package. Else it gives the packages that are
asked for, each narrowed to its files whose build tags hold (`select_eq`).

So a selection selects itself, and neither packages that are not asked for nor the order of the
patterns make a difference to it (`selection_exact`).
-/

namespace UncheckedErrors

/-! ## What is asked for -/

/-- A request is met if there is none, or by the mode it names. -/
def ModuleRequest.MetBy (request : ModuleRequest) (actual : String) : Prop :=
  request = .any ∨ request = .exactly actual

theorem ModuleRequest.refusal?_eq_none {request : ModuleRequest} {actual : String} :
    request.refusal? actual = none ↔ request.MetBy actual := by
  cases request with
  | any => simp [refusal?, MetBy]
  | exactly mode => simp [refusal?, MetBy]
  | unmeetable => simp [refusal?, MetBy]

/-- A build tag term holds: a term behind `!` if its tag is not given, any other if it is a tag that
is. -/
def TermHolds (tags : List String) (term : String) : Prop :=
  (∃ tag, term = "!" ++ tag ∧ tag ∉ tags) ∨ (∀ tag, term ≠ "!" ++ tag) ∧ term ∈ tags

theorem tagHolds_iff {tags : List String} {term : String} :
    tagHolds tags term = true ↔ TermHolds tags term := by
  have hterm (tag : String) : term = "!" ++ tag ↔ term.toList = '!' :: tag.toList := by
    rw [← String.toList_inj, String.toList_append]
    rfl
  unfold tagHolds TermHolds
  split
  · rename_i tag hlist
    have hnot (other : String) : term = "!" ++ other ↔ other = String.ofList tag := by
      rw [hterm, hlist, List.cons.injEq, ← String.toList_inj, String.toList_ofList]
      exact ⟨fun h => h.2.symm, fun h => ⟨rfl, h.symm⟩⟩
    simp [hnot]
  · rename_i hlist
    have hnot (tag : String) : term ≠ "!" ++ tag := fun h => hlist _ ((hterm tag).mp h)
    simp [hnot]

namespace LoadConfig

variable {config : LoadConfig} {program : Program}

/-- A package is asked for: it is not `unsafe`, some pattern matches it, and it is a test variant
only if tests are kept. -/
structure Asks (config : LoadConfig) (p : Package) : Prop where
  ne_unsafe : p.path ≠ "unsafe"
  matched : ∃ pattern ∈ config.patterns, matchesPattern pattern p.path = true
  variant : p.isTestVariant = true → config.tests = true

theorem selects_iff {p : Package} : config.selects p = true ↔ config.Asks p := by
  have hvariant : (config.tests || !p.isTestVariant) = true ↔
      (p.isTestVariant = true → config.tests = true) := by
    cases config.tests <;> simp
  rw [selects, matched, Bool.and_eq_true, Bool.and_eq_true, bne_iff_ne, List.any_eq_true, hvariant]
  exact ⟨fun ⟨⟨hpath, hmatched⟩, hkept⟩ => ⟨hpath, hmatched, hkept⟩,
    fun h => ⟨⟨h.ne_unsafe, h.matched⟩, h.variant⟩⟩

instance : DecidablePred config.Asks := fun _ => decidable_of_iff _ selects_iff

/-- A file is asked for: it holds tests only if they are kept, and its build tags hold. -/
structure Keeps (config : LoadConfig) (file : ParsedFile) : Prop where
  test : file.isTest = true → config.tests = true
  tags : ∀ term ∈ file.buildTags, TermHolds config.tags term

theorem keeps_iff {file : ParsedFile} :
    (config.wants file && tagsSatisfied file.buildTags config.tags) = true ↔ config.Keeps file := by
  have hwants : config.wants file = true ↔ (file.isTest = true → config.tests = true) := by
    unfold wants
    cases config.tests <;> simp
  simp only [Bool.and_eq_true, hwants, tagsSatisfied, List.all_eq_true, tagHolds_iff]
  exact ⟨fun ⟨htest, htags⟩ => ⟨htest, htags⟩, fun h => ⟨h.test, h.tags⟩⟩

instance : DecidablePred config.Keeps := fun _ => decidable_of_iff _ keeps_iff

/-- The packages that are asked for. -/
def asked (config : LoadConfig) (packages : List Package) : List Package :=
  packages.filter (config.Asks ·)

theorem mem_asked {packages : List Package} {p : Package} :
    p ∈ config.asked packages ↔ p ∈ packages ∧ config.Asks p := by
  rw [asked, List.mem_filter, decide_eq_true_iff]

theorem asked_cons_of_asks {p : Package} (hp : config.Asks p) (rest : List Package) :
    config.asked (p :: rest) = p :: config.asked rest :=
  List.filter_cons_of_pos (decide_eq_true hp)

theorem asked_cons_of_not_asks {p : Package} (hp : ¬ config.Asks p) (rest : List Package) :
    config.asked (p :: rest) = config.asked rest :=
  List.filter_cons_of_neg fun h => hp (of_decide_eq_true h)

/-- A package with those of its files that are asked for. -/
def narrowed (config : LoadConfig) (p : Package) : Package :=
  { p with files := p.files.filter (config.Keeps ·) }

theorem selectFiles_eq (p : Package) : config.selectFiles p = (config.narrowed p).files := by
  refine List.filter_congr fun file _ => ?_
  rw [Bool.eq_iff_iff, keeps_iff, decide_eq_true_iff]

theorem narrowed_eq (p : Package) :
    config.narrowed p = { p with files := config.selectFiles p } := by
  rw [selectFiles_eq]
  rfl

/-! ## The loop over the packages -/

/-- The first package that has type errors. -/
def firstFaulty? (packages : List Package) : Option Package :=
  packages.find? fun p => !p.errors.isEmpty

theorem firstFaulty?_cons (p : Package) (rest : List Package) :
    firstFaulty? (p :: rest) = if !p.errors.isEmpty then some p else firstFaulty? rest := by
  rw [firstFaulty?, List.find?_cons]
  cases p.errors.isEmpty with
  | false => rfl
  | true => rfl

theorem firstFaulty?_eq_none {packages : List Package} :
    firstFaulty? packages = none ↔ ∀ p ∈ packages, p.errors = [] := by
  simp [firstFaulty?]

theorem firstFaulty?_eq_some {packages : List Package} {p : Package} :
    firstFaulty? packages = some p ↔
      p.errors ≠ [] ∧ ∃ before after, packages = before ++ p :: after ∧
        ∀ q ∈ before, q.errors = [] := by
  simp [firstFaulty?, List.find?_eq_some_iff_append]

/-- Packages that are not asked for are passed over, and of the others each is looked at in turn. -/
theorem selectPackages_eq (config : LoadConfig) (packages : List Package) :
    (config.selectPackages packages).2 =
      match firstFaulty? (config.asked packages) with
      | some p => .error (.typeErrors p.path p.errors)
      | none => .ok ((config.asked packages).map config.narrowed) := by
  induction packages with
  | nil => rfl
  | cons p rest ih =>
    unfold selectPackages
    by_cases hp : config.Asks p
    · rw [asked_cons_of_asks hp, selects_iff.mpr hp, firstFaulty?_cons]
      cases p.errors.isEmpty with
      | false => rfl
      | true =>
        simp only [Bool.not_true, Bool.false_eq_true, if_false, ih, ← narrowed_eq]
        cases firstFaulty? (config.asked rest) with
        | none => rfl
        | some q => rfl
    · rw [asked_cons_of_not_asks hp, Bool.eq_false_iff.mpr fun h => hp (selects_iff.mp h)]
      exact ih

/-- The outcome of a selection. -/
theorem select_eq (config : LoadConfig) (program : Program) :
    (config.select program).2 =
      match config.mod.refusal? (program.mod.getD "") with
      | some requested => .error (.moduleMode requested (program.mod.getD ""))
      | none =>
        (config.selectPackages program.packages).2.map
          ({ program with packages := · }) := by
  unfold select
  dsimp only
  cases config.mod.refusal? (program.mod.getD "") with
  | some requested => rfl
  | none =>
    dsimp only
    rcases config.selectPackages program.packages with ⟨notices, _ | packages⟩
    · rfl
    · rfl

/-- It is an error for one of two reasons, and the module mode is looked at first. -/
theorem select_eq_error {fault : Fault} :
    (config.select program).2 = .error fault ↔
      (∃ requested, config.mod.refusal? (program.mod.getD "") = some requested ∧
        fault = .moduleMode requested (program.mod.getD "")) ∨
      config.mod.MetBy (program.mod.getD "") ∧
        ∃ p, firstFaulty? (config.asked program.packages) = some p ∧
          fault = .typeErrors p.path p.errors := by
  rw [select_eq, selectPackages_eq, ← ModuleRequest.refusal?_eq_none]
  cases config.mod.refusal? (program.mod.getD "") with
  | some requested => simp [eq_comm]
  | none =>
    cases firstFaulty? (config.asked program.packages) with
    | some p => simp [Except.map, eq_comm]
    | none => simp [Except.map]

theorem select_eq_ok {selected : Program} :
    (config.select program).2 = .ok selected ↔
      config.mod.MetBy (program.mod.getD "") ∧
        (∀ p ∈ config.asked program.packages, p.errors = []) ∧
        selected =
          { program with packages := (config.asked program.packages).map config.narrowed } := by
  rw [select_eq, selectPackages_eq, ← ModuleRequest.refusal?_eq_none, ← firstFaulty?_eq_none]
  cases config.mod.refusal? (program.mod.getD "") with
  | some requested => simp
  | none =>
    cases firstFaulty? (config.asked program.packages) with
    | some p => simp [Except.map]
    | none => simp [Except.map, eq_comm]

/-! ## What a selection leaves -/

/-- A selection fails under another module mode, or at a package with type errors. -/
theorem fault_of_select {fault : Fault} (h : (config.select program).2 = .error fault) :
    (∃ requested actual, fault = .moduleMode requested actual) ∨
      ∃ p ∈ program.packages, fault = .typeErrors p.path p.errors := by
  rcases select_eq_error.mp h with ⟨requested, -, rfl⟩ | ⟨-, p, hfirst, rfl⟩
  · exact .inl ⟨_, _, rfl⟩
  · exact .inr ⟨p, (mem_asked.mp (List.mem_of_find?_eq_some hfirst)).1, rfl⟩

section

variable {selected : Program} (h : (config.select program).2 = .ok selected)

include h

theorem types_of_select : selected.types = program.types := by
  obtain ⟨-, -, rfl⟩ := select_eq_ok.mp h
  rfl

/-- Of a program only packages and files are left out. -/
theorem mem_selectFiles_of_select {p : Package} (hp : p ∈ selected.packages) {file : ParsedFile}
    (hfile : file ∈ p.files) : ∃ q ∈ program.packages, file ∈ config.selectFiles q := by
  obtain ⟨-, -, rfl⟩ := select_eq_ok.mp h
  obtain ⟨q, hq, rfl⟩ := List.mem_map.mp hp
  rw [← selectFiles_eq] at hfile
  exact ⟨q, (mem_asked.mp hq).1, hfile⟩

theorem mem_of_select {p : Package} (hp : p ∈ selected.packages) {file : ParsedFile}
    (hfile : file ∈ p.files) : ∃ q ∈ program.packages, file ∈ q.files := by
  obtain ⟨q, hq, hfile⟩ := mem_selectFiles_of_select h hp hfile
  exact ⟨q, hq, (List.mem_filter.mp hfile).1⟩

end

/-- The table of named types makes no difference to what is selected. -/
theorem select_types (config : LoadConfig) (packages : List Package) (mod : Option String)
    (table table' : TypeTable) :
    (config.select ⟨packages, mod, table'⟩).2 =
      (config.select ⟨packages, mod, table⟩).2.map ({ · with types := table' }) := by
  rw [select_eq, select_eq]
  cases config.mod.refusal? (mod.getD "") with
  | some requested => rfl
  | none =>
    cases (config.selectPackages packages).2 with
    | error fault => rfl
    | ok selected => rfl

/-! ## Selections of selections -/

theorem asks_narrowed {p : Package} : config.Asks (config.narrowed p) ↔ config.Asks p :=
  ⟨fun h => ⟨h.ne_unsafe, h.matched, h.variant⟩, fun h => ⟨h.ne_unsafe, h.matched, h.variant⟩⟩

theorem narrowed_narrowed (p : Package) :
    config.narrowed (config.narrowed p) = config.narrowed p := by
  simp [narrowed, List.filter_filter]

theorem asked_map_narrowed (packages : List Package) :
    config.asked ((config.asked packages).map config.narrowed) =
      (config.asked packages).map config.narrowed := by
  refine List.filter_eq_self.mpr fun p hp => decide_eq_true ?_
  obtain ⟨q, hq, rfl⟩ := List.mem_map.mp hp
  exact asks_narrowed.mpr (mem_asked.mp hq).2

/-- A selection selects itself. -/
theorem select_select {selected : Program} (h : (config.select program).2 = .ok selected) :
    (config.select selected).2 = .ok selected := by
  obtain ⟨hmode, herrors, rfl⟩ := select_eq_ok.mp h
  refine select_eq_ok.mpr ⟨hmode, fun p hp => ?_, ?_⟩
  · rw [asked_map_narrowed] at hp
    obtain ⟨q, hq, rfl⟩ := List.mem_map.mp hp
    exact herrors q hq
  · rw [asked_map_narrowed, List.map_map]
    congr 1
    exact List.map_congr_left fun p _ => (narrowed_narrowed p).symm

/-- Packages that are not asked for make no difference. -/
theorem select_congr_packages {packages : List Package}
    (h : config.asked packages = config.asked program.packages) :
    (config.select { program with packages }).2 = (config.select program).2 := by
  rw [select_eq, select_eq, selectPackages_eq, selectPackages_eq, h]

/-- Of the patterns it only matters which there are. -/
theorem select_congr_patterns {patterns : List String}
    (h : ∀ pattern, pattern ∈ patterns ↔ pattern ∈ config.patterns) :
    (LoadConfig.select { config with patterns } program).2 = (config.select program).2 := by
  have hasks (p : Package) : LoadConfig.Asks { config with patterns } p ↔ config.Asks p :=
    ⟨fun hp => ⟨hp.ne_unsafe, by simpa [h] using hp.matched, hp.variant⟩,
      fun hp => ⟨hp.ne_unsafe, by simpa [h] using hp.matched, hp.variant⟩⟩
  have hasked : LoadConfig.asked { config with patterns } program.packages =
      config.asked program.packages :=
    List.filter_congr fun p _ => decide_eq_decide.mpr (hasks p)
  have hnarrowed : LoadConfig.narrowed { config with patterns } = config.narrowed := by
    funext p
    rw [narrowed_eq, narrowed_eq]
    rfl
  rw [select_eq, select_eq, selectPackages_eq, selectPackages_eq, hasked, hnarrowed]

/-- A selection is the packages that are asked for, in their order, each with the files that are
asked for, unless a module mode is requested that is not the one of the dump or, failing that, one
of those packages has type errors; then it is an error, and names the first such package. It selects
itself, and it depends on no package that is not asked for, nor on the order and the number of the
patterns. -/
theorem selection_exact (config : LoadConfig) (program : Program) :
    let asked := config.asked program.packages
    let outcome := (config.select program).2
    let met := config.mod.MetBy (program.mod.getD "")
    ((∃ fault, outcome = .error fault ∧ fault.kind = .moduleMode) ↔ ¬ met) ∧
    (∀ fault, outcome = .error fault ∧ fault.kind = .load ↔
      met ∧ ∃ before p after, asked = before ++ p :: after ∧ (∀ q ∈ before, q.errors = []) ∧
        p.errors ≠ [] ∧ fault = .typeErrors p.path p.errors) ∧
    (∀ selected, outcome = .ok selected ↔
      met ∧ (∀ p ∈ asked, p.errors = []) ∧
        selected = { program with packages := asked.map config.narrowed }) ∧
    (∀ selected, outcome = .ok selected → (config.select selected).2 = .ok selected) ∧
    (∀ packages, config.asked packages = asked →
      (config.select { program with packages }).2 = outcome) ∧
    ∀ patterns, (∀ pattern, pattern ∈ patterns ↔ pattern ∈ config.patterns) →
      (LoadConfig.select { config with patterns } program).2 = outcome := by
  intro asked outcome met
  refine ⟨⟨?_, fun hmode => ?_⟩, fun fault => ⟨?_, ?_⟩, fun _ => select_eq_ok,
    fun _ => select_select, fun _ => select_congr_packages, fun _ => select_congr_patterns⟩
  · rintro ⟨fault, hfault, hkind⟩ hmode
    rcases select_eq_error.mp hfault with ⟨requested, hrefusal, -⟩ | ⟨-, p, -, rfl⟩
    · rw [ModuleRequest.refusal?_eq_none.mpr hmode] at hrefusal
      cases hrefusal
    · cases hkind
  · obtain ⟨requested, hrefusal⟩ :=
      Option.ne_none_iff_exists'.mp (mt ModuleRequest.refusal?_eq_none.mp hmode)
    exact ⟨_, select_eq_error.mpr (.inl ⟨requested, hrefusal, rfl⟩), rfl⟩
  · rintro ⟨hfault, hkind⟩
    rcases select_eq_error.mp hfault with ⟨requested, -, rfl⟩ | ⟨hmode, p, hfirst, rfl⟩
    · cases hkind
    · obtain ⟨herrors, before, after, hasked, hbefore⟩ := firstFaulty?_eq_some.mp hfirst
      exact ⟨hmode, before, p, after, hasked, hbefore, herrors, rfl⟩
  · rintro ⟨hmode, before, p, after, hasked, hbefore, herrors, rfl⟩
    have hfirst := firstFaulty?_eq_some.mpr ⟨herrors, before, after, hasked, hbefore⟩
    exact ⟨select_eq_error.mpr (.inr ⟨hmode, p, hfirst, rfl⟩), rfl⟩

end LoadConfig

/-! ## A program of three packages -/

/-- A file without declarations. -/
def emptyFile (name : String) (buildTags : List String) : ParsedFile :=
  ⟨name, ⟨"p", 0, []⟩, ⟨name, "package p"⟩, buildTags⟩

/-- Packages of which one is a test variant and one is broken. -/
def threePackages : Program where
  packages :=
    [⟨"net/http", "http", [emptyFile "h.go" ["linux", "!cgo"], emptyFile "h_test.go" [],
      emptyFile "w.go" ["windows"]], [], false⟩,
    ⟨"net/http", "http", [emptyFile "t.go" []], ["undefined: x"], true⟩,
    ⟨"network", "network", [], ["broken"], false⟩]
  mod := none
  types := .initial

/-- The packages below `net`, for linux, without tests. -/
def belowNet : LoadConfig :=
  { patterns := ["net/..."], tags := ["linux"], mod := .exactly "", tests := false }

/-- One file of one package is selected, also once the broken packages are gone. -/
theorem LoadConfig.one_file_selected :
    ∃ selected, (belowNet.select threePackages).2 = .ok selected ∧
      (selected.packages.map fun p => (p.path, p.files.map (·.name))) =
        [("net/http", ["h.go"])] ∧
      (belowNet.select selected).2 = .ok selected ∧
      (belowNet.select { threePackages with packages := threePackages.packages.take 1 }).2 =
        .ok selected ∧
      (LoadConfig.select { belowNet with patterns := ["net/...", "net/..."] } threePackages).2 =
        .ok selected := by
  obtain ⟨-, -, hok, hselects, hpackages, hpatterns⟩ := selection_exact belowNet threePackages
  have hselected := (hok _).mpr ⟨.inr rfl, by decide +kernel, rfl⟩
  refine ⟨_, hselected, by decide +kernel, hselects _ hselected, ?_, ?_⟩
  · rw [← hselected]
    exact hpackages _ rfl
  · rw [← hselected]
    exact hpatterns _ (by simp [belowNet])

end UncheckedErrors
