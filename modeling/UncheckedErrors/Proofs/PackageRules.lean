import UncheckedErrors.Exclusion.Index

/-!
# Rules for packages

Patterns and whole packages are brought together under the keys they were written with, and only
then are the keys freed from vendored prefixes. Several keys may come to stand for one path
(`governs`), and of these the last one counts (`Shows.of_nodup`).

Nothing is asked of the patterns here: any library may read them, and the patterns of this project
are one instance (`PatternLibrary.names_everything`).

A package that is excluded as a whole keeps the place of the pattern it had before. So its calls are
excluded, whatever else the configuration holds, if `Exclusions.ExcludesWhole` holds of its path; if
not, a pattern written for another key of the same path takes over (`excludes_package_calls`,
`excluded_package_overridden`).
-/

namespace UncheckedErrors

/-- A rule written under `key` is one for the packages that are `path` without vendored prefixes. -/
def governs (path key : String) : Bool := !key.isEmpty && unvendored key == path

namespace Exclusions

/-- The keys of the patterns for a path, in order of first mention. -/
def patternKeys (e : Exclusions) (path : String) : List String :=
  e.patterns.keys.eraseDups.filter (governs path)

theorem patternKeys_eq (e : Exclusions) (path : String) :
    e.patternKeys path = e.patterns.keys.eraseDups.filter (governs path) := rfl

/-- The listed packages that have no pattern under the very same key. -/
def barePackages (e : Exclusions) : List String :=
  (e.packages.removeAll e.patterns.keys).eraseDups

/-- The packages with this path are excluded as a whole: one of them is listed and has no pattern
under the very same key, or the last key with a pattern is listed. -/
def ExcludesWhole (e : Exclusions) (path : String) : Prop :=
  (∃ p ∈ e.packages, governs path p ∧ p ∉ e.patterns.keys) ∨
    ∃ key, (e.patternKeys path).getLast? = some key ∧ key ∈ e.packages

theorem mem_barePackages (e : Exclusions) {p : String} :
    p ∈ e.barePackages ↔ p ∈ e.packages ∧ p ∉ e.patterns.keys := by
  simp [barePackages, List.mem_eraseDups, List.removeAll]

end Exclusions

namespace Pattern

/-- As many rounds as can be leave a match if the rest has one. -/
theorem manyThen_isSome (round : Rest → Rest) (rest : Rest) (n i : Nat) (h : (rest i).isSome) :
    (manyThen round rest n i).isSome := by
  cases n with
  | zero => exact h
  | succ n =>
    rw [manyThen]
    split
    · rfl
    · exact h

end Pattern

/-- The pattern `.*` is read as the test of a package that is excluded as a whole. -/
theorem PatternLibrary.names_everything (key : String) :
    names.read key ".*" = .ok .everything := by
  have hread : names.read key ".*" = .ok (NamePattern.occursIn
      ⟨.repeated (.one ⟨true, [.char '\n']⟩) 0 none .most, false⟩) := rfl
  rw [hread]
  congr
  funext name
  refine List.any_eq_true.mpr ⟨0, by simp, ?_⟩
  exact Pattern.manyThen_isSome _ _ _ _ rfl

/-- A call with a known callee has an identifier that stands for it. -/
theorem Call.exists_calleeIdent {c : Call} {fn : Object} (h : c.callee? = some fn) :
    ∃ id, c.calleeIdent? = some id ∧ id.obj = some fn := by
  have hobj : c.calleeIdent?.bind (·.obj) = some fn := by
    unfold callee? at h
    split at h
    · cases h
      assumption
    · cases h
      assumption
    · cases h
  exact Option.bind_eq_some_iff.mp hobj

namespace ExclusionIndex

variable {library : PatternLibrary}

/-! ## Compiled patterns -/

theorem compileAll_cons_eq_ok {key pattern : String} {rules : List (String × String)}
    {compiled : List (String × NameTest)} :
    compileAll library ((key, pattern) :: rules) = .ok compiled ↔
      ∃ test rest, compile library key pattern = .ok test ∧ compileAll library rules = .ok rest ∧
        compiled = (key, test) :: rest := by
  rw [compileAll]
  cases compile library key pattern with
  | error e => simp [bind, Except.bind]
  | ok test =>
    cases compileAll library rules with
    | error e => simp [bind, Except.bind]
    | ok rest => simp [bind, Except.bind, pure, Except.pure, eq_comm]

/-- Compiling keeps the keys. -/
theorem map_fst_compileAll {rules : List (String × String)} {compiled : List (String × NameTest)}
    (h : compileAll library rules = .ok compiled) : compiled.map (·.1) = rules.map (·.1) := by
  induction rules generalizing compiled with
  | nil =>
    cases h
    rfl
  | cons rule rules ih =>
    obtain ⟨test, rest, -, hrest, rfl⟩ := compileAll_cons_eq_ok.mp h
    rw [List.map_cons, List.map_cons, ih hrest]

/-- A test is that of a rule. -/
theorem exists_of_mem_compileAll {rules : List (String × String)}
    {compiled : List (String × NameTest)} (h : compileAll library rules = .ok compiled)
    {c : String × NameTest} (hc : c ∈ compiled) :
    ∃ pattern, (c.1, pattern) ∈ rules ∧ compile library c.1 pattern = .ok c.2 := by
  induction rules generalizing compiled with
  | nil =>
    cases h
    cases hc
  | cons rule rules ih =>
    obtain ⟨key, pattern⟩ := rule
    obtain ⟨test, rest, htest, hrest, rfl⟩ := compileAll_cons_eq_ok.mp h
    rcases List.mem_cons.mp hc with rfl | hc
    · exact ⟨pattern, List.mem_cons_self, htest⟩
    · obtain ⟨pattern, hmem, hpattern⟩ := ih hrest hc
      exact ⟨pattern, List.mem_cons_of_mem _ hmem, hpattern⟩

/-- An index is made of the symbols first, and then of the patterns one by one. -/
theorem ofExclusions_eq_ok {e : Exclusions} {index : ExclusionIndex} :
    ofExclusions e library = .ok index ↔
      ∃ compiled, compileAll library e.patterns.entries = .ok compiled ∧
        index = (allPatterns compiled e.packages).entries.foldl addPattern
          (ofSymbols e.symbols e.disableDefaults) := by
  unfold ofExclusions
  cases compileAll library e.patterns.entries with
  | error f => simp [bind, Except.bind]
  | ok compiled => simp [bind, Except.bind, pure, Except.pure, eq_comm]

/-! ## The pattern in force -/

/-- What an index shows of the rules whose keys `q` selects: the pattern of the one added last. -/
structure Shows (view : ExclusionIndex → Option NameTest) (q : String → Bool) : Prop where
  start : ∀ symbols disableDefaults, view (ofSymbols symbols disableDefaults) = none
  add : ∀ index rule, view (addPattern index rule) = if q rule.1 then some rule.2 else view index

/-- The pattern of a path is that of the rules for it. -/
theorem shows_byPackage (path : String) : Shows (·.byPackage.get? path) (governs path) where
  start _ _ := rfl
  add index rule := by
    unfold addPattern governs
    by_cases hempty : rule.1.isEmpty
    · simp [hempty]
    · simp [hempty]

/-- The pattern for all packages is that of the rules with an empty key. -/
theorem shows_unqualified : Shows (·.unqualified) (·.isEmpty) where
  start _ _ := rfl
  add index rule := by
    unfold addPattern
    split <;> rfl

variable {view : ExclusionIndex → Option NameTest} {q : String → Bool}

/-- Of several rules the last one counts. -/
theorem Shows.foldl (h : Shows view q) (index : ExclusionIndex)
    (rules : List (String × NameTest)) :
    view (rules.foldl addPattern index) =
      ((rules.filter fun rule => q rule.1).getLast?.map (·.2)).or (view index) := by
  induction rules generalizing index with
  | nil => rfl
  | cons rule rules ih =>
    rw [List.foldl_cons, ih, h.add]
    by_cases hrule : q rule.1
    · rw [List.filter_cons, if_pos hrule, if_pos hrule, List.getLast?_cons]
      cases (rules.filter fun rule => q rule.1).getLast? with
      | none => rfl
      | some _ => rfl
    · rw [List.filter_cons, if_neg hrule, if_neg hrule]

/-- The pattern in force is that of the last key. -/
theorem Shows.of_nodup (h : Shows view q) {m : OrderedMap String NameTest} (hm : m.keys.Nodup)
    (symbols : List String) (disableDefaults : Bool) :
    view (m.entries.foldl addPattern (ofSymbols symbols disableDefaults)) =
      (m.keys.filter q).getLast?.bind m.get? := by
  have hkeys : m.keys.filter q = (m.entries.filter fun e => q e.1).map (·.1) := by
    rw [OrderedMap.keys, List.filter_map]
    rfl
  rw [h.foldl, h.start, Option.or_none, hkeys, List.getLast?_map]
  cases hlast : (m.entries.filter fun e => q e.1).getLast? with
  | none => rfl
  | some e =>
    have hmem : e ∈ m.entries := (List.mem_filter.mp (List.mem_of_getLast? hlast)).1
    show some e.2 = m.get? e.1
    rw [OrderedMap.get?_of_mem hm hmem]

/-! ## Patterns and whole packages together -/

section

variable (compiled : List (String × NameTest)) (packages : List String)

theorem nodup_keys_allPatterns : (allPatterns compiled packages).keys.Nodup :=
  OrderedMap.nodup_keys_insertAll (OrderedMap.nodup_keys_insertAll (m := .empty) .nil compiled) _

/-- The keys with patterns come first, then the packages without one. -/
theorem keys_allPatterns :
    (allPatterns compiled packages).keys =
      (compiled.map (·.1)).eraseDups ++ (packages.removeAll (compiled.map (·.1))).eraseDups := by
  have hfst : (packages.map (·, NameTest.everything)).map (·.1) = packages := by
    rw [List.map_map]
    exact List.map_id packages
  rw [allPatterns, OrderedMap.keys_insertAll, OrderedMap.keys_insertAll_empty, hfst]
  simp only [List.removeAll, List.elem_eq_contains, List.contains_eq_mem, List.mem_eraseDups]

/-- A listed package has the test that every name passes, any other key the last one that was
written for it. -/
theorem get?_allPatterns (key : String) :
    (allPatterns compiled packages).get? key =
      if key ∈ packages then some .everything
      else (compiled.filter (·.1 = key)).getLast?.map (·.2) := by
  rw [allPatterns, OrderedMap.get?_insertAll, OrderedMap.get?_insertAll, OrderedMap.get?_empty,
    Option.or_none]
  split
  · rename_i hkey
    have hmem : (key, .everything) ∈
        (packages.map (·, NameTest.everything)).filter (·.1 = key) := by simpa using hkey
    cases hlast : ((packages.map (·, NameTest.everything)).filter (·.1 = key)).getLast? with
    | none => simp [List.getLast?_eq_none_iff.mp hlast] at hmem
    | some rule =>
      obtain ⟨hrule, -⟩ := List.mem_filter.mp (List.mem_of_getLast? hlast)
      obtain ⟨p, -, rfl⟩ := List.mem_map.mp hrule
      rfl
  · rename_i hkey
    have hnone : (packages.map (·, NameTest.everything)).filter (·.1 = key) = [] := by
      simp only [List.filter_eq_nil_iff, List.mem_map, decide_eq_true_eq]
      rintro _ ⟨p, hp, rfl⟩ rfl
      exact hkey hp
    rw [hnone]
    rfl

end

/-! ## Calls of an excluded package -/

/-- The patterns that a function of a package is looked up under. -/
theorem matchesPattern_of_get? {index : ExclusionIndex} {fn : Object} {q : String}
    {test : NameTest} (hq : fn.pkg = some q) (hqne : q ≠ "")
    (hget : index.byPackage.get? (unvendored q) = some test) (name : String) :
    index.matchesPattern fn name = (index.unqualified.any (· name) || test name) := by
  have hempty : q.isEmpty = false := by simpa using hqne
  simp [matchesPattern, hq, hempty, hget]

section

variable {e : Exclusions} {index : ExclusionIndex} (hindex : ofExclusions e library = .ok index)

include hindex

/-- The last key tells the pattern in force, and listed packages without a pattern come last. -/
theorem exists_compiled :
    ∃ compiled, compileAll library e.patterns.entries = .ok compiled ∧
      ∀ {view : ExclusionIndex → Option NameTest} {q : String → Bool}, Shows view q →
        view index = ((e.barePackages.filter q).getLast?.or
          (e.patterns.keys.eraseDups.filter q).getLast?).bind fun key =>
            if key ∈ e.packages then some .everything
            else (compiled.filter (·.1 = key)).getLast?.map (·.2) := by
  obtain ⟨compiled, hcompiled, rfl⟩ := ofExclusions_eq_ok.mp hindex
  refine ⟨compiled, hcompiled, fun hview => ?_⟩
  have hkeys : (allPatterns compiled e.packages).keys =
      e.patterns.keys.eraseDups ++ e.barePackages := by
    rw [keys_allPatterns, map_fst_compileAll hcompiled]
    rfl
  rw [hview.of_nodup (nodup_keys_allPatterns _ _), hkeys, List.filter_append,
    List.getLast?_append, funext (get?_allPatterns compiled e.packages)]

/-- A path of packages that are excluded as a whole has the test that every name passes. -/
theorem get?_byPackage_of_excludesWhole {path : String} (h : e.ExcludesWhole path) :
    index.byPackage.get? path = some .everything := by
  obtain ⟨compiled, -, hget⟩ := exists_compiled hindex
  rw [hget (shows_byPackage path), ← e.patternKeys_eq]
  cases hbare : (e.barePackages.filter (governs path)).getLast? with
  | some p =>
    have hp : p ∈ e.barePackages := (List.mem_filter.mp (List.mem_of_getLast? hbare)).1
    have hlisted : p ∈ e.packages := (e.mem_barePackages.mp hp).1
    rw [Option.some_or, Option.bind_some, if_pos hlisted]
  | none =>
    rcases h with ⟨p, hp, hgoverns, hnew⟩ | ⟨key, hlast, hkey⟩
    · have hmem := List.mem_filter.mpr ⟨e.mem_barePackages.mpr ⟨hp, hnew⟩, hgoverns⟩
      rw [List.getLast?_eq_none_iff.mp hbare] at hmem
      cases hmem
    · rw [Option.none_or, hlast, Option.bind_some, if_pos hkey]

/-- A path with a listed package that is not excluded as a whole has the pattern of another key. -/
theorem get?_byPackage_of_not_excludesWhole {path p : String} (hp : p ∈ e.packages)
    (hgoverns : governs path p) (h : ¬ e.ExcludesWhole path) :
    ∃ key pattern test, (key, pattern) ∈ e.patterns.entries ∧ key ∉ e.packages ∧
      governs path key ∧ compile library key pattern = .ok test ∧
      index.byPackage.get? path = some test := by
  obtain ⟨compiled, hcompiled, hget⟩ := exists_compiled hindex
  obtain ⟨hbare, hlast⟩ := not_or.mp h
  have hnone : e.barePackages.filter (governs path) = [] := by
    refine List.filter_eq_nil_iff.mpr fun q hq hgov => hbare ⟨q, ?_⟩
    obtain ⟨hlisted, hnew⟩ := e.mem_barePackages.mp hq
    exact ⟨hlisted, hgov, hnew⟩
  have hpkey : p ∈ e.patterns.keys :=
    Decidable.byContradiction fun hnew => hbare ⟨p, hp, hgoverns, hnew⟩
  have hpmem : p ∈ e.patternKeys path :=
    List.mem_filter.mpr ⟨List.mem_eraseDups.mpr hpkey, hgoverns⟩
  rw [hget (shows_byPackage path), hnone, List.getLast?_nil, Option.none_or,
    ← e.patternKeys_eq]
  cases hkey : (e.patternKeys path).getLast? with
  | none =>
    rw [List.getLast?_eq_none_iff.mp hkey] at hpmem
    cases hpmem
  | some key =>
    have hunlisted : key ∉ e.packages := fun hk => hlast ⟨key, hkey, hk⟩
    obtain ⟨hmem, hgov⟩ := List.mem_filter.mp (List.mem_of_getLast? hkey)
    have hfst : key ∈ compiled.map (·.1) :=
      map_fst_compileAll hcompiled ▸ List.mem_eraseDups.mp hmem
    obtain ⟨c, hc, hckey⟩ := List.mem_map.mp hfst
    have hcmem : c ∈ compiled.filter (·.1 = key) := by simp [hc, hckey]
    rw [Option.bind_some, if_neg hunlisted]
    cases hrule : (compiled.filter (·.1 = key)).getLast? with
    | none =>
      rw [List.getLast?_eq_none_iff.mp hrule] at hcmem
      cases hcmem
    | some rule =>
      obtain ⟨hrulemem, hrulekey⟩ := List.mem_filter.mp (List.mem_of_getLast? hrule)
      obtain ⟨pattern, hpattern, hcompile⟩ := exists_of_mem_compileAll hcompiled hrulemem
      rw [of_decide_eq_true hrulekey] at hpattern hcompile
      exact ⟨key, pattern, rule.2, hpattern, hunlisted, hgov, hcompile, rfl⟩

/-- A call into a listed package is excluded whatever else the configuration holds, if the packages
of its path are excluded as a whole. If they are not, the package counts as if it were not listed: a
pattern written for another key of the same path is looked at in its place. -/
theorem excludes_package_calls {p q : String} (hp : p ∈ e.packages) (hpne : p ≠ "")
    {c : Call} {fn : Object} (hfn : c.callee? = some fn) (hq : fn.pkg = some q) (hqne : q ≠ "")
    (hpath : unvendored q = unvendored p) (types : TypeTable) :
    (e.ExcludesWhole (unvendored p) → index.excludes types c = true) ∧
      (¬ e.ExcludesWhole (unvendored p) →
        ∃ key pattern test, (key, pattern) ∈ e.patterns.entries ∧ key ∉ e.packages ∧
          unvendored key = unvendored p ∧ compile library key pattern = .ok test ∧
          ∀ name, index.matchesPattern fn name =
            (index.unqualified.any (· name) || test name)) := by
  constructor
  · intro hwhole
    have hget := get?_byPackage_of_excludesWhole hindex hwhole
    obtain ⟨id, hid, -⟩ := Call.exists_calleeIdent hfn
    have hmatch : index.matchesPattern fn id.name = true := by
      rw [matchesPattern_of_get? hq hqne (hpath ▸ hget), NameTest.everything, Bool.or_true]
    simp [excludes, hfn, hid, hmatch]
  · intro hwhole
    have hgoverns : governs (unvendored p) p = true := by simp [governs, hpne]
    obtain ⟨key, pattern, test, hpattern, hkey, hgov, hcompile, hget⟩ :=
      get?_byPackage_of_not_excludesWhole hindex hp hgoverns hwhole
    have hunvendored : unvendored key = unvendored p := by
      simp only [governs, Bool.and_eq_true, beq_iff_eq] at hgov
      exact hgov.2
    exact ⟨key, pattern, test, hpattern, hkey, hunvendored, hcompile,
      matchesPattern_of_get? hq hqne (hpath ▸ hget)⟩

end

/-- A call `pkg.name(args)` of a function that returns an error. -/
def packageCall (pkg name : String) (args : List Expr) : Call :=
  .mk (.selector (.ident ⟨pkg, 1, some (.pkgName pkg), none⟩)
    ⟨name, 5, some (.func (some pkg) name none none), none⟩ none none) args 12 14 (some .error) none

/-- A listed package without a pattern: a pattern for a vendored copy of it does not matter. -/
theorem listed_package_excluded :
    ∃ index, ofExclusions { packages := ["fmt"], patterns := ⟨[("a/vendor/fmt", "Print")]⟩ } =
        .ok index ∧ index.excludes .initial (packageCall "fmt" "Fscan" []) = true := by
  obtain ⟨index, hindex⟩ : ∃ index, ofExclusions
      { packages := ["fmt"], patterns := ⟨[("a/vendor/fmt", "Print")]⟩ } = .ok index := ⟨_, rfl⟩
  refine ⟨index, hindex, ?_⟩
  have hwhole : Exclusions.ExcludesWhole
      { packages := ["fmt"], patterns := ⟨[("a/vendor/fmt", "Print")]⟩ } (unvendored "fmt") :=
    .inl ⟨"fmt", List.mem_cons_self, by decide, by decide⟩
  exact (excludes_package_calls hindex (p := "fmt") (q := "fmt") List.mem_cons_self (by decide) rfl
    rfl (by decide) rfl .initial).1 hwhole

/-- A listed package that has a pattern of its own loses its place to the pattern of a vendored
copy. -/
theorem excluded_package_overridden :
    ∃ index, ofExclusions
        { packages := ["fmt"], patterns := ⟨[("fmt", "Print"), ("a/vendor/fmt", "Print")]⟩,
          disableDefaults := true } = .ok index ∧
      (packageCall "fmt" "Fscan" []).callee? = some (.func (some "fmt") "Fscan" none none) ∧
      index.excludes .initial (packageCall "fmt" "Fscan" []) = false :=
  ⟨_, rfl, rfl, by decide⟩

end ExclusionIndex

end UncheckedErrors
