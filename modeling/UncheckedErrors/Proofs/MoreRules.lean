import UncheckedErrors.Proofs.Monotonicity

/-!
# More rules, fewer findings

A configuration may be extended by further symbols, by further packages that are excluded as a
whole, and by the symbols that never fail (`Exclusions.Extends`). A call that was excluded before is
excluded after that, and no finding is new (`Checker.rules_only_exclude`).

Symbols are looked up in a table that has only grown. For packages the order of the keys matters: of
all keys for one path the last one counts. A package that is added takes the place of a pattern, or
comes behind all patterns; either way the pattern in force is the one that was in force before, or
the one that every name matches (`ExclusionIndex.Shows.any_of_extends`).
-/

namespace UncheckedErrors

open scoped List

/-- The second configuration has the modes and the patterns of the first one, and all of its other
rules. -/
structure Exclusions.Extends (e e' : Exclusions) : Prop where
  blank : e'.blankAssignments = e.blankAssignments
  asserts : e'.typeAssertions = e.typeAssertions
  generated : e'.generatedFiles = e.generatedFiles
  patterns : e'.patterns = e.patterns
  packages : e.packages ⊆ e'.packages
  symbols : e.symbols ⊆ e'.symbols
  defaults : e'.disableDefaults = true → e.disableDefaults = true

/-- A listed package without a pattern stays one. -/
theorem Exclusions.Extends.barePackages_subset {e e' : Exclusions} (h : e.Extends e') :
    e.barePackages ⊆ e'.barePackages := by
  intro p hp
  rw [mem_barePackages] at hp ⊢
  rw [h.patterns]
  exact ⟨h.packages hp.1, hp.2⟩

namespace ExclusionIndex

/-- A larger table holds no fewer names. -/
theorem matchesSymbol_mono {table table' : List String} (h : table ⊆ table') {names : List String}
    {argument : Option String} (hmatch : matchesSymbol table names argument = true) :
    matchesSymbol table' names argument = true := by
  obtain ⟨name, hname, hfound⟩ := List.any_eq_true.mp hmatch
  refine List.any_eq_true.mpr ⟨name, hname, ?_⟩
  rw [Bool.or_eq_true] at hfound ⊢
  refine hfound.imp (fun hname => ?_) fun hnarrowed => ?_
  · exact List.contains_iff_mem.mpr (h (List.contains_iff_mem.mp hname))
  · cases argument with
    | none => cases hnarrowed
    | some a =>
      rw [Bool.and_eq_true] at hnarrowed ⊢
      exact hnarrowed.imp id fun hmem =>
        List.contains_iff_mem.mpr (h (List.contains_iff_mem.mp hmem))

section

variable {e e' : Exclusions} (h : e.Extends e') {library : PatternLibrary}
  {index index' : ExclusionIndex} (hindex : ofExclusions e library = .ok index)
  (hindex' : ofExclusions e' library = .ok index')

include h hindex hindex'

/-- The pattern in force stays as it was, or every name matches it. -/
theorem Shows.any_of_extends {view : ExclusionIndex → Option NameTest} {q : String → Bool}
    (hview : Shows view q) {name : String} (hmatch : (view index).any (· name) = true) :
    (view index').any (· name) = true := by
  obtain ⟨compiled, hcompiled, hget⟩ := exists_compiled hindex
  obtain ⟨compiled', hcompiled', hget'⟩ := exists_compiled hindex'
  rw [h.patterns, hcompiled] at hcompiled'
  cases hcompiled'
  rw [hget hview] at hmatch
  rw [hget' hview, h.patterns]
  cases hbare' : (e'.barePackages.filter q).getLast? with
  | some p =>
    have hp := (List.mem_filter.mp (List.mem_of_getLast? hbare')).1
    rw [Option.some_or, Option.bind_some, if_pos (e'.mem_barePackages.mp hp).1, Option.any_some,
      NameTest.everything]
  | none =>
    have hbare : e.barePackages.filter q = [] :=
      List.eq_nil_of_subset_nil
        (List.getLast?_eq_none_iff.mp hbare' ▸ List.filter_subset q h.barePackages_subset)
    rw [hbare, List.getLast?_nil, Option.none_or] at hmatch
    rw [Option.none_or]
    cases hkey : (e.patterns.keys.eraseDups.filter q).getLast? with
    | none =>
      rw [hkey] at hmatch
      cases hmatch
    | some key =>
      rw [hkey, Option.bind_some] at hmatch
      rw [Option.bind_some]
      by_cases hlisted : key ∈ e'.packages
      · rw [if_pos hlisted, Option.any_some, NameTest.everything]
      · rw [if_neg hlisted]
        rwa [if_neg fun hkey => hlisted (h.packages hkey)] at hmatch

theorem matchesPattern_of_extends {fn : Object} {name : String}
    (hmatch : index.matchesPattern fn name = true) : index'.matchesPattern fn name = true := by
  unfold matchesPattern at hmatch ⊢
  rw [Bool.or_eq_true] at hmatch ⊢
  refine hmatch.imp (shows_unqualified.any_of_extends h hindex hindex') fun hpackage => ?_
  split at hpackage
  · rename_i pkg hpkg
    rw [Bool.and_eq_true] at hpackage ⊢
    exact hpackage.imp id ((shows_byPackage (unvendored pkg)).any_of_extends h hindex hindex')
  · cases hpackage

/-- A call that is excluded stays excluded. -/
theorem excludes_of_extends {types : TypeTable} {c : Call}
    (hexcluded : index.excludes types c = true) : index'.excludes types c = true := by
  have hsymbols : index.symbols ⊆ index'.symbols := by
    intro symbol hsymbol
    obtain ⟨entry, hentry, hrest⟩ := (mem_symbols hindex).mp hsymbol
    exact (mem_symbols hindex').mpr ⟨entry, h.symbols hentry, hrest⟩
  have hdefaults : index.defaults ⊆ index'.defaults := by
    rw [defaults_eq hindex, defaults_eq hindex']
    cases hdisabled : e'.disableDefaults with
    | true =>
      rw [h.defaults hdisabled]
      exact List.Subset.refl _
    | false =>
      split
      · exact List.nil_subset _
      · exact List.Subset.refl _
  unfold excludes at hexcluded ⊢
  split at hexcluded
  · simp only [Bool.or_eq_true] at hexcluded ⊢
    refine hexcluded.imp (matchesPattern_of_extends h hindex hindex') fun hsymbol => ?_
    exact hsymbol.imp (matchesSymbol_mono hsymbols) (matchesSymbol_mono hdefaults)
  · cases hexcluded

end

end ExclusionIndex

/-- Further rules exclude further calls, and every finding that is left was there before. -/
theorem Checker.rules_only_exclude {e e' : Exclusions} (h : e.Extends e')
    {library : PatternLibrary} {checker : Checker}
    (hchecker : Checker.ofExclusions e library = .ok checker) :
    ∃ checker', Checker.ofExclusions e' library = .ok checker' ∧
      (∀ types c, checker.index.excludes types c = true →
        checker'.index.excludes types c = true) ∧
      ∀ types p, checker'.check types p <+ checker.check types p := by
  obtain ⟨index, hindex, rfl⟩ := ofExclusions_eq_ok.mp hchecker
  obtain ⟨index', hindex'⟩ : ∃ index', ExclusionIndex.ofExclusions e' library = .ok index' := by
    obtain ⟨compiled, hcompiled, -⟩ := ExclusionIndex.ofExclusions_eq_ok.mp hindex
    rw [← h.patterns] at hcompiled
    exact ⟨_, ExclusionIndex.ofExclusions_eq_ok.mpr ⟨compiled, hcompiled, rfl⟩⟩
  have hexcludes (types : TypeTable) (c : Call) (hc : index.excludes types c = true) :
      index'.excludes types c = true :=
    ExclusionIndex.excludes_of_extends h hindex hindex' hc
  refine ⟨⟨e', index'⟩, ofExclusions_eq_ok.mpr ⟨index', hindex', rfl⟩, hexcludes, fun types p => ?_⟩
  have hfiles : (Checker.mk e' index').looksAt = (Checker.mk e index).looksAt := by
    funext file
    rw [looksAt, looksAt, h.generated]
  have hmodes : (Checker.mk e' index').modes = (Checker.mk e index).modes := by
    rw [modes, modes, h.blank, h.asserts]
  refine check_sublist hfiles ⟨?_, ?_, hexcludes types⟩ p
  · rw [hmodes]
    exact id
  · rw [hmodes]
    exact id

/-- The package `fmt` with a pattern for a vendored copy of it. -/
def fewerRules : Exclusions :=
  { packages := ["fmt"], patterns := ⟨[("a/vendor/fmt", "Print")]⟩ }

/-- The copy is excluded as a whole as well, and a function of another package. -/
def moreRules : Exclusions :=
  { fewerRules with packages := ["a/vendor/fmt", "fmt"], symbols := ["p.f"] }

theorem extends_moreRules : fewerRules.Extends moreRules where
  blank := rfl
  asserts := rfl
  generated := rfl
  patterns := rfl
  packages := by decide
  symbols := by decide
  defaults := id

/-- A call into `fmt` stays excluded, and the call of the other package is excluded as well. -/
theorem Checker.further_call_excluded :
    ∃ checker checker', Checker.ofExclusions fewerRules = .ok checker ∧
      Checker.ofExclusions moreRules = .ok checker' ∧
      checker'.index.excludes .initial (ExclusionIndex.packageCall "fmt" "Fscan" []) = true ∧
      checker'.check .initial (droppingPackage "p") <+
        checker.check .initial (droppingPackage "p") ∧
      (checker.check .initial (droppingPackage "p")).map (·.funcName) = ["p.f"] ∧
      checker'.check .initial (droppingPackage "p") = [] := by
  obtain ⟨checker, hchecker⟩ : ∃ checker, Checker.ofExclusions fewerRules = .ok checker := ⟨_, rfl⟩
  obtain ⟨checker', hchecker', hexcludes, hcheck⟩ := rules_only_exclude extends_moreRules hchecker
  have hfmt : (Checker.ofExclusions fewerRules).toOption.map
      (·.index.excludes .initial (ExclusionIndex.packageCall "fmt" "Fscan" [])) = some true := by
    decide +kernel
  have hfew : (Checker.ofExclusions fewerRules).toOption.map (fun checker =>
      (checker.check .initial (droppingPackage "p")).map (·.funcName)) = some ["p.f"] := by
    decide +kernel
  have hmore : (Checker.ofExclusions moreRules).toOption.map
      (·.check .initial (droppingPackage "p")) = some [] := by
    decide +kernel
  rw [hchecker] at hfmt hfew
  rw [hchecker'] at hmore
  exact ⟨checker, checker', hchecker, hchecker', hexcludes _ _ (Option.some.inj hfmt), hcheck _ _,
    Option.some.inj hfew, Option.some.inj hmore⟩

end UncheckedErrors
