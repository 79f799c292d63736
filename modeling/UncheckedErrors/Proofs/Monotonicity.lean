import Mathlib.Data.List.Flatten
import UncheckedErrors.Proofs.Suppression

/-!
# More modes, more findings

A mode that is switched on, or an exclusion that is dropped, only adds findings. Two scans of a file
are compared that go side by side: under modes and exclusions that are `Narrower`, a visit adds a
part of what it adds under the others, and both scans remember the same checked assertions
(`Scan.Within.visit`). So what a whole scan reports is a part of what the other reports
(`File.sites_sublist`), in the same order.

`Checker.modes_only_add` states this of packages, and of the merged findings of programs.
-/

namespace UncheckedErrors

open scoped List
open List (Sublist)

/-- What the first modes and exclusions let through, the second do. -/
structure Narrower (modes modes' : Modes) (excluded excluded' : Call → Bool) : Prop where
  blank : modes.blank = true → modes'.blank = true
  asserts : modes.asserts = true → modes'.asserts = true
  excluded : ∀ c, excluded' c = true → excluded c = true

/-- A list behind a condition is a part of one behind a weaker condition. -/
theorem sublist_of_imp {α : Type} {b b' : Bool} {xs xs' : List α} (hb : b = true → b' = true)
    (hxs : xs <+ xs') : (if b then xs else []) <+ (if b' then xs' else []) := by
  cases b with
  | false => exact List.nil_sublist _
  | true =>
    rw [hb rfl]
    exact hxs

theorem and_imp_and {a b a' b' : Bool} (ha : a = true → a' = true) (hb : b = true → b' = true) :
    (a && b) = true → (a' && b') = true := by
  rw [Bool.and_eq_true, Bool.and_eq_true]
  exact And.imp ha hb

namespace Narrower

variable {modes modes' : Modes} {excluded excluded' : Call → Bool}
  (h : Narrower modes modes' excluded excluded')

include h

theorem reported (c : Call) : (!excluded c) = true → (!excluded' c) = true := by
  rw [Bool.not_eq_true', Bool.not_eq_true', ← Bool.not_eq_true, ← Bool.not_eq_true]
  exact mt (h.excluded c)

theorem callSites_sublist (c : Call) : callSites excluded c <+ callSites excluded' c :=
  sublist_of_imp (and_imp_and id (h.reported c)) (Sublist.refl _)

theorem soleSites_sublist (lhs : List Expr) (rhs : Expr) :
    soleSites modes excluded lhs rhs <+ soleSites modes' excluded' lhs rhs := by
  unfold soleSites
  split
  · exact sublist_of_imp (and_imp_and h.blank (h.reported _)) (Sublist.refl _)
  · split
    · exact sublist_of_imp (and_imp_and (and_imp_and h.asserts h.blank) id) (Sublist.refl _)
    · exact Sublist.refl _
  · exact Sublist.refl _

theorem pairSites_sublist (target value : Expr) :
    pairSites modes excluded target value <+ pairSites modes' excluded' target value := by
  refine sublist_of_imp (and_imp_and id h.blank) ?_
  split
  · exact sublist_of_imp (and_imp_and id (h.reported _)) (Sublist.refl _)
  · exact sublist_of_imp h.asserts (Sublist.refl _)
  · exact Sublist.refl _

theorem assignmentSites_sublist (lhs rhs : List Expr) :
    assignmentSites modes excluded lhs rhs <+ assignmentSites modes' excluded' lhs rhs := by
  unfold assignmentSites
  split
  · exact h.soleSites_sublist lhs _
  · split
    · exact Sublist.flatMap_right _ fun pair _ => h.pairSites_sublist pair.1 pair.2
    · exact Sublist.refl _

end Narrower

namespace Scan

/-- The first scan reports a part of what the second does, and both know the same assertions to be
checked. -/
structure Within (scan scan' : Scan) : Prop where
  sites : scan.sites <+ scan'.sites
  commaOk : scan.commaOk = scan'.commaOk

variable {modes modes' : Modes} {excluded excluded' : Call → Bool}
  (h : Narrower modes modes' excluded excluded')

include h

theorem Within.assignment {scan scan' : Scan} (hscan : scan.Within scan') (a : Address)
    (lhs rhs : List Expr) :
    (scan.assignment modes excluded a lhs rhs).Within
      (scan'.assignment modes' excluded' a lhs rhs) where
  sites := hscan.sites.append (h.assignmentSites_sublist lhs rhs)
  commaOk := by rw [Scan.assignment, Scan.assignment, hscan.commaOk]

/-- One visit: what is added is a part, and an assertion is checked for both scans or for none. -/
theorem Within.visit {scan scan' : Scan} (hscan : scan.Within scan') (v : Visit) :
    (scan.visit modes excluded v).Within (scan'.visit modes' excluded' v) := by
  have hcall (c : Call) : (scan.report (callSites excluded c)).Within
      (scan'.report (callSites excluded' c)) :=
    ⟨hscan.sites.append (h.callSites_sublist c), hscan.commaOk⟩
  unfold Scan.visit
  split
  · exact hcall _
  · exact hcall _
  · exact hcall _
  · exact hscan.assignment h _ _ _
  · exact hscan.assignment h _ _ _
  · rename_i x lparen asserted type hnode
    have hguard : (modes.asserts && !scan.commaOk.contains v.address) = true →
        (modes'.asserts && !scan'.commaOk.contains v.address) = true := by
      rw [hscan.commaOk]
      exact and_imp_and h.asserts id
    split
    · rename_i hreport
      rw [if_pos (hguard hreport)]
      exact ⟨hscan.sites.append_right _, hscan.commaOk⟩
    · split
      · exact ⟨hscan.sites.trans (List.sublist_append_left _ _), hscan.commaOk⟩
      · exact hscan
  · exact hscan

/-- All visits of a walk. -/
theorem Within.foldl {scan scan' : Scan} (hscan : scan.Within scan') (visits : List Visit) :
    (visits.foldl (·.visit modes excluded) scan).Within
      (visits.foldl (·.visit modes' excluded') scan') := by
  induction visits generalizing scan scan' with
  | nil => exact hscan
  | cons v visits ih => exact ih (hscan.visit h v)

end Scan

section

variable {modes modes' : Modes} {excluded excluded' : Call → Bool}
  (h : Narrower modes modes' excluded excluded')

include h

/-- A whole scan. -/
theorem File.sites_sublist (file : File) :
    file.sites modes excluded <+ file.sites modes' excluded' := by
  have hstart : ({} : Scan).Within {} := ⟨Sublist.refl _, rfl⟩
  exact (hstart.foldl h _).sites

theorem ParsedFile.diagnostics_sublist (file : ParsedFile) :
    file.diagnostics modes excluded <+ file.diagnostics modes' excluded' :=
  (file.tree.sites_sublist h).map _

end

/-! ## Checks of packages and programs -/

namespace Checker

variable {checker checker' : Checker}

/-- A check that looks at the same files and lets less through finds less. -/
theorem check_sublist (hfiles : checker.looksAt = checker'.looksAt) {types : TypeTable}
    (h : Narrower checker.modes checker'.modes (checker.index.excludes types)
      (checker'.index.excludes types)) (p : Package) :
    checker.check types p <+ checker'.check types p := by
  rw [check, check, hfiles]
  exact Sublist.flatMap_right _ fun file _ => file.diagnostics_sublist h

/-- What comes out of a run is in order, so fewer findings are a part of more findings. -/
theorem keys_collect_sublist {program : Program}
    (h : ∀ p, checker.check program.types p <+ checker'.check program.types p)
    {completed completed' : List Package} (hperm : completed.Perm completed') :
    (checker.collect program completed).diagnostics.map Diagnostic.key <+
      (checker'.collect program completed').diagnostics.map Diagnostic.key := by
  refine sublist_of_strict (RunResults.strict_diagnostics _).map
    (RunResults.strict_diagnostics _).map fun k hk => ?_
  rw [RunResults.mem_keys_diagnostics, List.mem_map] at hk ⊢
  obtain ⟨d, hd, hkey⟩ := hk
  obtain ⟨p, hp, hcheck⟩ := (checker.mem_merged_collect program).mp hd
  exact ⟨d, (checker'.mem_merged_collect program).mpr
    ⟨p, hperm.mem_iff.mp hp, (h p).subset hcheck⟩, hkey⟩

end Checker

/-- The configuration with more kinds of findings reported. -/
def Exclusions.reporting (e : Exclusions) (blank asserts : Bool) : Exclusions :=
  { e with
    blankAssignments := e.blankAssignments || blank
    typeAssertions := e.typeAssertions || asserts }

/-- Blank assignments or type assertions that are reported as well only add findings, to a package
and to the merged findings of a program in whatever order its packages complete. -/
theorem Checker.modes_only_add {e : Exclusions} {library : PatternLibrary} {checker : Checker}
    (hchecker : Checker.ofExclusions e library = .ok checker) (blank asserts : Bool) :
    ∃ stronger, Checker.ofExclusions (e.reporting blank asserts) library = .ok stronger ∧
      (∀ types p, checker.check types p <+ stronger.check types p) ∧
      ∀ program completed completed', completed.Perm (tasks program) →
        completed'.Perm (tasks program) →
        (checker.collect program completed).diagnostics.map Diagnostic.key <+
          (stronger.collect program completed').diagnostics.map Diagnostic.key := by
  obtain ⟨index, hindex, rfl⟩ := ofExclusions_eq_ok.mp hchecker
  have hcheck (types : TypeTable) (p : Package) :
      (Checker.mk e index).check types p <+
        (Checker.mk (e.reporting blank asserts) index).check types p := by
    have hfiles : (Checker.mk e index).looksAt =
        (Checker.mk (e.reporting blank asserts) index).looksAt := rfl
    refine check_sublist hfiles ⟨fun hblank => ?_, fun hasserts => ?_, fun _ => id⟩ p
    · exact Bool.or_eq_true_iff.mpr (.inl hblank)
    · exact Bool.or_eq_true_iff.mpr (.inl hasserts)
  refine ⟨⟨e.reporting blank asserts, index⟩, ofExclusions_eq_ok.mpr ⟨index, hindex, rfl⟩, hcheck,
    fun program completed completed' h h' => ?_⟩
  exact keys_collect_sublist (hcheck program.types) (h.trans h'.symm)

/-- The body of a function that drops an error and assigns another one to `_`. -/
def carelessBody : Block :=
  .mk [.expr (.call (bareCall "p")),
    .assign [.ident ⟨"_", 6, none, none⟩] "=" 8 [.call (bareCall "p")]] 0

/-- A package with that function. -/
def carelessPackage : Package where
  path := "p"
  name := "p"
  files := [{
    name := "a.go"
    tree := ⟨"p", 0, [.func ⟨⟨"main", 0, none, none⟩, 0, some carelessBody, none⟩]⟩
    source := ⟨"a.go", ""⟩
    buildTags := [] }]
  errors := []
  isTestVariant := false

/-- The assignment is found as well if blank assignments are reported. -/
theorem Checker.blank_assignment_added :
    ∃ checker stronger, Checker.ofExclusions {} = .ok checker ∧
      Checker.ofExclusions (({} : Exclusions).reporting true false) = .ok stronger ∧
      checker.check .initial carelessPackage <+ stronger.check .initial carelessPackage ∧
      (checker.check .initial carelessPackage).map (·.kind) = [.uncheckedCall] ∧
      (stronger.check .initial carelessPackage).map (·.kind) =
        [.uncheckedCall, .uncheckedBlank] := by
  have hchecker : Checker.ofExclusions {} = .ok ⟨{}, .ofSymbols [] false⟩ := rfl
  obtain ⟨stronger, hstronger, hcheck, -⟩ := modes_only_add hchecker true false
  obtain ⟨index, hindex, rfl⟩ := ofExclusions_eq_ok.mp hstronger
  cases hindex
  exact ⟨_, _, hchecker, hstronger, hcheck _ _, by decide +kernel, by decide +kernel⟩

end UncheckedErrors
