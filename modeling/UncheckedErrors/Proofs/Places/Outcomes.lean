import UncheckedErrors.Proofs.Containment
import UncheckedErrors.Proofs.Places.Checks
import UncheckedErrors.Proofs.Places.Programs
import UncheckedErrors.Proofs.SharedFiles

/-!
# Every place is found

Reading a dump and checking its program look up parts of forms, types, fields, names, targets and
lines by number. None of these lookups reaches for something that is not there
(`Places.every_place_found`): whatever datum stands in a dump that has its sources in itself, either
there is a program, or a form is reported to be wrong under the name of the dump. And every check of
a package of such a program completes, whatever the rules are.

This puts together `Places.program_eq` and `Places.check_eq`. What is left to show here is that a
dump without sources on disk can only fail for a form.
-/

namespace UncheckedErrors

/-- Every file of a dump has its source in the dump, if it has one. -/
def Datum.SourcesInline (d : Datum) : Prop := ∀ form ∈ d.fileForms, form.sourcePath? = none

instance (d : Datum) : Decidable d.SourcesInline := inferInstanceAs (Decidable (∀ _ ∈ _, _))

theorem readProgram_ne_source {root : SourceRoot} {d : Datum} (h : d.SourcesInline) (path : Path)
    (reason : FileError) : readProgram root d ≠ .error (.source path reason) := by
  intro hread
  have hfirst := firstUnreadable?_of_readProgram hread
  obtain ⟨form, hform, hunreadable⟩ := List.exists_of_findSome?_eq_some hfirst
  rw [SourceRoot.unreadable?, h form hform] at hunreadable
  cases hunreadable

/-- A form that is wrong is reported under the name of the dump. -/
theorem loadText_of_shapeError {root : SourceRoot} {config : LoadConfig} {filename text : String}
    {d : Datum} {e : ShapeError} (hname : filename ≠ "") (hparse : Datum.parse text = .ok d)
    (hread : readProgram root d = .error (.shape e)) :
    (loadText root config filename text).outcome =
      .error (.fault (.ofKind .dumpSyntax (filename ++ ": " ++ e.message))) := by
  rw [loadText_of_dumpError hparse hread, DumpError.failure, Fault.dumpSyntax,
    if_neg (by simpa using hname)]

namespace Places

/-- Every datum with inline sources gives a program or an error in its form, and no reader looks up
a place that is not there. The error is reported as one of the dump, with the name of the dump in
front. Every package of the program can be checked under any rules, and no check looks up a place
that is not there. -/
theorem every_place_found (root : SourceRoot) {d : Datum} (hinline : d.SourcesInline) :
    (∃ read, readProgram root d = .ok read ∧ program root d = some (.ok read) ∧
      ∀ (checker : Checker), ∀ p ∈ read.packages,
        check checker read.types p = some (checker.check read.types p)) ∨
    ∃ e : ShapeError, readProgram root d = .error (.shape e) ∧
      program root d = some (.error (.shape e)) ∧
      ∀ config filename text, filename ≠ "" → Datum.parse text = .ok d →
        (loadText root config filename text).outcome =
          .error (.fault (.ofKind .dumpSyntax (filename ++ ": " ++ e.message))) := by
  have hplaces := program_eq root d
  cases hread : readProgram root d with
  | ok read =>
    rw [hread] at hplaces
    exact .inl ⟨read, rfl, hplaces, fun checker p _ => check_eq checker read.types p⟩
  | error e =>
    cases e with
    | source path reason => exact absurd hread (readProgram_ne_source hinline path reason)
    | shape e =>
      rw [hread] at hplaces
      exact .inr ⟨e, rfl, hplaces, fun _ _ _ hname hparse =>
        loadText_of_shapeError hname hparse hread⟩

/-- A dump whose only form is too short. -/
def shortDump : Datum := .list [.symbol "program", .list [.symbol "mod"]]

/-- A dump of a file that drops the error of a call. -/
def droppingDump : Datum :=
  .list [.symbol "program", .list [.symbol "package", .symbol "p", .symbol "p",
    .list [.symbol "file", .symbol "b.go", .list [.symbol "source", .string "f()"],
      .list [.symbol "func-decl", .symbol "f", .int 0, .list [.symbol "body",
        .list [.symbol "block", .int 0, droppingForm 1 2]]]]]]

/-- The short form is reported, and the dropped error is found. -/
theorem dropped_error_found :
    (shortDump.SourcesInline ∧
      (loadText ⟨⟨[], []⟩, .ofString "."⟩ {} "d.sexp" "(program (mod))").outcome =
        .error (.fault (.ofKind .dumpSyntax
          "d.sexp: (mod ...) too short: expected at least 2 elements, got 1"))) ∧
    droppingDump.SourcesInline ∧
      ∃ read, readProgram ⟨⟨[], []⟩, .ofString "."⟩ droppingDump = .ok read ∧
        ∀ p ∈ read.packages, ∃ found,
          check ⟨{}, .ofSymbols [] false⟩ read.types p = some found ∧
            found.map (·.text) = ["b.go:1:2\tf()"] := by
  have hshort : shortDump.SourcesInline := by decide
  have hdropping : droppingDump.SourcesInline := by decide
  refine ⟨⟨hshort, ?_⟩, hdropping, ?_⟩
  · have hparse : Datum.parse "(program (mod))" = .ok shortDump :=
      Datum.parse_of_toList String.toList_ofList rfl
    obtain ⟨_, hread, -⟩ | ⟨e, hread, -, hload⟩ :=
      every_place_found ⟨⟨[], []⟩, .ofString "."⟩ hshort
    · cases hread
    · cases hread
      exact hload {} "d.sexp" _ (by decide) hparse
  · obtain ⟨read, hread, -, hcheck⟩ | ⟨_, hread, -⟩ :=
      every_place_found ⟨⟨[], []⟩, .ofString "."⟩ hdropping
    · refine ⟨read, hread, fun p hp => ⟨_, hcheck _ p hp, ?_⟩⟩
      cases hread
      revert p
      decide +kernel
    · cases hread

end Places

end UncheckedErrors
