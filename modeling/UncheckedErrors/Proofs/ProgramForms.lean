import UncheckedErrors.Proofs.Readers

/-!
# Files of a dump and files of its program

The files of a program are those of the dump, package by package and in order. What every reading of
a file establishes between the form and the file therefore holds of all files of a program that is
read (`forall₂_files_of_readProgram`).
-/

namespace UncheckedErrors

namespace Datum

/-- The files of a form `(package PATH NAME ...)`: all elements but the options. -/
def filesOfPackage : Datum → List Datum
  | .list (.symbol "package" :: _ :: _ :: rest) =>
    rest.filter fun d => (optionKey? ["test", "errors"] d).isNone
  | _ => []

/-- The files of a form `(program ...)`, package by package. -/
def fileForms : Datum → List Datum
  | .list (_ :: forms) => forms.flatMap filesOfPackage
  | _ => []

end Datum

section

variable {P : Datum → ParsedFile → Prop} {root : SourceRoot}
  (hfile : ∀ packageName d, Yields (readFile root packageName d) (P d))

include hfile

theorem yields_package (d : Datum) :
    Yields (readPackage root d) fun p => List.Forall₂ P d.filesOfPackage p.files := by
  intro table p table' hp
  simp only [readPackage, bind_eq_ok, Reader.lift_eq_ok, liftM_eq_ok, pure_eq_ok, and_assoc,
    exists_and_left, exists_eq_left', Prod.exists, Form.tagged_eq_ok, Form.operands2_eq_ok] at hp
  obtain ⟨form, rfl, -, -, _, _, rest, hargs, _, -, name, -, items, options, hsplit, files, _,
    hfiles, _, _, -, rfl, -⟩ := hp
  rw [hargs, Datum.filesOfPackage, ← (splitOptions_eq_ok.mp hsplit).1]
  exact Yields.mapM (hfile name) items _ _ _ hfiles

/-- One top-level form adds the files of its package, if it is one. -/
theorem yields_topLevel (parts : ProgramParts) (d : Datum) :
    Yields (readTopLevel root parts d) fun parts' => ∃ new,
      parts'.packages = parts.packages ++ new ∧
        List.Forall₂ P d.filesOfPackage (new.flatMap (·.files)) := by
  intro table parts' table' hparts
  simp only [readTopLevel, bind_eq_ok, Reader.lift_eq_ok, liftM_eq_ok, and_assoc, exists_and_left,
    exists_eq_left', Form.ofDatum_eq_ok] at hparts
  obtain ⟨⟨tag, args⟩, rfl, -, hparts⟩ := hparts
  dsimp only at hparts
  split at hparts
  · simp only [bind_eq_ok, pure_eq_ok] at hparts
    obtain ⟨_, _, -, mode, _, -, rfl, -⟩ := hparts
    exact ⟨[], (List.append_nil _).symm, .nil⟩
  · simp only [bind_eq_ok, pure_eq_ok] at hparts
    obtain ⟨_, _, -, rfl, -⟩ := hparts
    exact ⟨[], (List.append_nil _).symm, .nil⟩
  · simp only [bind_eq_ok, pure_eq_ok] at hparts
    obtain ⟨p, _, hp, rfl, -⟩ := hparts
    refine ⟨[p], rfl, ?_⟩
    rw [List.flatMap_singleton]
    exact yields_package hfile _ _ _ _ hp
  · exact absurd hparts throw_eq_ok.mp

theorem yields_topLevels (parts : ProgramParts) (ds : List Datum) :
    Yields (ds.foldlM (readTopLevel root) parts) fun parts' => ∃ new,
      parts'.packages = parts.packages ++ new ∧
        List.Forall₂ P (ds.flatMap Datum.filesOfPackage) (new.flatMap (·.files)) := by
  induction ds generalizing parts with
  | nil =>
    intro table parts' table' hparts
    rw [← (pure_eq_ok.mp hparts).1]
    exact ⟨[], (List.append_nil _).symm, .nil⟩
  | cons d ds ih =>
    rw [List.foldlM_cons]
    refine (yields_topLevel hfile parts d).bind fun parts₁ hd => ?_
    refine (ih parts₁).imp fun parts₂ hds => ?_
    obtain ⟨new₁, heq₁, hnew₁⟩ := hd
    obtain ⟨new₂, heq₂, hnew₂⟩ := hds
    refine ⟨new₁ ++ new₂, ?_, ?_⟩
    · rw [heq₂, heq₁, List.append_assoc]
    · rw [List.flatMap_cons, List.flatMap_append]
      exact List.rel_append hnew₁ hnew₂

/-- What the reading of a file establishes holds of the files of a program, one by one. -/
theorem forall₂_files_of_readProgram {d : Datum} {program : Program}
    (h : readProgram root d = .ok program) :
    List.Forall₂ P d.fileForms (program.packages.flatMap (·.files)) := by
  unfold readProgram at h
  obtain ⟨⟨parts, types⟩, hread, h⟩ := exceptBind_eq_ok.mp h
  cases h
  simp only [StateT.run, bind_eq_ok, Reader.lift_eq_ok, liftM_eq_ok, and_assoc, exists_and_left,
    exists_eq_left', Form.tagged_eq_ok] at hread
  obtain ⟨form, rfl, -, -, hparts⟩ := hread
  obtain ⟨new, hnew, hfiles⟩ := yields_topLevels hfile ⟨none, []⟩ form.args _ _ _ hparts
  rw [List.nil_append] at hnew
  rw [hnew]
  exact hfiles

end

end UncheckedErrors
