import UncheckedErrors.Proofs.Places.Statements

/-!
# Programs by places

The readers of files, packages and programs, written with lookups by number. `Places.program_eq` is
the result on readers: whatever a datum holds, reading it finds every place that it looks up, and
the outcome is that of `readProgram`.
-/

namespace UncheckedErrors

namespace Places

/-- A lookup in forms among those of programs. -/
def lift {α : Type} (lookup : Lookup ShapeError α) : Lookup DumpError α := fun table =>
  Option.map (·.mapError fun e => .shape (e.within stepLimit)) (lookup table)

/-- The texts of strings and symbols. -/
def strings (items : List Datum) : Lookup ShapeError (List String) :=
  items.mapM fun d => (d.asString : Shape String)

/-- The source of a file from its options. -/
def source (root : SourceRoot) (name : String) (options : Options) :
    Lookup DumpError SourceFile := do
  match options.get? "source" with
  | some lines => do
    let lines ← lift (strings lines)
    return .ofLines name lines
  | none =>
    match ← lift (single? options "source-path") with
    | none => throw (.shape (.noSource name))
    | some d => do
      let path := root.base.join (.ofString (← lift d.asString))
      match root.disk.read path with
      | .ok text => return ⟨name, text⟩
      | .error reason => throw (.source path reason)

/-- A file of the package `packageName`. -/
def file (root : SourceRoot) (packageName : String) (d : Datum) :
    Lookup DumpError ParsedFile := do
  lift (expectTag "file" 2 d)
  let name ← lift do (← place d 1).asString
  let (decls, options) ←
    lift do splitOptions ["build-tags", "source", "source-path"] (← placesFrom d 2)
  let source ← source root name options
  let decls ← lift (decls.mapM decl)
  let tags ← lift (strings (options.getAll "build-tags"))
  return ⟨name, ⟨packageName, source.packagePos, decls⟩, source, tags⟩

/-- A package. -/
def package (root : SourceRoot) (d : Datum) : Lookup DumpError Package := do
  lift (expectTag "package" 3 d)
  let path ← lift do (← place d 1).asString
  let name ← lift do (← place d 2).asString
  let (files, options) ← lift do splitOptions ["test", "errors"] (← placesFrom d 3)
  let files ← files.mapM (file root name)
  let errors ← lift (strings (options.getAll "errors"))
  return ⟨path, name, files, errors, (options.get? "test").isSome⟩

/-- Adds one top-level form to the parts of a program. -/
def topLevel (root : SourceRoot) (parts : ProgramParts) (d : Datum) :
    Lookup DumpError ProgramParts := do
  match ← lift do expect 1 d; head d with
  | "mod" => do
    lift (expect 2 d)
    return { parts with mod := some (← lift do (← place d 1).asString) }
  | "typedef" => do
    lift (typedef d)
    return parts
  | "package" => do
    let p ← package root d
    return { parts with packages := parts.packages ++ [p] }
  | tag => throw (.shape (.unknownForm .topLevel tag))

/-- The program that a datum describes. -/
def program (root : SourceRoot) (d : Datum) : Option (Except DumpError Program) :=
  let look : Lookup DumpError ProgramParts := do
    lift (expectTag "program" 0 d)
    (← lift (placesFrom d 1)).foldlM (topLevel root) ⟨none, []⟩
  Option.map (·.map fun (parts, types) => ⟨parts.packages, parts.mod, types⟩) (look .initial)

/-! ## Every place is found -/

@[simp] theorem lift_found {α : Type} (r : Reader α) : lift (found r) = found (Reader.lift r) := rfl

@[simp] theorem lift_pure {α : Type} (a : α) : lift (pure a) = pure a := rfl

@[simp] theorem readerLift_pure {α : Type} (a : α) : Reader.lift (pure a) = pure a := rfl

@[simp] theorem lift_liftM {α : Type} (x : Shape α) :
    lift (liftM x) = found (Reader.lift (liftM x)) := by
  rw [← lift_found, found_liftM]

@[simp] theorem lift_mapM_found {α β : Type} (f : α → Reader β) (as : List α) :
    lift (as.mapM fun a => found (f a)) = found (Reader.lift (as.mapM f)) := by
  rw [← found_mapM, lift_found]

@[simp] theorem lift_strings (items : List Datum) :
    lift (strings items) =
      found (Reader.lift (items.mapM fun d => (liftM d.asString : Reader String))) := by
  rw [← lift_mapM_found]
  simp only [strings, found_liftM]

/-- A check `look` that says of a datum what the taking apart `x` says of it, and what is done with
the parts. -/
theorem lift_bind {α β γ : Type} {look : Lookup ShapeError β} {x : Shape γ} {f : γ → β}
    {k : β → Lookup DumpError α} {g : γ → ProgramReader α}
    (hlook : look = liftM x >>= fun c => pure (f c)) (h : ∀ c, x = .ok c → k (f c) = found (g c)) :
    lift look >>= k = found (Reader.lift (liftM x) >>= g) := by
  cases x with
  | error e =>
    rw [hlook]
    rfl
  | ok c =>
    rw [hlook, liftM_ok_lookup, pure_bind, lift_pure, pure_bind, h c rfl]
    rfl

theorem lift_expectTag {α : Type} {tag : String} {least : Nat} {d : Datum}
    {k : Lookup DumpError α} {g : Form → ProgramReader α}
    (h : ∀ form : Form, d = form.datum → least ≤ form.args.length + 1 → k = found (g form)) :
    (lift (expectTag tag least d) >>= fun _ => k) =
      found (Reader.lift (liftM (Form.tagged tag least d)) >>= g) :=
  lift_bind (expectTag_eq tag least d) fun form hform => by
    obtain ⟨hd, rfl, hlength⟩ := Form.tagged_eq_ok.mp hform
    exact h form hd hlength

@[simp] theorem source_eq (root : SourceRoot) (name : String) (options : Options) :
    source root name options = found (readSource root name options) := by
  unfold source readSource
  cases options.get? "source" with
  | some lines => simp
  | none =>
    simp only [single?_eq, lift_liftM, found_bind]
    congr 1
    funext d
    cases d with
    | none => rfl
    | some d =>
      show (found (Reader.lift (liftM d.asString)) >>= fun path => _) =
        found (Reader.lift (liftM d.asString) >>= fun path => _)
      rw [found_bind]
      congr 1
      funext path
      cases root.disk.read (root.base.join (.ofString path)) <;> rfl

@[simp] theorem file_eq (root : SourceRoot) (packageName : String) :
    file root packageName = fun d => found (readFile root packageName d) := by
  funext d
  refine lift_expectTag ?_
  rintro ⟨tag, args⟩ rfl hlength
  obtain ⟨name, rest, rfl⟩ := exists_operand hlength
  simp [Form.operand]

@[simp] theorem package_eq (root : SourceRoot) (d : Datum) :
    package root d = found (readPackage root d) := by
  refine lift_expectTag ?_
  rintro ⟨tag, args⟩ rfl hlength
  obtain ⟨path, name, rest, rfl⟩ := exists_operands2 hlength
  simp [Form.operands2]

@[simp] theorem topLevel_eq (root : SourceRoot) :
    topLevel root = fun parts d => found (readTopLevel root parts d) := by
  funext parts d
  refine lift_bind (expect_head Nat.one_pos d) fun ⟨tag, args⟩ hform => ?_
  obtain rfl : d = Form.datum ⟨tag, args⟩ := (Form.ofDatum_eq_ok.mp hform).1
  dsimp only
  split
  · refine lift_bind (expect_operand ⟨"mod", args⟩) fun ⟨mode, rest⟩ hargs => ?_
    obtain rfl := Form.operand_eq_ok.mp hargs
    simp
  · simp [typedef_eq]
  · simp
  · simp

/-- Reading a program finds every place. -/
theorem program_eq (root : SourceRoot) (d : Datum) :
    program root d = some (readProgram root d) := by
  have hlook : (lift (expectTag "program" 0 d) >>= fun _ =>
        lift (placesFrom d 1) >>= fun items => items.foldlM (topLevel root) ⟨none, []⟩) =
      found (Reader.lift (Form.tagged "program" 0 d) >>= fun form =>
        form.args.foldlM (readTopLevel root) ⟨none, []⟩) := by
    refine lift_expectTag ?_
    rintro form rfl -
    simp
  have hmap (read : Except DumpError (ProgramParts × TypeTable)) :
      read.map (fun (parts, types) => Program.mk parts.packages parts.mod types) =
        read >>= fun (parts, types) => return ⟨parts.packages, parts.mod, types⟩ := by
    cases read <;> rfl
  exact (congrArg (Option.map _) (congrFun hlook .initial)).trans (congrArg some (hmap _))

end Places

end UncheckedErrors
