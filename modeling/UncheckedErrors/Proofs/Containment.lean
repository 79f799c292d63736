import UncheckedErrors.Exclusion.Index
import UncheckedErrors.Proofs.LineBreaks
import UncheckedErrors.Proofs.PackageSelection

/-!
# Which failures are faults

A load that fails, fails with a load fault, and an exclusion file that cannot be read is an
exclusion file fault, except where a file has no text: its path holds U+0000, or its bytes are no
UTF-8. `failures_contained_iff` says this in both directions, for the exclusion file, for the dump
and for the sources that the dump names.

Of several sources that cannot be read the first one ends the load (`ReadsSources`).
-/

namespace UncheckedErrors

theorem exceptBind_eq_error {ε α β : Type} {x : Except ε α} {f : α → Except ε β} {e : ε} :
    (x >>= f) = .error e ↔ x = .error e ∨ ∃ a, x = .ok a ∧ f a = .error e := by
  cases x with
  | error e => simp [bind, Except.bind]
  | ok a => simp [bind, Except.bind]

theorem bind_eq_error {σ ε α β : Type} {s : σ} {r : StateT σ (Except ε) α}
    {f : α → StateT σ (Except ε) β} {e : ε} :
    (r >>= f) s = .error e ↔
      r s = .error e ∨ ∃ a middle, r s = .ok (a, middle) ∧ f a middle = .error e := by
  refine exceptBind_eq_error.trans (or_congr_right ?_)
  rw [Prod.exists]

/-! ## Files without a text -/

/-- There is no text to be had under the path: the path holds U+0000, or the bytes of the file are
no UTF-8. -/
def Disk.NoText (disk : Disk) (path : Path) : Prop :=
  path.text.contains (Char.ofNat 0) = true ∨
    ∃ bytes, disk.readBytes path = .ok bytes ∧ ¬ bytes.IsValidUTF8

/-- Whether a file that fails for this reason is a fault. -/
def FileError.isFault : FileError → Bool
  | .undecodable | .notAPath => false
  | .notFound | .isDirectory | .notDirectory | .nameTooLong => true

namespace Disk

variable {disk : Disk} {path : Path} {reason : FileError}

theorem isFault_of_follow {here : List String} {entry : DiskEntry} {parts : List String}
    (h : disk.follow here entry parts = .error reason) : reason.isFault = true := by
  induction parts generalizing here entry with
  | nil => cases h
  | cons part rest ih =>
    unfold follow at h
    split at h
    · cases h
      rfl
    · split at h
      · cases h
        rfl
      · dsimp only at h
        split at h
        · exact ih h
        · cases h
          rfl

theorem isFault_of_readBytes (h : disk.readBytes path = .error reason)
    (hpath : ¬ path.text.contains (Char.ofNat 0) = true) : reason.isFault = true := by
  unfold readBytes at h
  rw [if_neg hpath] at h
  dsimp only at h
  split at h
  · cases h
    rfl
  · rcases exceptBind_eq_error.mp h with h | ⟨entry, -, h⟩
    · exact isFault_of_follow h
    · cases entry with
      | file bytes => cases h
      | directory =>
        cases h
        rfl

theorem decode_eq_error {bytes : ByteArray} :
    decode bytes = .error reason ↔ ¬ bytes.IsValidUTF8 ∧ .undecodable = reason := by
  unfold decode String.fromUTF8?
  by_cases h : bytes.IsValidUTF8
  · rw [dif_pos h]
    simp [h, pure, Except.pure]
  · rw [dif_neg h]
    simp [h, throw, throwThe, MonadExceptOf.throw]

/-- A file cannot be read for a reason that is no fault exactly if it has no text. -/
theorem noText_iff :
    disk.NoText path ↔ ∃ reason, disk.read path = .error reason ∧ reason.isFault = false := by
  constructor
  · rintro (hpath | ⟨bytes, hbytes, hvalid⟩)
    · refine ⟨.notAPath, ?_, rfl⟩
      have hbytes : disk.readBytes path = .error .notAPath := by
        rw [readBytes, if_pos hpath]
        rfl
      exact exceptBind_eq_error.mpr (.inl hbytes)
    · exact ⟨.undecodable,
        exceptBind_eq_error.mpr (.inr ⟨bytes, hbytes, decode_eq_error.mpr ⟨hvalid, rfl⟩⟩), rfl⟩
  · rintro ⟨reason, hread, hfault⟩
    rcases exceptBind_eq_error.mp hread with hbytes | ⟨bytes, hbytes, hdecode⟩
    · by_contra hno
      rw [isFault_of_readBytes hbytes fun hpath => hno (.inl hpath)] at hfault
      cases hfault
    · exact .inr ⟨bytes, hbytes, (decode_eq_error.mp hdecode).1⟩

theorem isFault_of_read (h : disk.read path = .error reason) :
    reason.isFault = false ↔ disk.NoText path := by
  rw [noText_iff]
  constructor
  · intro hfault
    exact ⟨reason, h, hfault⟩
  · rintro ⟨reason', h', hfault⟩
    rw [h] at h'
    cases h'
    exact hfault

theorem not_noText_of_read {text : String} (h : disk.read path = .ok text) :
    ¬ disk.NoText path := by
  rw [noText_iff]
  rintro ⟨reason, h', -⟩
  rw [h] at h'
  cases h'

end Disk

/-! ## Contained failures -/

/-- The outcome is a value, or a fault of one of these kinds. -/
def Contained {α : Type} (kinds : FaultKind → Bool) : Except Failure α → Prop
  | .ok _ => True
  | .error (.fault f) => kinds f.kind = true
  | .error _ => False

theorem contained_ofFile {α : Type} {kinds : FaultKind → Bool} {fault : FileError → Fault}
    (hfault : ∀ reason, kinds (fault reason).kind = true) (reason : FileError) :
    Contained (α := α) kinds (.error (.ofFile fault reason)) ↔ reason.isFault = true := by
  cases reason with
  | undecodable => simp [Failure.ofFile, Contained, FileError.isFault]
  | notAPath => simp [Failure.ofFile, Contained, FileError.isFault]
  | notFound => simp [Failure.ofFile, Contained, FileError.isFault, hfault]
  | isDirectory => simp [Failure.ofFile, Contained, FileError.isFault, hfault]
  | notDirectory => simp [Failure.ofFile, Contained, FileError.isFault, hfault]
  | nameTooLong => simp [Failure.ofFile, Contained, FileError.isFault, hfault]

theorem contained_readExcludes_iff (disk : Disk) (path : Path) :
    Contained (· == .excludeFile) (readExcludes disk path) ↔ ¬ disk.NoText path := by
  unfold readExcludes
  cases hread : disk.read path with
  | ok text => exact iff_of_true trivial (Disk.not_noText_of_read hread)
  | error reason =>
    dsimp only
    rw [contained_ofFile fun _ => rfl, ← Disk.isFault_of_read hread, Bool.not_eq_false]

/-! ## Sources that cannot be read -/

/-- The source of a file that cannot be read, and why. -/
def SourceRoot.unreadable? (root : SourceRoot) (form : Datum) : Option (Path × FileError) :=
  form.sourcePath?.bind fun path =>
    match root.disk.read (root.base.join (.ofString path)) with
    | .ok _ => none
    | .error reason => some (root.base.join (.ofString path), reason)

/-- The first source among those of some files that cannot be read, and why. -/
def SourceRoot.firstUnreadable? (root : SourceRoot) (forms : List Datum) :
    Option (Path × FileError) :=
  forms.findSome? root.unreadable?

/-- The reader reads the sources of these files in order: it succeeds only if they can all be read,
and if it fails because of a source, that is the first one which cannot. -/
structure ReadsSources {α : Type} (root : SourceRoot) (forms : List Datum)
    (r : ProgramReader α) : Prop where
  readable {table table' : TypeTable} {a : α} : r table = .ok (a, table') →
    root.firstUnreadable? forms = none
  unreadable {table : TypeTable} {path : Path} {reason : FileError} :
    r table = .error (.source path reason) → root.firstUnreadable? forms = some (path, reason)

namespace ReadsSources

variable {α β : Type} {root : SourceRoot} {r : ProgramReader α} {forms : List Datum}

theorem lift (r : Reader α) : ReadsSources root [] (Reader.lift r) where
  readable _ := rfl
  unreadable {table _ _} h := by
    unfold Reader.lift at h
    cases hr : r table with
    | ok p =>
      rw [hr] at h
      cases h
    | error e =>
      rw [hr] at h
      cases h

theorem pure (a : α) : ReadsSources root [] (pure a) where
  readable _ := rfl
  unreadable h := nomatch h

theorem throw (e : ShapeError) : ReadsSources (α := α) root forms (throw (.shape e)) where
  readable h := nomatch h
  unreadable h := nomatch h

theorem bind {forms' : List Datum} {f : α → ProgramReader β} (h : ReadsSources root forms r)
    (hf : ∀ table a table', r table = .ok (a, table') → ReadsSources root forms' (f a)) :
    ReadsSources root (forms ++ forms') (r >>= f) where
  readable hb := by
    obtain ⟨a, middle, ha, hb⟩ := bind_eq_ok.mp hb
    rw [SourceRoot.firstUnreadable?, List.findSome?_append, ← SourceRoot.firstUnreadable?,
      h.readable ha, Option.none_or]
    exact (hf _ _ _ ha).readable hb
  unreadable hb := by
    rw [SourceRoot.firstUnreadable?, List.findSome?_append, ← SourceRoot.firstUnreadable?]
    rcases bind_eq_error.mp hb with ha | ⟨a, middle, ha, hb⟩
    · rw [h.unreadable ha, Option.some_or]
    · rw [h.readable ha, Option.none_or]
      exact (hf _ _ _ ha).unreadable hb

/-- A step that takes a form apart reads no source. -/
theorem after {x : Reader α} {f : α → ProgramReader β}
    (hf : ∀ table a table', x table = .ok (a, table') → ReadsSources root forms (f a)) :
    ReadsSources root forms (Reader.lift x >>= f) :=
  (lift x).bind fun _ _ _ ha => hf _ _ _ (Reader.lift_eq_ok.mp ha)

/-- So does a last step. -/
theorem before {f : α → ProgramReader β} (h : ReadsSources root forms r)
    (hf : ∀ a, ReadsSources root [] (f a)) : ReadsSources root forms (r >>= f) := by
  have hbind := h.bind fun _ a _ _ => hf a
  rwa [List.append_nil] at hbind

theorem mapM {δ : Type} {f : δ → ProgramReader β} {sources : δ → List Datum}
    (h : ∀ d, ReadsSources root (sources d) (f d)) (ds : List δ) :
    ReadsSources root (ds.flatMap sources) (ds.mapM f) := by
  induction ds with
  | nil => exact .pure []
  | cons d ds ih =>
    rw [List.mapM_cons, List.flatMap_cons]
    exact (h d).bind fun _ _ _ _ => ih.before fun _ => .pure _

theorem foldlM {δ : Type} {f : α → δ → ProgramReader α} {sources : δ → List Datum}
    (h : ∀ a d, ReadsSources root (sources d) (f a d)) (a : α) (ds : List δ) :
    ReadsSources root (ds.flatMap sources) (ds.foldlM f a) := by
  induction ds generalizing a with
  | nil => exact .pure a
  | cons d ds ih =>
    rw [List.foldlM_cons, List.flatMap_cons]
    exact (h a d).bind fun _ _ _ _ => ih _

end ReadsSources

theorem Options.get?_of_single? {options : Options} {key : String} {d : Datum}
    (h : options.single? key = .ok (some d)) : options.get? key = some [d] := by
  unfold single? at h
  split at h
  · cases exceptPure_eq_ok.mp h
  · rename_i hget
    cases exceptPure_eq_ok.mp h
    exact hget
  · cases exceptThrow_eq_ok.mp h

theorem SourceRoot.firstUnreadable?_singleton (root : SourceRoot) (form : Datum) :
    root.firstUnreadable? [form] = root.unreadable? form :=
  List.findSome?_singleton

theorem SourceRoot.unreadable?_of_inline (root : SourceRoot) {form : Datum} {lines : List Datum}
    (h : form.fileOptions.get? "source" = some lines) : root.unreadable? form = none := by
  rw [unreadable?, Datum.sourcePath?, h]
  rfl

theorem SourceRoot.unreadable?_of_path (root : SourceRoot) {form d : Datum} {path : String}
    (hinline : form.fileOptions.get? "source" = none)
    (hpath : form.fileOptions.get? "source-path" = some [d]) (hd : d.asString = .ok path) :
    root.unreadable? form =
      match root.disk.read (root.base.join (.ofString path)) with
      | .ok _ => none
      | .error reason => some (root.base.join (.ofString path), reason) := by
  have hsource : form.sourcePath? = some path := by
    rw [Datum.sourcePath?, hinline, hpath]
    cases d with
    | string s => cases hd; rfl
    | symbol s => cases hd; rfl
    | _ => cases hd
  rw [unreadable?, hsource]
  rfl

theorem readsSources_source (root : SourceRoot) {form : Datum} (name : String) {options : Options}
    (hoptions : form.fileOptions = options) :
    ReadsSources root [form] (readSource root name options) := by
  subst hoptions
  unfold readSource
  split
  · rename_i lines hlines
    have hnone := root.unreadable?_of_inline hlines
    refine .after fun _ lines _ _ => ⟨fun _ => ?_, fun h => nomatch h⟩
    rw [SourceRoot.firstUnreadable?_singleton, hnone]
  · rename_i hinline
    refine .after fun _ found _ hfound => ?_
    cases found with
    | none => exact .throw _
    | some d =>
      refine .after fun _ path _ hpath => ?_
      have hsingle := Options.get?_of_single? (liftM_eq_ok.mp hfound).1
      have hform := root.unreadable?_of_path hinline hsingle (liftM_eq_ok.mp hpath).1
      rw [← SourceRoot.firstUnreadable?_singleton] at hform
      dsimp only
      cases hread : root.disk.read (root.base.join (.ofString path)) with
      | ok text =>
        rw [hread] at hform
        exact ⟨fun _ => hform, fun h => nomatch h⟩
      | error reason =>
        rw [hread] at hform
        refine ⟨(fun h => nomatch h), fun h => ?_⟩
        cases h
        exact hform

theorem readsSources_file (root : SourceRoot) (packageName : String) (d : Datum) :
    ReadsSources root [d] (readFile root packageName d) := by
  refine .after fun _ form _ hform => .after fun _ (name, rest) _ hargs => .after fun _ name' _ _ =>
    .after fun _ (decls, options) _ hsplit => ?_
  simp only [liftM_eq_ok, Form.tagged_eq_ok, Form.operand_eq_ok] at hform hargs hsplit
  obtain ⟨⟨rfl, -⟩, rfl⟩ := hform
  have hoptions : (Datum.list (.symbol "file" :: form.args)).fileOptions = options := by
    rw [hargs.1, Datum.fileOptions, (splitOptions_eq_ok.mp hsplit.1).2.1]
  exact (readsSources_source root name' hoptions).before fun _ =>
    .after fun _ _ _ _ => .after fun _ _ _ _ => .pure _

theorem readsSources_package (root : SourceRoot) (d : Datum) :
    ReadsSources root d.filesOfPackage (readPackage root d) := by
  refine .after fun _ form _ hform => .after fun _ (path, name, rest) _ hargs =>
    .after fun _ _ _ _ => .after fun _ name' _ _ => .after fun _ (files, options) _ hsplit => ?_
  simp only [liftM_eq_ok, Form.tagged_eq_ok, Form.operands2_eq_ok] at hform hargs hsplit
  obtain ⟨⟨rfl, -⟩, rfl⟩ := hform
  have hfiles : (Datum.list (.symbol "package" :: form.args)).filesOfPackage = files := by
    rw [hargs.1, Datum.filesOfPackage, (splitOptions_eq_ok.mp hsplit.1).1]
  have hmapM := ReadsSources.mapM (readsSources_file root name') files
  rw [List.flatMap_singleton'] at hmapM
  rw [hfiles]
  exact hmapM.before fun _ => .after fun _ _ _ _ => .pure _

theorem readsSources_topLevel (root : SourceRoot) (parts : ProgramParts) (d : Datum) :
    ReadsSources root d.filesOfPackage (readTopLevel root parts d) := by
  refine .after fun _ form _ hform => ?_
  simp only [liftM_eq_ok, Form.ofDatum_eq_ok] at hform
  obtain ⟨⟨hd, -⟩, -⟩ := hform
  have hother (htag : form.tag ≠ "package") : d.filesOfPackage = [] := by
    unfold Datum.filesOfPackage
    split
    · simp only [Datum.list.injEq, List.cons.injEq, Datum.symbol.injEq] at hd
      exact absurd hd.1.symm htag
    · rfl
  split
  · rename_i htag
    rw [hother (by rw [htag]; decide)]
    exact .after fun _ _ _ _ => .after fun _ _ _ _ => .pure _
  · rename_i htag
    rw [hother (by rw [htag]; decide)]
    exact .after fun _ _ _ _ => .pure _
  · exact (readsSources_package root d).before fun _ => .pure _
  · exact .throw _

theorem readsSources_program (root : SourceRoot) (d : Datum) :
    ReadsSources root d.fileForms (Reader.lift (Form.tagged "program" 0 d) >>= fun form =>
      form.args.foldlM (readTopLevel root) ⟨none, []⟩) := by
  refine .after fun _ form _ hform => ?_
  simp only [liftM_eq_ok, Form.tagged_eq_ok] at hform
  obtain ⟨⟨rfl, -⟩, -⟩ := hform
  exact .foldlM (readsSources_topLevel root) _ form.args

theorem read_of_firstUnreadable? {root : SourceRoot} {forms : List Datum} {path : Path}
    {reason : FileError} (h : root.firstUnreadable? forms = some (path, reason)) :
    root.disk.read path = .error reason := by
  obtain ⟨form, -, hform⟩ := List.exists_of_findSome?_eq_some h
  obtain ⟨name, -, hread⟩ := Option.bind_eq_some_iff.mp hform
  split at hread
  · cases hread
  · rename_i hread'
    cases hread
    exact hread'

/-- A source that cannot be read ends the reading of a program, unless a form is wrong before. -/
theorem readProgram_of_firstUnreadable? {root : SourceRoot} {d : Datum} {path : Path}
    {reason : FileError} (h : root.firstUnreadable? d.fileForms = some (path, reason)) :
    (∃ e, readProgram root d = .error (.shape e)) ∨
      readProgram root d = .error (.source path reason) := by
  cases hread : readProgram root d with
  | ok program =>
    obtain ⟨_, hparts, -⟩ := exceptBind_eq_ok.mp hread
    rw [(readsSources_program root d).readable hparts] at h
    cases h
  | error e =>
    cases e with
    | shape e => exact .inl ⟨e, rfl⟩
    | source path' reason' =>
      rcases exceptBind_eq_error.mp hread with hparts | ⟨_, -, hpure⟩
      · rw [(readsSources_program root d).unreadable hparts] at h
        cases h
        exact .inr rfl
      · cases hpure

theorem firstUnreadable?_of_readProgram {root : SourceRoot} {d : Datum} {path : Path}
    {reason : FileError} (h : readProgram root d = .error (.source path reason)) :
    root.firstUnreadable? d.fileForms = some (path, reason) := by
  rcases exceptBind_eq_error.mp h with hparts | ⟨_, -, hpure⟩
  · exact (readsSources_program root d).unreadable hparts
  · cases hpure

/-! ## Loads -/

theorem LoadConfig.isLoad_of_select {config : LoadConfig} {program : Program} {fault : Fault}
    (h : (config.select program).2 = .error fault) : fault.kind.isLoad = true := by
  rcases fault_of_select h with ⟨requested, actual, rfl⟩ | ⟨p, -, rfl⟩
  · rfl
  · rfl

theorem Datum.ParseError.isLoad_fault (filename : String) (e : Datum.ParseError) :
    (e.fault filename).kind.isLoad = true := by
  unfold fault
  split
  · rfl
  · rfl

theorem loadText_of_readProgram {root : SourceRoot} {config : LoadConfig} {filename text : String}
    {d : Datum} {program : Program} (hparse : Datum.parse text = .ok d)
    (hread : readProgram root d = .ok program) :
    (loadText root config filename text).outcome = (config.select program).2.mapError .fault := by
  unfold loadText
  simp only [hparse, hread]

theorem loadText_of_dumpError {root : SourceRoot} {config : LoadConfig} {filename text : String}
    {d : Datum} {e : DumpError} (hparse : Datum.parse text = .ok d)
    (hread : readProgram root d = .error e) :
    (loadText root config filename text).outcome = .error (e.failure filename) := by
  unfold loadText
  simp only [hparse, hread]

/-- A load ends in a failure that is no load fault only if a source has no text. -/
theorem contained_loadText_iff (root : SourceRoot) (config : LoadConfig) (filename : String)
    {text : String} {d : Datum} (hparse : Datum.parse text = .ok d) :
    Contained FaultKind.isLoad (loadText root config filename text).outcome ↔
      ∀ source reason, readProgram root d = .error (.source source reason) →
        ¬ root.disk.NoText source := by
  cases hread : readProgram root d with
  | ok program =>
    rw [loadText_of_readProgram hparse hread]
    refine iff_of_true ?_ fun _ _ h => nomatch h
    cases hselect : (config.select program).2 with
    | ok selected => trivial
    | error fault => exact LoadConfig.isLoad_of_select hselect
  | error e =>
    rw [loadText_of_dumpError hparse hread]
    cases e with
    | shape e => exact iff_of_true rfl fun _ _ h => nomatch h
    | source source reason =>
      have hsource := read_of_firstUnreadable? (firstUnreadable?_of_readProgram hread)
      show Contained _ (.error (.ofFile (.unreadableSource source) reason)) ↔ _
      rw [contained_ofFile fun _ => rfl, ← Bool.not_eq_false, Disk.isFault_of_read hsource]
      constructor
      · intro htext _ _ h
        cases h
        exact htext
      · intro h
        exact h source reason rfl

/-- A load of a file, by what is on disk: it is contained exactly if the file has a text and no
source without one is reached. -/
theorem contained_loadFile_iff (disk : Disk) (config : LoadConfig) (path : Path) :
    Contained FaultKind.isLoad (loadFile disk config path).outcome ↔
      ¬ disk.NoText path ∧ ∀ text d source reason, disk.read path = .ok text →
        Datum.parse text = .ok d →
        readProgram ⟨disk, path.parent⟩ d = .error (.source source reason) →
        ¬ disk.NoText source := by
  unfold loadFile
  cases hread : disk.read path with
  | error reason =>
    dsimp only
    rw [contained_ofFile fun _ => rfl, ← Bool.not_eq_false, Disk.isFault_of_read hread]
    simp
  | ok text =>
    have htext := Disk.not_noText_of_read hread
    dsimp only
    cases hparse : Datum.parse text with
    | error e =>
      have houtcome : (loadText ⟨disk, path.parent⟩ config path.text text).outcome =
          .error (.fault (e.fault path.text)) := by
        unfold loadText
        simp only [hparse]
      rw [houtcome]
      refine iff_of_true (e.isLoad_fault _) ⟨htext, ?_⟩
      rintro _ d source reason ⟨⟩ hd
      rw [hparse] at hd
      cases hd
    | ok d =>
      rw [contained_loadText_iff _ _ _ hparse]
      constructor
      · rintro h
        refine ⟨htext, ?_⟩
        rintro _ d' source reason ⟨⟩ hd
        rw [hparse] at hd
        cases hd
        exact h source reason
      · intro h source reason
        exact h.2 text d source reason rfl hparse

/-- An exclusion file is read, or the failure is an exclusion file fault, exactly if it does not
lack a text. A program is loaded, or the failure is a load fault, exactly if the dump does not lack
a text and neither does the first source that cannot be read, where one is reached: a mistake in the
forms before it is a load fault. -/
theorem failures_contained_iff (disk : Disk) (config : LoadConfig) (path : Path) :
    (Contained (· == .excludeFile) (readExcludes disk path) ↔ ¬ disk.NoText path) ∧
      (Contained FaultKind.isLoad (loadFile disk config path).outcome ↔
        ¬ disk.NoText path ∧ ∀ text d source reason,
          disk.read path = .ok text → Datum.parse text = .ok d →
          SourceRoot.firstUnreadable? ⟨disk, path.parent⟩ d.fileForms = some (source, reason) →
          disk.NoText source → ∃ e, readProgram ⟨disk, path.parent⟩ d = .error (.shape e)) := by
  refine ⟨contained_readExcludes_iff disk path, (contained_loadFile_iff disk config path).trans ?_⟩
  refine and_congr_right fun _ => forall₄_congr fun text d source reason =>
    forall₂_congr fun _ _ => ?_
  constructor
  · intro hcontained hfirst hno
    refine (readProgram_of_firstUnreadable? hfirst).resolve_right fun hread => ?_
    exact hcontained hread hno
  · intro hshape hread hno
    obtain ⟨e, he⟩ := hshape (firstUnreadable?_of_readProgram hread) hno
    rw [hread] at he
    cases he

/-- The byte 0xFF alone is no UTF-8. -/
theorem not_isValidUTF8_ff : ¬ ByteArray.IsValidUTF8 ⟨#[0xFF]⟩ := by
  decide +kernel

/-- A file without a text cannot be the source of a program. -/
theorem readProgram_dumpOnDisk_of_error {root : SourceRoot} {path : String} {reason : FileError}
    (h : root.disk.read (root.base.join (.ofString path)) = .error reason) :
    readProgram root (dumpOnDisk path) =
      .error (.source (root.base.join (.ofString path)) reason) := by
  have hsource : readSource root path [("source-path", [.string path])] =
      throw (.source (root.base.join (.ofString path)) reason) := by
    have hread : readSource root path [("source-path", [.string path])] =
        match root.disk.read (root.base.join (.ofString path)) with
        | .ok text => pure ⟨path, text⟩
        | .error reason => throw (.source (root.base.join (.ofString path)) reason) := rfl
    rw [hread, h]
  have hfile : readFile root "p" (fileOnDisk path) =
      readSource root path [("source-path", [.string path])] >>= fun source =>
        pure ⟨path, ⟨"p", source.packagePos, []⟩, source, []⟩ := rfl
  have hpackage : readPackage root (packageOnDisk path) .initial =
      ([fileOnDisk path].mapM (readFile root "p") >>= fun files =>
        pure ⟨"p", "p", files, [], false⟩ : ProgramReader Package) .initial := rfl
  rw [List.mapM_cons, hfile, hsource] at hpackage
  have htop : readTopLevel root ⟨none, []⟩ (packageOnDisk path) .initial =
      .error (.source (root.base.join (.ofString path)) reason) :=
    bind_eq_error.mpr (.inr ⟨⟨"package", _⟩, _, rfl, bind_eq_error.mpr (.inl hpackage)⟩)
  have hforms : [packageOnDisk path].foldlM (readTopLevel root) ⟨none, []⟩ .initial =
      .error (.source (root.base.join (.ofString path)) reason) := by
    rw [List.foldlM_cons]
    exact bind_eq_error.mpr (.inl htop)
  exact exceptBind_eq_error.mpr (.inl (bind_eq_error.mpr (.inr ⟨⟨"program", _⟩, _, rfl, hforms⟩)))

/-- The text of a dump whose one file has its source on disk. -/
def textOnDisk : String :=
  "(program (package \"p\" \"p\" (file \"p.go\" (source-path \"p.go\"))))"

theorem parse_textOnDisk : Datum.parse textOnDisk = .ok (dumpOnDisk "p.go") :=
  Datum.parse_of_toList String.toList_ofList rfl

/-- A file with that byte fails without a fault, as an exclusion file, as a dump and as a source. -/
theorem undecodable_not_contained :
    ¬ Contained (· == .excludeFile) (readExcludes (diskOf ⟨#[0xFF]⟩).disk ⟨"/", ["p.go"]⟩) ∧
      ¬ Contained FaultKind.isLoad
        (loadFile (diskOf ⟨#[0xFF]⟩).disk {} ⟨"/", ["p.go"]⟩).outcome ∧
      ¬ Contained FaultKind.isLoad
        (loadText (diskOf ⟨#[0xFF]⟩) {} "d.sexp" textOnDisk).outcome := by
  have hbytes := readBytes_diskOf ⟨#[0xFF]⟩
  have hread := exceptBind_eq_error.mpr
    (.inr ⟨_, hbytes, Disk.decode_eq_error.mpr ⟨not_isValidUTF8_ff, rfl⟩⟩)
  have hno : (diskOf ⟨#[0xFF]⟩).disk.NoText ⟨"/", ["p.go"]⟩ :=
    .inr ⟨_, hbytes, not_isValidUTF8_ff⟩
  refine ⟨?_, ?_, ?_⟩
  · rw [contained_readExcludes_iff]
    exact not_not_intro hno
  · rw [contained_loadFile_iff]
    exact fun h => h.1 hno
  · rw [contained_loadText_iff _ _ _ parse_textOnDisk]
    exact fun h => h _ _ (readProgram_dumpOnDisk_of_error hread) hno

end UncheckedErrors
