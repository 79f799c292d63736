import UncheckedErrors.Proofs.Positions
import UncheckedErrors.Proofs.ProgramForms

/-!
# Unified line breaks

A file is read with its line breaks unified: a carriage return, with or without a line feed after
it, becomes a line feed. The offsets of a dump count the bytes of the file as it is. So the text
that is kept runs ahead of the file from the first carriage return on
(`UnifiedBreaks.placeAfter_lt`), and an offset has the position that it has in the file if and only
if no carriage return stands in front of it (`position_decode_iff`).
-/

namespace UncheckedErrors

/-- The second bytes are the first ones with carriage returns, and line feeds after them, replaced
by line feeds. -/
inductive UnifiedBreaks : List UInt8 → List UInt8 → Prop
  | nil : UnifiedBreaks [] []
  | pair {xs ys : List UInt8} :
    UnifiedBreaks xs ys → UnifiedBreaks (carriageReturn :: lineFeed :: xs) (lineFeed :: ys)
  | single {xs ys : List UInt8} :
    UnifiedBreaks xs ys → UnifiedBreaks (carriageReturn :: xs) (lineFeed :: ys)
  | other {byte : UInt8} {xs ys : List UInt8} :
    byte ≠ carriageReturn → UnifiedBreaks xs ys → UnifiedBreaks (byte :: xs) (byte :: ys)

namespace UnifiedBreaks

theorem append_left {bytes xs ys : List UInt8} (hbytes : carriageReturn ∉ bytes)
    (h : UnifiedBreaks xs ys) : UnifiedBreaks (bytes ++ xs) (bytes ++ ys) := by
  induction bytes with
  | nil => exact h
  | cons byte bytes ih =>
    rw [List.mem_cons, not_or] at hbytes
    exact .other (Ne.symm hbytes.1) (ih hbytes.2)

/-- The encoded text with unified breaks is the encoded text, with unified breaks. -/
theorem encode_unifyBreaks (cs : List Char) :
    UnifiedBreaks (encode cs) (encode (Text.unifyBreaks cs)) := by
  fun_induction Text.unifyBreaks cs with
  | case1 => exact .nil
  | case2 cs ih => exact .pair ih
  | case3 cs _ ih => exact .single ih
  | case4 c cs _ hc ih =>
    exact append_left (fun h => hc (carriageReturn_mem_utf8EncodeChar h)) ih

/-- A carriage return does not open a line, and a line feed in its stead does. -/
theorem placeNext_carriageReturn_lt (p : Nat × Nat) :
    toLex (placeNext p carriageReturn) < toLex (placeNext p lineFeed) := by
  rw [placeNext_of_ne (by decide), placeNext_lineFeed, Prod.Lex.toLex_lt_toLex]
  exact .inl (Nat.lt_succ_self _)

variable {xs ys : List UInt8}

/-- Up to any offset, the unified text has come at least as far as the file. -/
theorem placeAfter_le (h : UnifiedBreaks xs ys) {n : Nat} (hn : n ≤ ys.length) (p : Nat × Nat) :
    toLex (placeAfter p (xs.take n)) ≤ toLex (placeAfter p (ys.take n)) := by
  induction h generalizing n p with
  | nil => exact le_rfl
  | @pair xs ys h ih =>
    rcases n with _ | _ | n
    · exact le_rfl
    · exact (placeNext_carriageReturn_lt p).le
    · -- both are at the start of the next line, the unified text with one byte more to go
      rw [List.length_cons] at hn
      calc toLex (placeAfter (placeNext (placeNext p carriageReturn) lineFeed) (xs.take n))
          = toLex (placeAfter (placeNext p lineFeed) (xs.take n)) := rfl
        _ ≤ toLex (placeAfter (placeNext p lineFeed) (ys.take n)) := ih (by omega) _
        _ ≤ toLex (placeAfter (placeNext p lineFeed) (ys.take (n + 1))) :=
          (placeAfter_take_lt (by omega) _).le
  | @single xs ys h ih =>
    rcases n with _ | n
    · exact le_rfl
    · rw [List.length_cons] at hn
      calc toLex (placeAfter (placeNext p carriageReturn) (xs.take n))
          ≤ toLex (placeAfter (placeNext p lineFeed) (xs.take n)) :=
            placeAfter_mono (placeNext_carriageReturn_lt p).le _
        _ ≤ toLex (placeAfter (placeNext p lineFeed) (ys.take n)) := ih (by omega) _
  | @other byte xs ys _ h ih =>
    rcases n with _ | n
    · exact le_rfl
    · rw [List.length_cons] at hn
      exact ih (by omega) _

/-- From the first carriage return on, the unified text is ahead of the file. -/
theorem placeAfter_lt (h : UnifiedBreaks xs ys) {n : Nat} (hn : n ≤ ys.length)
    (hmem : carriageReturn ∈ xs.take n) (p : Nat × Nat) :
    toLex (placeAfter p (xs.take n)) < toLex (placeAfter p (ys.take n)) := by
  induction h generalizing n p with
  | nil => simp at hmem
  | @pair xs ys h ih =>
    rcases n with _ | _ | n
    · simp at hmem
    · exact placeNext_carriageReturn_lt p
    · rw [List.length_cons] at hn
      calc toLex (placeAfter (placeNext (placeNext p carriageReturn) lineFeed) (xs.take n))
          = toLex (placeAfter (placeNext p lineFeed) (xs.take n)) := rfl
        _ ≤ toLex (placeAfter (placeNext p lineFeed) (ys.take n)) := h.placeAfter_le (by omega) _
        _ < toLex (placeAfter (placeNext p lineFeed) (ys.take (n + 1))) :=
          placeAfter_take_lt (by omega) _
  | @single xs ys h ih =>
    rcases n with _ | n
    · simp at hmem
    · -- the file is a line behind, and stays so
      rw [List.length_cons] at hn
      refine lt_of_lt_of_le ?_ (h.placeAfter_le (n := n) (by omega) (placeNext p lineFeed))
      rw [List.take_succ_cons, placeAfter_cons, Prod.Lex.toLex_lt_toLex, placeAfter_fst,
        placeAfter_fst, placeNext_of_ne (by decide), placeNext_lineFeed]
      exact .inl (by dsimp only; omega)
  | @other byte xs ys hbyte h ih =>
    rcases n with _ | n
    · simp at hmem
    · rw [List.length_cons] at hn
      rw [List.take_succ_cons, List.mem_cons] at hmem
      exact ih (by omega) (hmem.resolve_left (Ne.symm hbyte)) _

/-- Up to the first carriage return the unified text is the file. -/
theorem take_eq (h : UnifiedBreaks xs ys) {n : Nat} (hmem : carriageReturn ∉ xs.take n) :
    ys.take n = xs.take n := by
  induction h generalizing n with
  | nil => rfl
  | pair h ih | single h ih =>
    rcases n with _ | n
    · rfl
    · simp at hmem
  | other hbyte h ih =>
    rcases n with _ | n
    · rfl
    · rw [List.take_succ_cons, List.mem_cons, not_or] at hmem
      rw [List.take_succ_cons, List.take_succ_cons, ih hmem.2]

end UnifiedBreaks

/-! ## Files on disk -/

theorem decode_eq_ok {bytes : ByteArray} {text : String} :
    Disk.decode bytes = .ok text ↔
      ∃ h : bytes.IsValidUTF8,
        String.ofList (Text.unifyBreaks (String.fromUTF8 bytes h).toList) = text := by
  unfold Disk.decode String.fromUTF8?
  by_cases h : bytes.IsValidUTF8
  · rw [dif_pos h]
    simp only [exceptPure_eq_ok, h, exists_true_left]
  · rw [dif_neg h]
    simp only [exceptThrow_eq_ok, h, IsEmpty.exists_iff]

theorem encode_fromUTF8 {bytes : ByteArray} (h : bytes.IsValidUTF8) :
    encode (String.fromUTF8 bytes h).toList = bytes.data.toList := by
  have hencode : (encode (String.fromUTF8 bytes h).toList).toByteArray = bytes :=
    String.utf8Encode_toList
  have hdata := congrArg (·.data.toList) hencode
  rwa [List.data_toByteArray, List.toList_toArray] at hdata

/-- The text of a file on disk has the bytes of the file, with unified breaks. -/
theorem unifiedBreaks_of_decode {bytes : ByteArray} {text : String}
    (h : Disk.decode bytes = .ok text) (name : String) :
    UnifiedBreaks bytes.data.toList (SourceFile.bytes ⟨name, text⟩) := by
  obtain ⟨hvalid, rfl⟩ := decode_eq_ok.mp h
  rw [← encode_fromUTF8 hvalid, SourceFile.bytes, String.toList_ofList]
  exact .encode_unifyBreaks _

/-- An offset has the position that it has in the file on disk, if no carriage return stands in
front of it, and only then. -/
theorem position_decode_iff {bytes : ByteArray} {text : String} (h : Disk.decode bytes = .ok text)
    (name : String) {offset : Nat} (hoffset : offset ≤ bytes.size) :
    SourceFile.position ⟨name, text⟩ offset = .ofBytes name bytes.data.toList offset ↔
      carriageReturn ∉ bytes.data.toList.take offset := by
  have hunified := unifiedBreaks_of_decode h name
  have hlen : offset ≤ bytes.data.toList.length := hoffset
  by_cases hmem : carriageReturn ∈ bytes.data.toList.take offset
  · refine iff_of_false ?_ (not_not_intro hmem)
    intro hposition
    by_cases hsize : offset ≤ SourceFile.size ⟨name, text⟩
    · have hsize' := hsize
      rw [← SourceFile.length_bytes] at hsize'
      rw [SourceFile.position_eq _ hsize, Position.ofBytes_eq_iff hsize' hlen] at hposition
      exact (hunified.placeAfter_lt hsize' hmem (0, 0)).ne (congrArg toLex hposition.symm)
    · -- the unified text is too short to have a position there
      have hline := congrArg Position.line hposition
      rw [SourceFile.position, if_pos (by simp; omega), Position.ofBytes] at hline
      dsimp only at hline
      omega
  · refine iff_of_true ?_ hmem
    have htake := hunified.take_eq hmem
    have hsize : offset ≤ SourceFile.size ⟨name, text⟩ := by
      have hlength := congrArg List.length htake
      rw [List.length_take, List.length_take, SourceFile.length_bytes] at hlength
      omega
    rw [SourceFile.position_eq _ hsize, Position.ofBytes, htake, Position.ofBytes]

namespace Datum

/-- The options of a form `(file NAME ...)`. -/
def fileOptions : Datum → Options
  | .list (_ :: _ :: rest) => rest.filterMap (optionKey? ["build-tags", "source", "source-path"])
  | _ => []

/-- The path under which a form `(file NAME ...)` has its source on disk. A source in the form
itself counts first. -/
def sourcePath? (form : Datum) : Option String :=
  match form.fileOptions.get? "source", form.fileOptions.get? "source-path" with
  | none, some [.string path] => some path
  | none, some [.symbol path] => some path
  | _, _ => none

end Datum

/-- The source of the file is what is on disk under the path in its form. -/
def SourceOnDisk (root : SourceRoot) (form : Datum) (file : ParsedFile) : Prop :=
  ∀ path, form.sourcePath? = some path →
    ∃ bytes text, root.disk.readBytes (root.base.join (.ofString path)) = .ok bytes ∧
      Disk.decode bytes = .ok text ∧ file.source = ⟨file.name, text⟩

theorem read_eq_ok {disk : Disk} {path : Path} {text : String} :
    disk.read path = .ok text ↔
      ∃ bytes, disk.readBytes path = .ok bytes ∧ Disk.decode bytes = .ok text :=
  exceptBind_eq_ok

theorem sourcePath?_eq_some {form : Datum} {path : String} (h : form.sourcePath? = some path) :
    form.fileOptions.get? "source" = none ∧
      ∃ d, form.fileOptions.get? "source-path" = some [d] ∧ d.asString = .ok path := by
  unfold Datum.sourcePath? at h
  split at h
  · rename_i hsource hpath
    cases h
    exact ⟨hsource, _, hpath, rfl⟩
  · rename_i hsource hpath
    cases h
    exact ⟨hsource, _, hpath, rfl⟩
  · cases h

theorem yields_sourceOnDisk (root : SourceRoot) (packageName : String) (d : Datum) :
    Yields (readFile root packageName d) (SourceOnDisk root d) := by
  intro table file table' hfile
  simp only [readFile, bind_eq_ok, Reader.lift_eq_ok, liftM_eq_ok, pure_eq_ok, and_assoc,
    exists_and_left, exists_eq_left', Prod.exists, Form.tagged_eq_ok, Form.operand_eq_ok] at hfile
  obtain ⟨form, rfl, -, -, name, rest, hargs, _, -, decls, options, hsplit, source, _, hread,
    trees, _, -, _, _, -, rfl, -⟩ := hfile
  intro path hpath
  obtain ⟨hsource, option, hpath, hstring⟩ := sourcePath?_eq_some hpath
  rw [hargs, Datum.fileOptions, ← (splitOptions_eq_ok.mp hsplit).2.1] at hsource hpath
  unfold readSource Options.single? at hread
  rw [hsource, hpath] at hread
  simp only [bind_eq_ok, Reader.lift_eq_ok, liftM_eq_ok, exceptPure_eq_ok, hstring,
    Except.ok.injEq, and_assoc, exists_eq_left', exists_and_left] at hread
  cases htext : root.disk.read (root.base.join (.ofString path)) with
  | ok text =>
    rw [htext] at hread
    obtain ⟨bytes, hbytes, hdecode⟩ := read_eq_ok.mp htext
    exact ⟨bytes, text, hbytes, hdecode, (pure_eq_ok.mp hread).1.symm⟩
  | error reason =>
    rw [htext] at hread
    exact absurd hread throw_eq_ok.mp

/-- A program that is read has, for each file with its source on disk, positions that are those of
the file on disk, as long as there is no carriage return: an offset up to the end of the file has
the line that the line feeds in front of it tell, and the column that counts the bytes from the
start of that line, if and only if no carriage return stands in front of it. -/
theorem readProgram_positions {root : SourceRoot} {d : Datum} {program : Program}
    (h : readProgram root d = .ok program) :
    List.Forall₂
      (fun form file => ∀ path, form.sourcePath? = some path →
        ∃ bytes, root.disk.readBytes (root.base.join (.ofString path)) = .ok bytes ∧
          bytes.IsValidUTF8 ∧
          ∀ offset ≤ bytes.size,
            (file.source.position offset = .ofBytes file.name bytes.data.toList offset ↔
              carriageReturn ∉ bytes.data.toList.take offset))
      d.fileForms (program.packages.flatMap (·.files)) := by
  refine (forall₂_files_of_readProgram (yields_sourceOnDisk root) h).imp ?_
  intro form file hfile path hpath
  obtain ⟨bytes, text, hbytes, htext, hsource⟩ := hfile path hpath
  refine ⟨bytes, hbytes, ?_, ?_⟩
  · exact (decode_eq_ok.mp htext).1
  · intro offset hoffset
    rw [hsource]
    exact position_decode_iff htext file.name hoffset

/-- The form of a file without declarations that has its source on disk. -/
def fileOnDisk (path : String) : Datum :=
  .list [.symbol "file", .string path, .list [.symbol "source-path", .string path]]

/-- The form of a package with that file. -/
def packageOnDisk (path : String) : Datum :=
  .list [.symbol "package", .string "p", .string "p", fileOnDisk path]

/-- The dump of a program with that package. -/
def dumpOnDisk (path : String) : Datum := .list [.symbol "program", packageOnDisk path]

/-- A disk with the file `p.go`. -/
def diskOf (bytes : ByteArray) : SourceRoot := ⟨⟨[], [(["p.go"], .file bytes)]⟩, ⟨"/", []⟩⟩

theorem readBytes_diskOf (bytes : ByteArray) :
    (diskOf bytes).disk.readBytes ((diskOf bytes).base.join (.ofString "p.go")) = .ok bytes := by
  have hpath : (diskOf bytes).base.join (.ofString "p.go") = ⟨"/", ["p.go"]⟩ := by
    show Path.join ⟨"/", []⟩ (.ofString "p.go") = _
    decide
  have htext : Path.text ⟨"/", ["p.go"]⟩ = "/p.go" := by decide
  have hzero : ¬ "/p.go".contains (Char.ofNat 0) = true := by
    rw [String.contains_char_eq]
    decide
  have hsize : ¬ 4096 ≤ "/p.go".utf8ByteSize := by decide
  have hfollow : (diskOf bytes).disk.follow [] .directory ["p.go"] = .ok (.file bytes) := rfl
  rw [hpath, Disk.readBytes, htext, if_neg hzero, if_neg hsize]
  exact exceptBind_eq_ok.mpr ⟨_, hfollow, rfl⟩

theorem readSource_of_read {root : SourceRoot} {path text : String}
    (h : root.disk.read (root.base.join (.ofString path)) = .ok text) (name : String) :
    readSource root name [("source-path", [.string path])] = pure ⟨name, text⟩ := by
  have hsource : Options.get? [("source-path", [Datum.string path])] "source" = none := rfl
  have hsingle : Options.single? [("source-path", [Datum.string path])] "source-path" =
      pure (some (.string path)) := rfl
  have hlift {α : Type} (a : α) : Reader.lift (pure a) = pure a := rfl
  have hstring : (Datum.string path).asString = pure path := rfl
  simp only [readSource, hsource, hsingle, hstring, liftM_pure, hlift, pure_bind, h]

/-- A file with a text can be the source of a program. -/
theorem readProgram_dumpOnDisk {root : SourceRoot} {path text : String}
    (h : root.disk.read (root.base.join (.ofString path)) = .ok text) :
    ∃ program file, readProgram root (dumpOnDisk path) = .ok program ∧
      program.packages.flatMap (·.files) = [file] ∧ file.source = ⟨path, text⟩ := by
  have hfile : readFile root "p" (fileOnDisk path) =
      readSource root path [("source-path", [.string path])] >>= fun source =>
        pure ⟨path, ⟨"p", source.packagePos, []⟩, source, []⟩ := rfl
  rw [readSource_of_read h, pure_bind] at hfile
  have hpackage : readPackage root (packageOnDisk path) .initial =
      ([fileOnDisk path].mapM (readFile root "p") >>= fun files =>
        pure ⟨"p", "p", files, [], false⟩ : ProgramReader Package) .initial := rfl
  rw [List.mapM_cons, hfile] at hpackage
  have htop : ∃ parts, readTopLevel root ⟨none, []⟩ (packageOnDisk path) .initial =
      .ok (parts, .initial) ∧ parts.packages.flatMap (·.files) =
        [⟨path, ⟨"p", SourceFile.packagePos ⟨path, text⟩, []⟩, ⟨path, text⟩, []⟩] :=
    ⟨_, bind_eq_ok.mpr ⟨⟨"package", _⟩, _, rfl, bind_eq_ok.mpr ⟨_, _, hpackage, rfl⟩⟩, rfl⟩
  obtain ⟨parts, hparts, hfiles⟩ := htop
  have hread : [packageOnDisk path].foldlM (readTopLevel root) ⟨none, []⟩ .initial =
      .ok (parts, TypeTable.initial) := by
    rw [List.foldlM_cons]
    exact bind_eq_ok.mpr ⟨_, _, hparts, rfl⟩
  refine ⟨⟨parts.packages, parts.mod, .initial⟩, _, ?_, hfiles, rfl⟩
  exact exceptBind_eq_ok.mpr
    ⟨(parts, .initial), bind_eq_ok.mpr ⟨⟨"program", _⟩, _, rfl, hread⟩, rfl⟩

theorem read_diskOf (s : String) :
    (diskOf s.toByteArray).disk.read ((diskOf s.toByteArray).base.join (.ofString "p.go")) =
      .ok (String.ofList (Text.unifyBreaks s.toList)) :=
  read_eq_ok.mpr ⟨_, readBytes_diskOf _, decode_eq_ok.mpr ⟨s.isValidUTF8, rfl⟩⟩

/-- A file with line feeds alone, and a character of two bytes in its first line. -/
theorem readProgram_positions_of_lineFeeds :
    ∃ program file,
      readProgram (diskOf "// é\n\tg()\n".toByteArray) (dumpOnDisk "p.go") = .ok program ∧
      program.packages.flatMap (·.files) = [file] ∧
      file.source.position 8 = ⟨file.name, 2, 3, 8⟩ := by
  obtain ⟨program, file, hread, hfiles, -⟩ := readProgram_dumpOnDisk (read_diskOf "// é\n\tg()\n")
  refine ⟨program, file, hread, hfiles, ?_⟩
  have hpositions := readProgram_positions hread
  rw [hfiles] at hpositions
  obtain ⟨bytes, hbytes, -, hposition⟩ := (List.forall₂_cons.mp hpositions).1 "p.go" rfl
  rw [readBytes_diskOf, Except.ok.injEq] at hbytes
  subst hbytes
  exact ((hposition 8 (by decide)).mpr (by decide)).trans rfl

/-- Behind three breaks of two bytes an offset lands on a later line than it has in the file. -/
theorem readProgram_position_drifts :
    ∃ program file,
      readProgram (diskOf "package p\r\n\r\nfunc f() \x7b\r\n\tg()\r\n\x7d\r\n".toByteArray)
        (dumpOnDisk "p.go") = .ok program ∧
      program.packages.flatMap (·.files) = [file] ∧
      file.source.position 27 = ⟨"p.go", 5, 1, 27⟩ ∧
      Position.ofBytes "p.go"
        "package p\r\n\r\nfunc f() \x7b\r\n\tg()\r\n\x7d\r\n".toByteArray.data.toList 27 =
          ⟨"p.go", 4, 3, 27⟩ := by
  obtain ⟨program, file, hread, hfiles, hsource⟩ := readProgram_dumpOnDisk
    (read_diskOf "package p\r\n\r\nfunc f() \x7b\r\n\tg()\r\n\x7d\r\n")
  refine ⟨program, file, hread, hfiles, ?_, by decide⟩
  rw [hsource]
  decide

end UncheckedErrors
