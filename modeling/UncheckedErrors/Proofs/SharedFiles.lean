import UncheckedErrors.Proofs.Coherence
import UncheckedErrors.Proofs.DefinitionOrder
import UncheckedErrors.Proofs.Suppression

/-!
# Files of several packages

A file can belong to several packages: a package shares its files with its test variant. Each of
them hands in what is found there, and of the findings with one key one is kept. A key has the line
and the column of a site and not its offset, so nothing is lost only because the position of an
offset tells the offset.

* `Site.key_diagnostic_eq_iff`: in one source, sites with one key have one position and one kind.
* `oneSourcePerName_of_loadText`: in a program that was loaded, files with one name have one source,
  if they have one text.
* `Checker.exists_filter_diagnostics_eq`: each site has exactly one finding at its position.

`Checker.no_finding_lost` puts them together.
-/

namespace UncheckedErrors

/-! ## Keys of sites -/

/-- In one source, a key tells where a site is and of which kind. -/
theorem Site.key_diagnostic_eq_iff {source : SourceFile} {s s' : Site} :
    (s.diagnostic source).key = (s'.diagnostic source).key ↔
      source.position s.offset = source.position s'.offset ∧ s.kind = s'.kind := by
  constructor
  · intro hkey
    obtain ⟨-, hline, hcolumn, hkind, -⟩ := Diagnostic.Key.mk.inj hkey
    exact ⟨SourceFile.position_eq_of_line_column hline hcolumn, hkind⟩
  · rintro ⟨hposition, hkind⟩
    simp only [Diagnostic.key, diagnostic, hposition, hkind]

/-! ## Sources of a loaded program -/

/-- Files with one name have one text. -/
def Program.OneTextPerName (program : Program) : Prop :=
  ∀ file ∈ program.packages.flatMap (·.files), ∀ file' ∈ program.packages.flatMap (·.files),
    file.name = file'.name → file.source.text = file'.source.text

instance (program : Program) : Decidable program.OneTextPerName :=
  inferInstanceAs (Decidable (∀ file ∈ _, ∀ file' ∈ _, _))

/-- Sources with one name are one source. -/
def Program.OneSourcePerName (program : Program) : Prop :=
  ∀ file ∈ program.packages.flatMap (·.files), ∀ file' ∈ program.packages.flatMap (·.files),
    file.source.name = file'.source.name → file.source = file'.source

theorem yields_sourceName (root : SourceRoot) (packageName : String) (d : Datum) :
    Yields (readFile root packageName d) fun file => file.source.name = file.name := by
  intro table file table' hfile
  simp only [readFile, bind_eq_ok, pure_eq_ok, Prod.exists] at hfile
  obtain ⟨_, _, -, _, _, _, -, name, _, -, _, options, _, -, source, _, hsource, _, _, -, _, _, -,
    rfl, -⟩ := hfile
  exact (observes_source root name options).yields _ _ _ hsource

section

variable {root : SourceRoot} {config : LoadConfig} {filename text : String} {program : Program}
  (hload : (loadText root config filename text).outcome = .ok program)

include hload

theorem source_name_of_loadText {file : ParsedFile}
    (hfile : file ∈ program.packages.flatMap (·.files)) : file.source.name = file.name := by
  cases hparse : Datum.parse text with
  | error e =>
    rw [loadText, hparse] at hload
    cases hload
  | ok d =>
    obtain ⟨read, hread, hselect⟩ := (loadText_eq_ok hparse).mp hload
    obtain ⟨p, hp, hfile⟩ := List.mem_flatMap.mp hfile
    obtain ⟨q, hq, hfile⟩ := LoadConfig.mem_of_select hselect hp hfile
    have hfiles := forall₂_files_of_readProgram (yields_sourceName root) hread
    obtain ⟨form, -, hname⟩ := exists_left_of_forall₂ hfiles (List.mem_flatMap.mpr ⟨q, hq, hfile⟩)
    exact hname

theorem oneSourcePerName_of_loadText (htexts : program.OneTextPerName) :
    program.OneSourcePerName := by
  intro file hfile file' hfile' hname
  have htext : file.source.text = file'.source.text := by
    refine htexts file hfile file' hfile' ?_
    rw [← source_name_of_loadText hload hfile, ← source_name_of_loadText hload hfile', hname]
  cases hsource : file.source
  cases hsource' : file'.source
  rw [hsource, hsource'] at hname htext
  rw [SourceFile.mk.injEq]
  exact ⟨hname, htext⟩

end

/-! ## Merged findings -/

/-- Without repetition, what holds of one element only picks that element. -/
theorem filter_eq_singleton {α : Type} {p : α → Bool} {xs : List α} (hnodup : xs.Nodup) {a : α}
    (ha : a ∈ xs) (hpa : p a = true) (hunique : ∀ b ∈ xs, p b = true → b = a) :
    xs.filter p = [a] := by
  refine List.perm_singleton.mp ((List.perm_ext_iff_of_nodup (hnodup.filter p)
    (List.nodup_singleton a)).mpr fun b => ?_)
  rw [List.mem_filter, List.mem_singleton]
  constructor
  · rintro ⟨hb, hpb⟩
    exact hunique b hb hpb
  · rintro rfl
    exact ⟨ha, hpa⟩

namespace Checker

variable {checker : Checker} {program : Program}

theorem mem_files_of_mem_sites {types : TypeTable} {p : Package} {s : ParsedFile × Site}
    (hs : s ∈ checker.sites types p) : s.1 ∈ p.files := by
  obtain ⟨file, hfile, hs⟩ := List.mem_flatMap.mp hs
  obtain ⟨site, -, rfl⟩ := List.mem_map.mp hs
  exact (List.mem_filter.mp hfile).1

section

variable {completed : List Package} (hperm : completed.Perm (tasks program))

include hperm

/-- What is handed in are the reports of the sites of all packages. -/
theorem mem_merged_iff_site {d : Diagnostic} :
    d ∈ (checker.collect program completed).merged ↔
      ∃ p ∈ program.packages, ∃ s ∈ checker.sites program.types p,
        s.2.diagnostic s.1.source = d := by
  simp only [mem_merged_collect, check_eq_map_sites, List.mem_map, hperm.mem_iff]
  constructor
  · rintro ⟨p, hp, hd⟩
    exact ⟨p, (List.mem_filter.mp hp).1, hd⟩
  · rintro ⟨p, hp, s, hs, hd⟩
    refine ⟨p, List.mem_filter.mpr ⟨hp, ?_⟩, s, hs, hd⟩
    -- a package with a site has a file
    have hfiles := List.ne_nil_of_mem (mem_files_of_mem_sites hs)
    simpa using hfiles

/-- What comes out is the report of a site of some package. -/
theorem exists_site_of_mem_diagnostics {d : Diagnostic}
    (hd : d ∈ (checker.collect program completed).diagnostics) :
    ∃ p ∈ program.packages, ∃ s ∈ checker.sites program.types p,
      s.2.diagnostic s.1.source = d :=
  (mem_merged_iff_site hperm).mp (mem_of_firstWithKey (RunResults.mem_diagnostics.mp hd))

end

section

variable {completed : List Package} (hperm : completed.Perm (tasks program))
  (hsources : program.OneSourcePerName) {p : Package} (hp : p ∈ program.packages)
  {s : ParsedFile × Site} (hs : s ∈ checker.sites program.types p)

include hperm hsources hp hs

/-- What comes out for a file is the report of a site in its source. -/
theorem exists_diagnostic_eq {d : Diagnostic}
    (hd : d ∈ (checker.collect program completed).diagnostics)
    (hname : d.position.filename = s.1.source.name) :
    ∃ site : Site, site.diagnostic s.1.source = d := by
  obtain ⟨q, hq, other, hother, rfl⟩ := exists_site_of_mem_diagnostics hperm hd
  have hfile := List.mem_flatMap.mpr ⟨p, hp, mem_files_of_mem_sites hs⟩
  have hfile' := List.mem_flatMap.mpr ⟨q, hq, mem_files_of_mem_sites hother⟩
  have hsource : other.1.source = s.1.source :=
    hsources _ hfile' _ hfile ((SourceFile.position_filename _ _).symm.trans hname)
  exact ⟨other.2, by rw [hsource]⟩

/-- The finding of a site is told by its position and its kind. -/
theorem key_eq_key_diagnostic_iff {d : Diagnostic}
    (hd : d ∈ (checker.collect program completed).diagnostics) :
    d.key = (s.2.diagnostic s.1.source).key ↔
      d.position = s.1.source.position s.2.offset ∧ d.kind = s.2.kind := by
  have hreport (hname : d.position.filename = s.1.source.name) :=
    exists_diagnostic_eq hperm hsources hp hs hd hname
  constructor
  · intro hkey
    have hname : d.position.filename = (s.1.source.position s.2.offset).filename :=
      congrArg Diagnostic.Key.filename hkey
    obtain ⟨site, rfl⟩ := hreport (hname.trans (SourceFile.position_filename _ _))
    exact Site.key_diagnostic_eq_iff.mp hkey
  · intro hsame
    obtain ⟨site, rfl⟩ := hreport (hsame.1 ▸ SourceFile.position_filename _ _)
    exact Site.key_diagnostic_eq_iff.mpr hsame

/-- A site has exactly one finding at its position. -/
theorem exists_filter_diagnostics_eq :
    ∃ d, (checker.collect program completed).diagnostics.filter (fun d =>
      d.position = s.1.source.position s.2.offset ∧ d.kind = s.2.kind) = [d] := by
  have hstrict := (checker.collect program completed).strict_diagnostics
  have hkey {d : Diagnostic} (hd : d ∈ (checker.collect program completed).diagnostics) :=
    key_eq_key_diagnostic_iff hperm hsources hp hs hd
  have hmerged := (mem_merged_iff_site hperm).mpr ⟨p, hp, s, hs, rfl⟩
  obtain ⟨d, hd, hsame⟩ :=
    List.mem_map.mp (RunResults.mem_keys_diagnostics.mpr (List.mem_map_of_mem hmerged))
  refine ⟨d, filter_eq_singleton hstrict.nodup hd ?_ fun e he hat => ?_⟩
  · exact decide_eq_true ((hkey hd).mp hsame)
  · exact hstrict.eq_of_key_eq he hd (((hkey he).mpr (of_decide_eq_true hat)).trans hsame.symm)

end

/-- In a loaded program whose files with one name have one text, no finding is lost, whatever the
packages that share a file and the order in which they complete: each offset of a file at which a
site of a kind was found comes out exactly once, and the sites of a kind that are outside of a file
come out as one. -/
theorem no_finding_lost {root : SourceRoot} {config : LoadConfig} {filename text : String}
    (hload : (loadText root config filename text).outcome = .ok program)
    (htexts : program.OneTextPerName) (checker : Checker) {completed : List Package}
    (hperm : completed.Perm (tasks program)) :
    let diagnostics := (checker.collect program completed).diagnostics
    ∀ p ∈ program.packages, ∀ s ∈ checker.sites program.types p,
      (s.1.source.Inside s.2.offset →
        ∃ d, diagnostics.filter (fun d => d.position.filename = s.1.name ∧ d.kind = s.2.kind ∧
          d.position.offset = s.2.offset) = [d]) ∧
      (¬ s.1.source.Inside s.2.offset →
        ∃ d, diagnostics.filter (fun d => d.position = { filename := s.1.name } ∧
          d.kind = s.2.kind) = [d]) := by
  intro diagnostics p hp s hs
  have hsources := oneSourcePerName_of_loadText hload htexts
  have hname : s.1.source.name = s.1.name :=
    source_name_of_loadText hload (List.mem_flatMap.mpr ⟨p, hp, mem_files_of_mem_sites hs⟩)
  obtain ⟨d, hd⟩ := exists_filter_diagnostics_eq hperm hsources hp hs
  refine ⟨fun hinside => ⟨d, ?_⟩, fun houtside => ⟨d, ?_⟩⟩
  · rw [← hd]
    refine List.filter_congr fun e he => decide_eq_decide.mpr ?_
    rw [← hname]
    constructor
    · rintro ⟨hfile, hkind, hoffset⟩
      obtain ⟨site, rfl⟩ := exists_diagnostic_eq hperm hsources hp hs he hfile
      exact ⟨(SourceFile.position_eq_iff_offset hinside).mpr hoffset, hkind⟩
    · rintro ⟨hposition, hkind⟩
      rw [hposition, SourceFile.position_offset hinside]
      exact ⟨SourceFile.position_filename _ _, hkind, rfl⟩
  · rw [← hd, SourceFile.position_of_not_inside houtside, hname]

end Checker

/-- A file that drops the errors of two calls; the offset of the second one is outside of it. -/
def sharedFile : String :=
  "(file a.go (source \"// é\" \"f()\") (func-decl f 0 (body (block 0 (expr-stmt (call (ident" ++
    " f 6) 7 8 (type (named \"\" error)))) (expr-stmt (call (ident f 6) 99 99 (type (named \"\"" ++
    " error))))))))"

/-- A dump of a package with that file, and of its test variant. -/
def sharingDump : String :=
  "(program (package p p " ++ sharedFile ++ ") (package p p (test) " ++ sharedFile ++ "))"

/-- The form of a statement that drops the error of a call. -/
def droppingForm (lparen rparen : Int) : Datum :=
  .list [.symbol "expr-stmt", .list [.symbol "call",
    .list [.symbol "ident", .symbol "f", .int 6], .int lparen, .int rparen,
    .list [.symbol "type", .list [.symbol "named", .string "", .symbol "error"]]]]

def sharedFileForm : Datum :=
  .list [.symbol "file", .symbol "a.go", .list [.symbol "source", .string "// é", .string "f()"],
    .list [.symbol "func-decl", .symbol "f", .int 0, .list [.symbol "body",
      .list [.symbol "block", .int 0, droppingForm 7 8, droppingForm 99 99]]]]

theorem toList_ofList_append_append (cs ds es : List Char) :
    (String.ofList cs ++ String.ofList ds ++ String.ofList es).toList = cs ++ ds ++ es := by
  rw [String.toList_append, toList_ofList_append, String.toList_ofList]

set_option maxRecDepth 2000 in
theorem parse_sharingDump : Datum.parse sharingDump = .ok (.list [.symbol "program",
    .list [.symbol "package", .symbol "p", .symbol "p", sharedFileForm],
    .list [.symbol "package", .symbol "p", .symbol "p", .list [.symbol "test"],
      sharedFileForm]]) := by
  have hdump (cs ds es : List Char) (file : String) :
      (String.ofList cs ++ file ++ String.ofList ds ++ file ++ String.ofList es).toList =
        cs ++ file.toList ++ ds ++ file.toList ++ es := by
    simp only [String.toList_append, String.toList_ofList]
  refine Datum.parse_of_toList (hdump _ _ _ _) ?_
  rw [show sharedFile.toList = _ from toList_ofList_append_append _ _ _]
  rfl

theorem loadText_sharingDump :
    ∃ program, (loadText ⟨⟨[], []⟩, .ofString "."⟩ {} "dump" sharingDump).outcome = .ok program ∧
      program.OneTextPerName ∧
      (plainChecker.collect program (Checker.tasks program)).merged.length = 4 ∧
      (∃ p ∈ program.packages, ∃ s ∈ plainChecker.sites program.types p,
        s.1.name = "a.go" ∧ s.2.kind = .uncheckedCall ∧ s.2.offset = 7 ∧
          s.1.source.Inside s.2.offset) ∧
      ∃ p ∈ program.packages, ∃ s ∈ plainChecker.sites program.types p,
        s.1.name = "a.go" ∧ s.2.kind = .uncheckedCall ∧ ¬ s.1.source.Inside s.2.offset := by
  refine ⟨_, (loadText_eq_ok parse_sharingDump).mpr ⟨_, rfl, rfl⟩, ?_⟩
  decide +kernel

/-- Both packages hand in both findings, and each comes out once. -/
theorem Checker.shared_findings_once :
    ∃ program found outside,
      (loadText ⟨⟨[], []⟩, .ofString "."⟩ {} "dump" sharingDump).outcome = .ok program ∧
      (plainChecker.collect program (tasks program)).merged.length = 4 ∧
      (plainChecker.collect program (tasks program)).diagnostics.filter (fun d =>
        d.position.filename = "a.go" ∧ d.kind = .uncheckedCall ∧ d.position.offset = 7) =
          [found] ∧
      (plainChecker.collect program (tasks program)).diagnostics.filter (fun d =>
        d.position = { filename := "a.go" } ∧ d.kind = .uncheckedCall) = [outside] := by
  obtain ⟨program, hload, htexts, hlength, ⟨p, hp, s, hs, hname, hkind, hoffset, hinside⟩,
    q, hq, t, ht, hname', hkind', houtside⟩ := loadText_sharingDump
  have honce := no_finding_lost hload htexts plainChecker (.refl _)
  obtain ⟨found, hfound⟩ := (honce p hp s hs).1 hinside
  obtain ⟨outside, hrest⟩ := (honce q hq t ht).2 houtside
  rw [hname, hkind, hoffset] at hfound
  rw [hname', hkind'] at hrest
  exact ⟨program, found, outside, hload, hlength, hfound, hrest⟩

end UncheckedErrors
