import UncheckedErrors.Exclusion.Index
import UncheckedErrors.Proofs.CompletionOrder
import UncheckedErrors.Proofs.LineBreaks
import UncheckedErrors.Proofs.SymbolRules

/-!
# From a report to the rule against it

A report names the callee by its full name. That name, on a line of its own in an exclusion file, is
a rule that silences all calls which go by it (`listed_calls_not_reported`). Three things have to
agree for this.

* A line of the file comes into the configuration as it is written (`readExcludes_of_line`).
* The rule and the names of a call are freed from their vendored prefixes in the same way, so the
  call is found under the rule (`excludes_of_goesBy`).
* A scan reports no call that is excluded, in whatever statement it stands (`justified_sites`).
-/

namespace UncheckedErrors

/-! ## Lines of an exclusion file -/

/-- Unified breaks are breaks between the same lines. -/
theorem Text.splitLinesFrom_unifyBreaks (line cs : List Char) :
    splitLinesFrom line (unifyBreaks cs) = splitLinesFrom line cs := by
  fun_induction unifyBreaks cs generalizing line with
  | case1 => rfl
  | case2 cs ih =>
    rw [splitLinesFrom, splitLinesFrom, ih, if_pos (by decide)]
    simp
  | case3 cs hne ih =>
    rw [splitLinesFrom, splitLinesFrom, ih, if_pos (by decide), if_pos (by decide)]
    · simpa using hne
    · simp
  | case4 c cs hpair hreturn ih =>
    have hother {ds : List Char} (rest : List Char) (hc : c = '\r') : ¬ ds = '\n' :: rest :=
      absurd hc hreturn
    rw [splitLinesFrom, splitLinesFrom, ih, ih]
    · exact hother
    · exact hother

theorem Text.splitLines_unifyBreaks (s : String) :
    splitLines (String.ofList (unifyBreaks s.toList)) = splitLines s := by
  rw [splitLines, String.toList_ofList, splitLinesFrom_unifyBreaks, splitLines]

/-- A line that is a symbol, and has no blanks around it, is read as it is written. -/
theorem readExcludes_of_line {disk : Disk} {path : Path} {bytes : ByteArray}
    (hbytes : disk.readBytes path = .ok bytes) (hvalid : bytes.IsValidUTF8) {f : String}
    (hline : f ∈ Text.splitLines (String.fromUTF8 bytes hvalid)) (hstrip : Text.strip f = f)
    (hsymbol : isSymbolLine f = true) :
    ∃ excludes, readExcludes disk path = .ok excludes ∧ f ∈ excludes := by
  have htext := read_eq_ok.mpr ⟨bytes, hbytes, decode_eq_ok.mpr ⟨hvalid, rfl⟩⟩
  refine ⟨_, by rw [readExcludes, htext], ?_⟩
  rw [excludesOf, Text.splitLines_unifyBreaks]
  exact List.mem_filter.mpr ⟨List.mem_map.mpr ⟨f, hline, hstrip⟩, hsymbol⟩

/-! ## Calls and the names they go by -/

/-- The call goes by the full name of its callee: no chain leads to the callee, or a type on the
chain is written like its receiver. -/
def Call.GoesBy (types : TypeTable) (c : Call) (name : String) : Prop :=
  ∃ fn, c.callee? = some fn ∧ fn.fullName = name ∧ fn.name ≠ "" ∧
    (c.chain? types = none ∨
      ∃ chain recv, c.chain? types = some chain ∧ fn.recv = some recv ∧
        ∃ t ∈ chain, t.text = recv.text)

/-- The configuration with more symbols behind its own. -/
def Exclusions.withSymbols (e : Exclusions) (symbols : List String) : Exclusions :=
  { e with symbols := e.symbols ++ symbols }

namespace ExclusionIndex

theorem mem_namesOf_of_goesBy {types : TypeTable} {c : Call} {name : String}
    (h : c.GoesBy types name) : stripVendor name ∈ namesOf types c := by
  obtain ⟨fn, hfn, rfl, hname, hchain⟩ := h
  rw [namesOf_eq hfn hname]
  rcases hchain with hnone | ⟨chain, recv, hsome, hrecv, t, ht, htext⟩
  · rw [hnone]
    exact List.mem_singleton_self _
  · have hfull : fn.fullName = Object.methodName t fn.name := by
      simp only [Object.fullName, hrecv, Object.methodName, htext]
    rw [hsome, hfull]
    exact List.mem_map.mpr ⟨t, ht, rfl⟩

/-- An entry without blanks around it excludes the calls that go by it. -/
theorem excludes_of_goesBy {e : Exclusions} {library : PatternLibrary} {index : ExclusionIndex}
    (hindex : ofExclusions e library = .ok index) {types : TypeTable} {c : Call} {name : String}
    (hentry : name ∈ e.symbols) (hstrip : Text.strip name = name) (h : c.GoesBy types name) :
    index.excludes types c = true := by
  have hmem := mem_namesOf_of_goesBy h
  obtain ⟨fn, hfn, hfull, hname, -⟩ := h
  have hne : Text.strip name ≠ "" := by
    rw [hstrip, ← hfull]
    exact Object.fullName_ne_empty hname
  have hsymbol : stripVendor name ∈ index.symbols :=
    (mem_symbols hindex).mpr ⟨name, hentry, hne, by rw [hstrip]⟩
  exact excludes_of_mem_namesOf hfn hmem hsymbol

/-- More symbols spoil no configuration. -/
theorem exists_ofExclusions_withSymbols {e : Exclusions} {library : PatternLibrary}
    {index : ExclusionIndex} (h : ofExclusions e library = .ok index) (symbols : List String) :
    ∃ index', ofExclusions (e.withSymbols symbols) library = .ok index' := by
  obtain ⟨compiled, hcompiled, -⟩ := ofExclusions_eq_ok.mp h
  exact ⟨_, ofExclusions_eq_ok.mpr ⟨compiled, hcompiled, rfl⟩⟩

end ExclusionIndex

/-! ## What a scan reports -/

/-- The site is that of a call which is not excluded, or of a type assertion. -/
def Site.Justified (excluded : Call → Bool) (site : Site) : Prop :=
  match site.call with
  | some c => excluded c = false
  | none => site.kind = .uncheckedAssert

section

variable (modes : Modes) (excluded : Call → Bool)

theorem justified_callSites (c : Call) :
    ∀ site ∈ callSites excluded c, site.Justified excluded := by
  intro site hsite
  unfold callSites at hsite
  split at hsite
  · rename_i hreport
    rw [Bool.and_eq_true, Bool.not_eq_true'] at hreport
    cases List.mem_singleton.mp hsite
    exact hreport.2
  · cases hsite

theorem justified_blankTargets {c : Call} (hc : excluded c = false) (slots : List Bool)
    (targets : List Expr) :
    ∀ site ∈ blankTargets c slots targets, site.Justified excluded := by
  induction targets generalizing slots with
  | nil => exact fun _ h => absurd h List.not_mem_nil
  | cons target targets ih =>
    rw [blankTargets]
    refine List.forall_mem_append.mpr ⟨?_, ih slots.tail⟩
    split
    · exact List.forall_mem_singleton.mpr hc
    · exact fun _ h => absurd h List.not_mem_nil

theorem justified_soleSites (lhs : List Expr) (rhs : Expr) :
    ∀ site ∈ soleSites modes excluded lhs rhs, site.Justified excluded := by
  unfold soleSites
  split
  · split
    · rename_i c hreport
      rw [Bool.and_eq_true, Bool.not_eq_true'] at hreport
      exact justified_blankTargets excluded hreport.2 _ lhs
    · exact fun _ h => absurd h List.not_mem_nil
  · split
    · split
      · exact List.forall_mem_singleton.mpr rfl
      · exact fun _ h => absurd h List.not_mem_nil
    · exact fun _ h => absurd h List.not_mem_nil
  · exact fun _ h => absurd h List.not_mem_nil

theorem justified_pairSites (target value : Expr) :
    ∀ site ∈ pairSites modes excluded target value, site.Justified excluded := by
  unfold pairSites
  split
  · split
    · split
      · rename_i c hreport
        rw [Bool.and_eq_true, Bool.not_eq_true'] at hreport
        exact List.forall_mem_singleton.mpr hreport.2
      · exact fun _ h => absurd h List.not_mem_nil
    · split
      · exact List.forall_mem_singleton.mpr rfl
      · exact fun _ h => absurd h List.not_mem_nil
    · exact fun _ h => absurd h List.not_mem_nil
  · exact fun _ h => absurd h List.not_mem_nil

theorem justified_assignmentSites (lhs rhs : List Expr) :
    ∀ site ∈ assignmentSites modes excluded lhs rhs, site.Justified excluded := by
  unfold assignmentSites
  split
  · exact justified_soleSites modes excluded lhs _
  · split
    · refine List.forall_mem_flatMap.mpr ?_
      rintro ⟨target, value⟩ -
      exact justified_pairSites modes excluded target value
    · exact fun _ h => absurd h List.not_mem_nil

/-- A visit adds only sites of calls that are not excluded, and of assertions. -/
theorem Scan.justified_visit {scan : Scan} (h : ∀ site ∈ scan.sites, site.Justified excluded)
    (v : Visit) : ∀ site ∈ (scan.visit modes excluded v).sites, site.Justified excluded := by
  unfold visit
  split
  · exact List.forall_mem_append.mpr ⟨h, justified_callSites excluded _⟩
  · exact List.forall_mem_append.mpr ⟨h, justified_callSites excluded _⟩
  · exact List.forall_mem_append.mpr ⟨h, justified_callSites excluded _⟩
  · exact List.forall_mem_append.mpr ⟨h, justified_assignmentSites modes excluded _ _⟩
  · exact List.forall_mem_append.mpr ⟨h, justified_assignmentSites modes excluded _ _⟩
  · split
    · exact List.forall_mem_append.mpr ⟨h, List.forall_mem_singleton.mpr rfl⟩
    · exact h
  · exact h

/-- A whole scan reports no call that is excluded. -/
theorem justified_sites (file : File) :
    ∀ site ∈ file.sites modes excluded, site.Justified excluded := by
  have hrun (visits : List Visit) (scan : Scan)
      (h : ∀ site ∈ scan.sites, site.Justified excluded) :
      ∀ site ∈ (visits.foldl (·.visit modes excluded) scan).sites, site.Justified excluded := by
    induction visits generalizing scan with
    | nil => exact h
    | cons v visits ih => exact ih _ (Scan.justified_visit modes excluded h v)
  exact hrun _ {} fun _ h => absurd h List.not_mem_nil

end

/-! ## Checking again -/

namespace Checker

/-- What a check of a package finds, each with its file. -/
def sites (checker : Checker) (types : TypeTable) (p : Package) : List (ParsedFile × Site) :=
  (p.files.filter checker.looksAt).flatMap fun file =>
    (file.tree.sites checker.modes (checker.index.excludes types)).map (file, ·)

/-- A check reports what it finds, one by one. -/
theorem check_eq_map_sites (checker : Checker) (types : TypeTable) (p : Package) :
    checker.check types p =
      (checker.sites types p).map fun s => s.2.diagnostic s.1.source := by
  simp only [check, sites, ParsedFile.diagnostics, List.map_flatMap, List.map_map]
  rfl

theorem justified_of_mem_sites {checker : Checker} {types : TypeTable} {p : Package}
    {s : ParsedFile × Site} (h : s ∈ checker.sites types p) :
    s.2.Justified (checker.index.excludes types) := by
  obtain ⟨file, -, hs⟩ := List.mem_flatMap.mp h
  obtain ⟨site, hsite, rfl⟩ := List.mem_map.mp hs
  exact justified_sites checker.modes _ file.tree site hsite

theorem ofExclusions_eq_ok {e : Exclusions} {library : PatternLibrary} {checker : Checker} :
    Checker.ofExclusions e library = .ok checker ↔
      ∃ index, ExclusionIndex.ofExclusions e library = .ok index ∧ checker = ⟨e, index⟩ := by
  rw [Checker.ofExclusions, exceptBind_eq_ok]
  simp only [exceptPure_eq_ok, eq_comm (a := checker)]

/-- A single line in an exclusion file, without blanks around it and not a comment, silences the
calls that go by it. With the symbols of the file behind those of any configuration that can be
used, the configuration can be used again; and a check of any package then reports no such call,
neither for its dropped results nor for those assigned to `_`. -/
theorem listed_calls_not_reported {e : Exclusions} {library : PatternLibrary} {checker : Checker}
    (hchecker : Checker.ofExclusions e library = .ok checker) {disk : Disk} {path : Path}
    {bytes : ByteArray} (hbytes : disk.readBytes path = .ok bytes) (hvalid : bytes.IsValidUTF8)
    {f : String} (hline : f ∈ Text.splitLines (String.fromUTF8 bytes hvalid))
    (hsingle : Text.splitLines f = [f]) (hstrip : Text.strip f = f)
    (hcomment : ¬ "//".toList <+: f.toList) :
    ∃ excludes again, readExcludes disk path = .ok excludes ∧
      Checker.ofExclusions (e.withSymbols excludes) library = .ok again ∧
      ∀ (types : TypeTable) (p : Package),
        again.check types p = (again.sites types p).map (fun s => s.2.diagnostic s.1.source) ∧
        ∀ s ∈ again.sites types p, s.2.kind = .uncheckedCall ∨ s.2.kind = .uncheckedBlank →
          ∃ c, s.2.call = some c ∧ ¬ c.GoesBy types f := by
  have hsymbol : isSymbolLine f = true := by
    have hempty : f ≠ "" := by
      rintro rfl
      exact absurd hsingle (by decide)
    rw [← List.isPrefixOf_iff_prefix, Bool.not_eq_true] at hcomment
    rw [isSymbolLine, hcomment]
    simpa using hempty
  obtain ⟨excludes, hexcludes, hmem⟩ :=
    readExcludes_of_line hbytes hvalid hline hstrip hsymbol
  obtain ⟨index, hindex, rfl⟩ := ofExclusions_eq_ok.mp hchecker
  obtain ⟨index', hindex'⟩ := ExclusionIndex.exists_ofExclusions_withSymbols hindex excludes
  refine ⟨excludes, ⟨_, index'⟩, hexcludes, ofExclusions_eq_ok.mpr ⟨index', hindex', rfl⟩,
    fun types p => ⟨check_eq_map_sites _ types p, fun s hs hkind => ?_⟩⟩
  have hjustified := justified_of_mem_sites hs
  unfold Site.Justified at hjustified
  split at hjustified
  · rename_i c hcall
    refine ⟨c, hcall, fun hgoes => ?_⟩
    have hentry : f ∈ (e.withSymbols excludes).symbols := List.mem_append_right _ hmem
    rw [ExclusionIndex.excludes_of_goesBy hindex' hentry hstrip hgoes] at hjustified
    cases hjustified
  · -- without a call the site is that of an assertion
    rw [hjustified] at hkind
    simp at hkind

/-- The exclusion file of the following check: a comment, a symbol with blanks around it, and the
name of a function. -/
def knownExcludes : String := "// known\r\n  io.Copy\np.f\n"

/-- The unchecked errors of that package are those of its one call. -/
theorem sites_droppingPackage {checker : Checker} (h : checker.exclusions.generatedFiles = true)
    (types : TypeTable) (path : String) :
    (checker.sites types (droppingPackage path)).map (·.2) =
      callSites (checker.index.excludes types) (bareCall path) := by
  have hfiles : (droppingPackage path).files.filter checker.looksAt =
      (droppingPackage path).files := by
    simp [droppingPackage, looksAt, h]
  rw [sites, hfiles, droppingPackage, List.flatMap_singleton, sites_droppingFunc, List.map_map]
  exact List.map_id _

/-- The one call of a package is reported as `p.f`. With this name in an exclusion file nothing is
reported any more. -/
theorem listed_call_silenced :
    ∃ checker, Checker.ofExclusions {} = .ok checker ∧
      (checker.check .initial (droppingPackage "p")).map (·.funcName) = ["p.f"] ∧
      ∃ excludes again,
        readExcludes (diskOf knownExcludes.toByteArray).disk ⟨"/", ["p.go"]⟩ = .ok excludes ∧
        Checker.ofExclusions (({} : Exclusions).withSymbols excludes) = .ok again ∧
        again.check .initial (droppingPackage "p") = [] := by
  have hchecker : Checker.ofExclusions {} = .ok ⟨{}, .ofSymbols [] false⟩ := rfl
  obtain ⟨excludes, again, hexcludes, hagain, hcheck⟩ :=
    listed_calls_not_reported (f := "p.f") hchecker (readBytes_diskOf knownExcludes.toByteArray)
      knownExcludes.isValidUTF8 (by decide) (by decide) (by decide) (by decide)
  refine ⟨_, hchecker, ?_, excludes, again, hexcludes, hagain, ?_⟩
  · have hexcluded :
        (ExclusionIndex.ofSymbols [] false).excludes .initial (bareCall "p") = false := by
      decide +kernel
    rw [check_eq_map_sites, List.map_map]
    show (sites _ _ _).map ((fun site => (Site.diagnostic ⟨"a.go", ""⟩ site).funcName) ∘ (·.2)) = _
    rw [← List.map_map, sites_droppingPackage rfl, callSites, hexcluded]
    rfl
  · obtain ⟨index, -, rfl⟩ := ofExclusions_eq_ok.mp hagain
    have hgoes : (bareCall "p").GoesBy .initial "p.f" :=
      ⟨_, rfl, rfl, by decide, .inl rfl⟩
    rw [(hcheck _ _).1, List.map_eq_nil_iff, List.eq_nil_iff_forall_not_mem]
    intro s hs
    have hsite := List.mem_map_of_mem (f := (·.2)) hs
    rw [sites_droppingPackage rfl] at hsite
    unfold callSites at hsite
    split at hsite
    · have hs' := List.mem_singleton.mp hsite
      obtain ⟨c, hc, hnot⟩ := (hcheck _ _).2 s hs (.inl (by rw [hs']))
      rw [hs'] at hc
      cases hc
      exact hnot hgoes
    · cases hsite

end Checker

end UncheckedErrors
