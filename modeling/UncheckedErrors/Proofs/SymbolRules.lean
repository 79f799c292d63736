import UncheckedErrors.Proofs.PackageRules
import UncheckedErrors.Proofs.Vendor

/-!
# Rules for symbols

An entry of a configuration is freed from its vendored prefixes as a whole. A call is looked up by
its names, which are freed from theirs, and by these names together with the type of its first
argument, which is taken as it is written.

So an entry that is the full name of the callee always excludes the call, while an entry that is
limited to the type of the first argument does so exactly if that type has no vendored prefix
(`excludes_symbol_calls`, `vendored_argument_not_excluded`).
-/

namespace UncheckedErrors

/-- The chain of the selection that a call is made through, if it has one. -/
def Call.chain? (types : TypeTable) (c : Call) : Option (List GoType) :=
  match c.fn with
  | .selector _ _ (some selection) _ => types.chain? selection
  | _ => none

/-- A symbol that is limited to calls with a certain first argument. -/
def narrowed (symbol argument : String) : String := symbol ++ "(" ++ argument ++ ")"

theorem narrowed_ne_empty (symbol argument : String) : narrowed symbol argument ≠ "" := by
  simp [narrowed]

theorem narrowed_ne_self (symbol argument : String) : narrowed symbol argument ≠ symbol := by
  intro h
  have hlength := congrArg String.length h
  have hopen : "(".length = 1 := rfl
  simp only [narrowed, String.length_append] at hlength
  omega

theorem narrowed_inj {symbol a b : String} : narrowed symbol a = narrowed symbol b ↔ a = b := by
  simp [narrowed, String.append_assoc]

/-- A symbol with an argument is stripped in both parts. -/
theorem stripVendor_narrowed (symbol argument : String) :
    stripVendor (narrowed symbol argument) =
      narrowed (stripVendor symbol) (stripVendor argument) := by
  have hopen : isSeparator '(' := by decide
  have hclose : isSeparator ')' := by decide
  have hlist : (narrowed symbol argument).toList =
      symbol.toList ++ '(' :: (argument.toList ++ [')']) := by
    simp [narrowed]
  unfold stripVendor
  rw [hlist, stripVendorFrom_append hopen, stripVendorFrom_append hclose, stripVendorFrom]
  apply String.toList_inj.mp
  simp [narrowed]

/-- A full name ends in the bare name. -/
theorem Object.fullName_ne_empty {fn : Object} (h : fn.name ≠ "") : fn.fullName ≠ "" := by
  unfold fullName
  split
  · simp [methodName]
  · unfold qualified
    split
    · split
      · exact h
      · simp
    · exact h

namespace ExclusionIndex

/-! ## Names of a call -/

section

variable {types : TypeTable} {c : Call} {fn : Object}

/-- A call through an interface goes by a name for each type on its chain, any other call by the
full name of its callee. -/
theorem namesOf_eq (hfn : c.callee? = some fn) (hname : fn.name ≠ "") :
    namesOf types c =
      match c.chain? types with
      | some ts => ts.map fun t => stripVendor (Object.methodName t fn.name)
      | none => [stripVendor fn.fullName] := by
  have hempty : ¬ fn.name.isEmpty = true := by simpa using hname
  rw [namesOf, hfn]
  show (if fn.name.isEmpty = true then [] else match c.chain? types with
    | some ts => ts.map fun t => stripVendor (Object.methodName t fn.name)
    | none => [stripVendor fn.fullName]) = _
  rw [if_neg hempty]

/-- A call is excluded if one of its names is a symbol of the index. -/
theorem excludes_of_mem_namesOf {index : ExclusionIndex} {name : String}
    (hfn : c.callee? = some fn) (hname : name ∈ namesOf types c) (hsymbol : name ∈ index.symbols) :
    index.excludes types c = true := by
  obtain ⟨id, hid, -⟩ := Call.exists_calleeIdent hfn
  have hmatch : matchesSymbol index.symbols (namesOf types c) c.argumentName? = true :=
    List.any_eq_true.mpr ⟨name, hname, by simp [hsymbol]⟩
  simp [excludes, hfn, hid, hmatch]

/-- A call is excluded if one of its names, limited to its first argument, is a symbol of the
index. -/
theorem excludes_of_narrowed {index : ExclusionIndex} {name a : String}
    (hfn : c.callee? = some fn) (hname : name ∈ namesOf types c) (harg : c.argumentName? = some a)
    (ha : a ≠ "") (hsymbol : narrowed name a ∈ index.symbols) : index.excludes types c = true := by
  obtain ⟨id, hid, -⟩ := Call.exists_calleeIdent hfn
  have hempty : a.isEmpty = false := by simpa using ha
  have hmatch : matchesSymbol index.symbols (namesOf types c) c.argumentName? = true := by
    refine List.any_eq_true.mpr ⟨name, hname, ?_⟩
    rw [narrowed] at hsymbol
    simp [harg, hempty, hsymbol]
  simp [excludes, hfn, hid, hmatch]

end

/-! ## Symbols of an index -/

@[simp] theorem symbols_addPattern (index : ExclusionIndex) (rule : String × NameTest) :
    (index.addPattern rule).symbols = index.symbols := by
  unfold addPattern
  split <;> rfl

@[simp] theorem defaults_addPattern (index : ExclusionIndex) (rule : String × NameTest) :
    (index.addPattern rule).defaults = index.defaults := by
  unfold addPattern
  split <;> rfl

/-- What one pattern leaves alone, all patterns do. -/
theorem foldl_addPattern_of_kept {α : Type} {view : ExclusionIndex → α}
    (h : ∀ index rule, view (addPattern index rule) = view index) (index : ExclusionIndex)
    (rules : List (String × NameTest)) : view (rules.foldl addPattern index) = view index := by
  induction rules generalizing index with
  | nil => rfl
  | cons rule rules ih => rw [List.foldl_cons, ih, h]

/-- The symbols that never fail are there unless they are switched off. -/
theorem defaults_eq {e : Exclusions} {library : PatternLibrary} {index : ExclusionIndex}
    (hindex : ofExclusions e library = .ok index) :
    index.defaults = if e.disableDefaults then [] else defaultSymbols := by
  obtain ⟨compiled, -, rfl⟩ := ofExclusions_eq_ok.mp hindex
  exact foldl_addPattern_of_kept defaults_addPattern _ _

/-- The symbols of an index are the entries without blanks around them and without vendored
prefixes. -/
theorem mem_symbols {e : Exclusions} {library : PatternLibrary} {index : ExclusionIndex}
    (hindex : ofExclusions e library = .ok index) {symbol : String} :
    symbol ∈ index.symbols ↔
      ∃ entry ∈ e.symbols, Text.strip entry ≠ "" ∧ stripVendor (Text.strip entry) = symbol := by
  obtain ⟨compiled, -, rfl⟩ := ofExclusions_eq_ok.mp hindex
  rw [foldl_addPattern_of_kept symbols_addPattern]
  simp only [ofSymbols, List.mem_eraseDups, List.mem_map, List.mem_filter]
  constructor
  · rintro ⟨_, ⟨⟨entry, hentry, rfl⟩, hne⟩, rfl⟩
    exact ⟨entry, hentry, by simpa using hne, rfl⟩
  · rintro ⟨entry, hentry, hne, rfl⟩
    exact ⟨_, ⟨⟨entry, hentry, rfl⟩, by simpa using hne⟩, rfl⟩

/-- The rule of one entry that has no blanks around it. -/
theorem symbols_ofSymbols_singleton {entry : String} (hne : entry ≠ "")
    (hstrip : Text.strip entry = entry) (disableDefaults : Bool) :
    (ofSymbols [entry] disableDefaults).symbols = [stripVendor entry] := by
  have hempty : entry.isEmpty = false := by simpa using hne
  simp [ofSymbols, hstrip, hempty, List.eraseDups_cons]

/-! ## Calls without a chain -/

/-- The rule of one entry alone excludes a call by its first argument exactly if the entry, freed
from vendored prefixes, still ends in the argument as the call has it. -/
theorem excludes_ofSymbols_narrowed {types : TypeTable} {c : Call} {fn : Object} {a : String}
    (hfn : c.callee? = some fn) (hname : fn.name ≠ "") (hchain : c.chain? types = none)
    (harg : c.argumentName? = some a) (ha : a ≠ "")
    (hstrip : Text.strip (narrowed fn.fullName a) = narrowed fn.fullName a) :
    (ofSymbols [narrowed fn.fullName a] true).excludes types c = true ↔ stripVendor a = a := by
  obtain ⟨id, hid, -⟩ := Call.exists_calleeIdent hfn
  have hempty : a.isEmpty = false := by simpa using ha
  have hnames : namesOf types c = [stripVendor fn.fullName] := by
    rw [namesOf_eq hfn hname, hchain]
  have hpattern : (ofSymbols [narrowed fn.fullName a] true).matchesPattern fn id.name = false := by
    unfold matchesPattern ofSymbols
    cases fn.pkg with
    | none => rfl
    | some pkg => simp
  have hsymbols := symbols_ofSymbols_singleton (narrowed_ne_empty fn.fullName a) hstrip true
  rw [stripVendor_narrowed] at hsymbols
  have hself : ¬ stripVendor fn.fullName = narrowed (stripVendor fn.fullName) (stripVendor a) :=
    fun h => narrowed_ne_self _ _ h.symm
  have hother : narrowed (stripVendor fn.fullName) a =
      narrowed (stripVendor fn.fullName) (stripVendor a) ↔ stripVendor a = a := by
    rw [narrowed_inj, eq_comm]
  have hdefaults : (ofSymbols [narrowed fn.fullName a] true).defaults = [] := rfl
  simp only [excludes, hfn, hid, hpattern, hnames, hsymbols, hdefaults, harg, matchesSymbol]
  rw [narrowed] at hother
  simp [hempty, hself, hother]

/-- Of a call without a chain, an entry that is the full name of the callee excludes the call. So
does one that is limited to the type of the first argument, if that type has no vendored prefix; if
it has one, that entry alone does not. -/
theorem excludes_symbol_calls {e : Exclusions} {library : PatternLibrary} {index : ExclusionIndex}
    (hindex : ofExclusions e library = .ok index) {types : TypeTable} {c : Call} {fn : Object}
    {a : String} (hfn : c.callee? = some fn) (hname : fn.name ≠ "") (hchain : c.chain? types = none)
    (harg : c.argumentName? = some a) (ha : a ≠ "") :
    (fn.fullName ∈ e.symbols → Text.strip fn.fullName = fn.fullName →
        index.excludes types c = true) ∧
      (narrowed fn.fullName a ∈ e.symbols →
        Text.strip (narrowed fn.fullName a) = narrowed fn.fullName a →
        (stripVendor a = a → index.excludes types c = true) ∧
          ((ofSymbols [narrowed fn.fullName a] true).excludes types c = true ↔
            stripVendor a = a)) := by
  have hnames : stripVendor fn.fullName ∈ namesOf types c := by
    rw [namesOf_eq hfn hname, hchain]
    exact List.mem_singleton_self _
  refine ⟨fun hentry hstrip => ?_, fun hentry hstrip => ⟨fun hplain => ?_, ?_⟩⟩
  · have hsymbol : stripVendor fn.fullName ∈ index.symbols :=
      (mem_symbols hindex).mpr
        ⟨_, hentry, hstrip.symm ▸ Object.fullName_ne_empty hname, by rw [hstrip]⟩
    exact excludes_of_mem_namesOf hfn hnames hsymbol
  · have hsymbol : narrowed (stripVendor fn.fullName) a ∈ index.symbols := by
      refine (mem_symbols hindex).mpr
        ⟨_, hentry, hstrip.symm ▸ narrowed_ne_empty fn.fullName a, ?_⟩
      rw [hstrip, stripVendor_narrowed, hplain]
    exact excludes_of_narrowed hfn hnames harg ha hsymbol
  · exact excludes_ofSymbols_narrowed hfn hname hchain harg ha hstrip

/-- A call `fmt.Fprintf(b)` where `b` is a buffer of this package. -/
def printToBuffer (pkg : String) : Call :=
  packageCall "fmt" "Fprintf"
    [.ident ⟨"b", 13, none, some (.pointer (.named (.ofPath pkg "Buffer")))⟩]

/-- An argument whose type has no vendored prefix: the entry that is limited to it excludes the
call. -/
theorem plain_argument_excluded :
    ∃ index, ofExclusions
        { symbols := ["fmt.Fprintf(*bytes.Buffer)"], disableDefaults := true } = .ok index ∧
      index.excludes .initial (printToBuffer "bytes") = true := by
  obtain ⟨index, hindex⟩ : ∃ index, ofExclusions
      { symbols := ["fmt.Fprintf(*bytes.Buffer)"], disableDefaults := true } = .ok index := ⟨_, rfl⟩
  have hplain : stripVendor "*bytes.Buffer" = "*bytes.Buffer" := by decide +kernel
  have hcall := @excludes_symbol_calls _ _ index hindex .initial (printToBuffer "bytes") _
    "*bytes.Buffer" rfl (by decide) rfl rfl (by decide)
  exact ⟨index, hindex, (hcall.2 (by decide) (by decide)).1 hplain⟩

/-- An argument whose type has one: the very entry that names the call with its argument does not
exclude it. -/
theorem vendored_argument_not_excluded :
    (printToBuffer "x/vendor/bytes").callee? = some (.func (some "fmt") "Fprintf" none none) ∧
      (printToBuffer "x/vendor/bytes").argumentName? = some "*x/vendor/bytes.Buffer" ∧
      ∃ index, ofExclusions { symbols := ["fmt.Fprintf(*x/vendor/bytes.Buffer)"] } = .ok index ∧
        index.excludes .initial (printToBuffer "x/vendor/bytes") = false :=
  ⟨rfl, rfl, _, rfl, by decide +kernel⟩

end ExclusionIndex

end UncheckedErrors
