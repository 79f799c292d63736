import Mathlib.Data.Finset.Card
import Mathlib.Data.Prod.Lex
import Mathlib.Data.String.Basic
import Mathlib.Order.Monotone.Basic
import UncheckedErrors.Proofs.Merge

/-!
# Results of any batches

Packages hand in batches of diagnostics. A package may do so more than once, batches of different
packages may alternate, and a batch may be empty.

* `RunResults.merged_addAll`: the results hold what arrived (`arrivals`), grouped by package.
* `Diagnostic.Key.compare_eq_lt_iff`: the order of output is that of the tuples `Key.rank`, part by
  part, where a text counts as the list of its code points.
* `RunResults.hasDiagnostics_iff`: something was handed in exactly if something comes out.

`RunResults.diagnostics_of_batches` puts these together with what is known of merged results.
-/

namespace UncheckedErrors

/-! ## The order of output, part by part -/

/-- The code points of a text. -/
def codePoints (s : String) : List ℕ := s.toList.map Char.toNat

theorem strictMono_codePoints : StrictMono codePoints := fun _ _ h =>
  List.map_lt (fun _ _ hchar => hchar) (String.lt_iff_toList_lt.mp h)

namespace Diagnostic.Key

/-- File name, line, column, text of the line and name of the kind, to be compared in this order. -/
def rank (k : Key) : List ℕ ×ₗ ℤ ×ₗ ℤ ×ₗ List ℕ ×ₗ List ℕ :=
  toLex (codePoints k.filename, toLex (k.line, toLex (k.column,
    toLex (codePoints k.text, codePoints k.kind.text))))

/-- The order of output is that of the ranks. -/
theorem compare_eq_lt_iff (a b : Key) : a.compare b = .lt ↔ a.rank < b.rank := by
  simp only [Key.compare, Ordering.then_eq_lt, rank, Prod.Lex.toLex_lt_toLex,
    strictMono_codePoints.lt_iff_lt, strictMono_codePoints.injective.eq_iff, compare_lt_iff_lt,
    compare_eq_iff_eq]

end Diagnostic.Key

/-! ## What arrived -/

/-- What a package hands in at one time. -/
structure Batch where
  pkg : String
  diagnostics : List Diagnostic
  elapsed : Number.Binary64

/-- The diagnostics of one package, in order of arrival. -/
def arrivalsOf (pkg : String) (batches : List Batch) : List Diagnostic :=
  (batches.filter (·.pkg = pkg)).flatMap (·.diagnostics)

/-- All diagnostics: packages in order of first arrival, and those of each in order of arrival. -/
def arrivals (batches : List Batch) : List Diagnostic :=
  (batches.map (·.pkg)).eraseDups.flatMap (arrivalsOf · batches)

theorem arrivalsOf_cons (pkg : String) (b : Batch) (batches : List Batch) :
    arrivalsOf pkg (b :: batches) =
      (if b.pkg = pkg then b.diagnostics else []) ++ arrivalsOf pkg batches := by
  by_cases h : b.pkg = pkg <;> simp [arrivalsOf, h]

theorem mem_arrivals {batches : List Batch} {d : Diagnostic} :
    d ∈ arrivals batches ↔ ∃ b ∈ batches, d ∈ b.diagnostics := by
  simp only [arrivals, arrivalsOf, List.mem_flatMap, List.mem_eraseDups, List.mem_map,
    List.mem_filter, decide_eq_true_eq]
  constructor
  · rintro ⟨-, -, b, ⟨hb, -⟩, hd⟩
    exact ⟨b, hb, hd⟩
  · rintro ⟨b, hb, hd⟩
    exact ⟨b.pkg, ⟨b, hb, rfl⟩, b, ⟨hb, rfl⟩, hd⟩

namespace RunResults

/-- Takes in batches, first to last. -/
def addAll (results : RunResults) (batches : List Batch) : RunResults :=
  batches.foldl (fun results b => results.add b.pkg b.diagnostics b.elapsed) results

/-- The packages are those of any map that the same keys were put into. -/
theorem packageNames_addAll {results : RunResults} {m : OrderedMap String Unit}
    (h : results.packageNames = m.keys) (batches : List Batch) :
    (results.addAll batches).packageNames =
      (m.insertAll (batches.map fun b => (b.pkg, ()))).keys := by
  induction batches generalizing results m with
  | nil => exact h
  | cons b batches ih =>
    refine ih (?_ : (results.add b.pkg b.diagnostics b.elapsed).packageNames = _)
    rw [packageNames] at h ⊢
    rw [add, OrderedMap.keys_insert, OrderedMap.keys_insert, h]

/-- A package has what it had before, and behind it what it hands in. -/
theorem get?_addAll (results : RunResults) (batches : List Batch) (pkg : String) :
    ((results.addAll batches).byPackage.get? pkg).getD [] =
      (results.byPackage.get? pkg).getD [] ++ arrivalsOf pkg batches := by
  induction batches generalizing results with
  | nil => exact (List.append_nil _).symm
  | cons b batches ih =>
    refine (ih (results.add b.pkg b.diagnostics b.elapsed)).trans ?_
    rw [add, OrderedMap.get?_insert, arrivalsOf_cons, ← List.append_assoc]
    by_cases h : b.pkg = pkg
    · rw [if_pos h, if_pos h, Option.getD_some, h]
    · rw [if_neg h, if_neg h, List.append_nil]

/-- The results hold what arrived. -/
theorem merged_addAll (batches : List Batch) :
    (({} : RunResults).addAll batches).merged = arrivals batches := by
  have hnames : (({} : RunResults).addAll batches).byPackage.keys = _ :=
    packageNames_addAll (m := .empty) rfl batches
  have hnodup : (({} : RunResults).addAll batches).byPackage.keys.Nodup := by
    rw [hnames]
    exact OrderedMap.nodup_keys_insertAll (m := .empty) .nil _
  have hkeys : (({} : RunResults).addAll batches).byPackage.keys =
      (batches.map (·.pkg)).eraseDups := by
    rw [hnames, OrderedMap.keys_insertAll_empty, List.map_map]
    rfl
  rw [merged, OrderedMap.values_eq_map_keys hnodup [], hkeys, arrivals, List.flatMap_def]
  congr 1
  exact List.map_congr_left fun pkg _ => get?_addAll {} batches pkg

/-! ## What comes out -/

theorem merged_eq_nil_iff (results : RunResults) :
    results.merged = [] ↔ results.diagnostics = [] := by
  have hkeys (k : Diagnostic.Key) : k ∈ results.diagnostics.map Diagnostic.key ↔
      k ∈ results.merged.map Diagnostic.key := mem_keys_diagnostics
  rw [← List.map_eq_nil_iff (f := Diagnostic.key), List.eq_nil_iff_forall_not_mem,
    ← List.map_eq_nil_iff (f := Diagnostic.key), List.eq_nil_iff_forall_not_mem]
  simp only [hkeys]

/-- Something was handed in exactly if something comes out. -/
theorem hasDiagnostics_iff (results : RunResults) :
    results.hasDiagnostics = true ↔ results.diagnostics ≠ [] := by
  rw [ne_eq, ← merged_eq_nil_iff, merged, List.flatten_eq_nil_iff, hasDiagnostics]
  simp

theorem outcome_eq_findings_iff (results : RunResults) :
    results.outcome = .findings ↔ results.hasDiagnostics = true := by
  unfold outcome
  cases results.hasDiagnostics <;> simp

/-- No key is counted twice. -/
theorem count_eq_card (results : RunResults) :
    results.count = (results.merged.map Diagnostic.key).toFinset.card := by
  have hnodup : (results.diagnostics.map Diagnostic.key).Nodup :=
    results.strict_diagnostics.map.nodup
  have hsame : (results.merged.map Diagnostic.key).toFinset =
      (results.diagnostics.map Diagnostic.key).toFinset := by
    ext k
    rw [List.mem_toFinset, List.mem_toFinset, mem_keys_diagnostics]
  rw [hsame, List.toFinset_card_of_nodup hnodup, List.length_map, count]

/-- Whatever batches are handed in, each finding comes out once, as it arrived first, and the
findings come out in order. -/
theorem diagnostics_of_batches (batches : List Batch) :
    let results := ({} : RunResults).addAll batches
    results.diagnostics.Pairwise (fun d e => d.key.rank < e.key.rank) ∧
    (results.diagnostics.map Diagnostic.key).Nodup ∧
    (∀ k, k ∈ results.diagnostics.map Diagnostic.key ↔
      ∃ b ∈ batches, ∃ d ∈ b.diagnostics, d.key = k) ∧
    (∀ d ∈ results.diagnostics, (arrivals batches).find? (·.key = d.key) = some d) ∧
    results.count = ((batches.flatMap (·.diagnostics)).map Diagnostic.key).toFinset.card ∧
    (results.hasDiagnostics = true ↔ results.diagnostics ≠ []) ∧
    (results.outcome = .findings ↔ results.diagnostics ≠ []) := by
  intro results
  have hmerged : results.merged = arrivals batches := merged_addAll batches
  refine ⟨?_, results.strict_diagnostics.map.nodup, fun k => ?_, fun d hd => ?_, ?_,
    results.hasDiagnostics_iff, results.outcome_eq_findings_iff.trans results.hasDiagnostics_iff⟩
  · exact results.strict_diagnostics.imp (Diagnostic.Key.compare_eq_lt_iff _ _).mp
  · rw [mem_keys_diagnostics, hmerged, List.mem_map]
    simp only [mem_arrivals]
    tauto
  · have hfirst := mem_diagnostics.mp hd
    rwa [hmerged] at hfirst
  · rw [count_eq_card, hmerged]
    congr 1
    ext k
    simp only [List.mem_toFinset, List.mem_map, mem_arrivals, List.mem_flatMap]

end RunResults

end UncheckedErrors
