import Mathlib.Data.List.Nodup
import Mathlib.Data.List.Perm.Basic
import UncheckedErrors.RunResults

/-!
# Merged results

What `RunResults.diagnostics` makes of the diagnostics that were handed in.

* `Diagnostic.Key.compare` is a linear order on keys (`transCmp_compare`, `lawfulEqCmp_compare`).
* `RunResults.mem_diagnostics`: a diagnostic comes out exactly if it is the first one with its key
  among those handed in.
* `RunResults.strict_diagnostics`: what comes out is strictly in order of output, so that no key
  comes out twice.
* `eq_of_strict`: a list that is strictly in order is determined by its members.

`RunResults.merged_add` and `RunResults.StartsWith` say where a batch goes when it is handed in.
-/

namespace UncheckedErrors

open scoped List

/-! ## The order of output -/

theorem DiagnosticKind.text_inj {a b : DiagnosticKind} (h : a.text = b.text) : a = b := by
  cases a <;> cases b <;> first | rfl | exact absurd h (by decide)

namespace Diagnostic.Key

/-- Keys are compared part by part. -/
theorem compare_eq_compareLex : Key.compare =
    compareLex (compareOn (·.filename)) (compareLex (compareOn (·.line))
      (compareLex (compareOn (·.column)) (compareLex (compareOn (·.text))
        (compareOn (·.kind.text))))) := rfl

instance transCmp_compare : Std.TransCmp Key.compare := by
  rw [compare_eq_compareLex]
  infer_instance

theorem compare_self (k : Key) : k.compare k = .eq := Std.ReflCmp.compare_self

/-- Keys that compare equal are equal: the name of a kind tells the kind. -/
instance lawfulEqCmp_compare : Std.LawfulEqCmp Key.compare where
  compare_self := compare_self _
  eq_of_compare {a b} h := by
    obtain ⟨filename, line, column, kind, text⟩ := a
    obtain ⟨filename', line', column', kind', text'⟩ := b
    simp only [Key.compare, Ordering.then_eq_eq, Std.LawfulEqOrd.compare_eq_iff_eq] at h
    obtain ⟨rfl, rfl, rfl, rfl, hkind⟩ := h
    rw [DiagnosticKind.text_inj hkind]

end Diagnostic.Key

namespace Diagnostic

theorem le_trans (a b c : Diagnostic) (hab : le a b = true) (hbc : le b c = true) :
    le a c = true :=
  Std.TransCmp.isLE_trans hab hbc

theorem le_total (a b : Diagnostic) : (le a b || le b a) = true := by
  cases h : le a b with
  | true => rfl
  | false =>
    have hlt : b.key.compare a.key = .lt := Std.OrientedCmp.lt_of_not_isLE (by simpa [le] using h)
    simp [le, hlt]

end Diagnostic

/-- Elements are strictly in order of their keys. -/
def StrictBy {α : Type} (key : α → Diagnostic.Key) (xs : List α) : Prop :=
  xs.Pairwise fun a b => (key a).compare (key b) = .lt

theorem StrictBy.map {α : Type} {key : α → Diagnostic.Key} {xs : List α} (h : StrictBy key xs) :
    StrictBy id (xs.map key) :=
  List.pairwise_map.mpr h

theorem StrictBy.nodup {α : Type} {key : α → Diagnostic.Key} {xs : List α} (h : StrictBy key xs) :
    xs.Nodup := by
  refine List.Pairwise.imp ?_ h
  rintro a b hlt rfl
  rw [Diagnostic.Key.compare_self] at hlt
  cases hlt

/-- No key comes twice. -/
theorem StrictBy.eq_of_key_eq {α : Type} {key : α → Diagnostic.Key} {xs : List α}
    (h : StrictBy key xs) {a b : α} (ha : a ∈ xs) (hb : b ∈ xs) (hab : key a = key b) : a = b :=
  List.inj_on_of_nodup_map h.map.nodup ha hb hab

/-- A list that is strictly in order is determined by its members. -/
theorem eq_of_strict {α : Type} {key : α → Diagnostic.Key} {xs ys : List α} (hx : StrictBy key xs)
    (hy : StrictBy key ys) (h : ∀ a, a ∈ xs ↔ a ∈ ys) : xs = ys := by
  have hperm : xs.Perm ys := (List.perm_ext_iff_of_nodup hx.nodup hy.nodup).mpr h
  refine hperm.eq_of_pairwise ?_ hx hy
  intro a b _ _ hab hba
  exact absurd hba (Std.OrientedCmp.not_lt_of_lt hab)

/-- Of two lists in order, one whose members are all in the other is a part of it. -/
theorem sublist_of_strict {α : Type} {key : α → Diagnostic.Key} {xs ys : List α}
    (hx : StrictBy key xs) (hy : StrictBy key ys) (h : xs ⊆ ys) : xs <+ ys := by
  obtain ⟨zs, hperm, hsub⟩ := List.subperm_of_subset hx.nodup h
  have hz : StrictBy key zs := List.Pairwise.sublist hsub hy
  rw [eq_of_strict hx hz fun _ => hperm.mem_iff.symm]
  exact hsub

/-! ## First come, first kept -/

/-- The first diagnostic with a key. -/
def firstWithKey (ds : List Diagnostic) (k : Diagnostic.Key) : Option Diagnostic :=
  ds.find? (·.key == k)

theorem key_of_firstWithKey {ds : List Diagnostic} {k : Diagnostic.Key} {d : Diagnostic}
    (h : firstWithKey ds k = some d) : d.key = k := by
  simpa using List.find?_some h

theorem mem_of_firstWithKey {ds : List Diagnostic} {k : Diagnostic.Key} {d : Diagnostic}
    (h : firstWithKey ds k = some d) : d ∈ ds :=
  List.mem_of_find?_eq_some h

/-- Some diagnostic with the key of a member comes first. -/
theorem exists_firstWithKey {ds : List Diagnostic} {d : Diagnostic} (h : d ∈ ds) :
    ∃ e, firstWithKey ds d.key = some e := by
  have : (firstWithKey ds d.key).isSome = true :=
    List.find?_isSome.mpr ⟨d, h, beq_self_eq_true _⟩
  exact Option.isSome_iff_exists.mp this

theorem firstWithKey_append (ds es : List Diagnostic) (k : Diagnostic.Key) :
    firstWithKey (ds ++ es) k = (firstWithKey ds k).or (firstWithKey es k) :=
  List.find?_append

/-- What is kept is first with its key, and its key was not seen before. -/
theorem mem_distinctByKey {seen : List Diagnostic.Key} {ds : List Diagnostic} {d : Diagnostic} :
    d ∈ distinctByKey seen ds ↔ d.key ∉ seen ∧ firstWithKey ds d.key = some d := by
  induction ds generalizing seen with
  | nil => simp [distinctByKey, firstWithKey]
  | cons e ds ih =>
    by_cases hkey : e.key = d.key
    · have hfirst : firstWithKey (e :: ds) d.key = some e := by simp [firstWithKey, hkey]
      rw [hfirst, distinctByKey]
      by_cases hseen : e.key ∈ seen
      · rw [if_pos hseen, ih]
        simp [hkey ▸ hseen]
      · rw [if_neg hseen, List.mem_cons, ih]
        have : d.key ∉ seen := hkey ▸ hseen
        simp [hkey, this, eq_comm]
    · have hfirst : firstWithKey (e :: ds) d.key = firstWithKey ds d.key := by
        simp [firstWithKey, hkey]
      rw [hfirst, distinctByKey]
      split
      · exact ih
      · have hne : d ≠ e := fun h => hkey (h ▸ rfl)
        have hkey' : ¬ d.key = e.key := fun h => hkey h.symm
        simp [ih, hne, hkey']

theorem nodup_keys_distinctByKey (seen : List Diagnostic.Key) (ds : List Diagnostic) :
    ((distinctByKey seen ds).map (·.key)).Nodup := by
  induction ds generalizing seen with
  | nil => exact List.nodup_nil
  | cons d ds ih =>
    rw [distinctByKey]
    split
    · exact ih seen
    · rw [List.map_cons, List.nodup_cons]
      refine ⟨fun hmem => ?_, ih _⟩
      obtain ⟨e, he, hkey⟩ := List.mem_map.mp hmem
      exact (mem_distinctByKey.mp he).1 (hkey ▸ List.mem_cons_self)

namespace RunResults

/-! ## What comes out -/

/-- What comes out is the first diagnostic with its key among those handed in. -/
theorem mem_diagnostics {results : RunResults} {d : Diagnostic} :
    d ∈ results.diagnostics ↔ firstWithKey results.merged d.key = some d := by
  rw [diagnostics, List.mem_mergeSort, mem_distinctByKey]
  simp

/-- What comes out is strictly in order of output. -/
theorem strict_diagnostics (results : RunResults) :
    StrictBy Diagnostic.key results.diagnostics := by
  have hsorted : results.diagnostics.Pairwise fun a b => Diagnostic.le a b = true :=
    List.pairwise_mergeSort Diagnostic.le_trans Diagnostic.le_total _
  have hnodup : (results.diagnostics.map Diagnostic.key).Nodup :=
    ((List.mergeSort_perm _ _).map _).nodup_iff.mpr (nodup_keys_distinctByKey [] _)
  refine (hsorted.and (List.pairwise_map.mp hnodup)).imp ?_
  rintro a b ⟨hle, hne⟩
  -- Of the two ways to be in order, equality would make the keys equal.
  rcases Ordering.isLE_iff_eq_lt_or_eq_eq.mp hle with hlt | heq
  · exact hlt
  · exact absurd (Std.LawfulEqCmp.eq_of_compare heq) hne

/-- The keys that come out are those handed in. -/
theorem mem_keys_diagnostics {results : RunResults} {k : Diagnostic.Key} :
    k ∈ results.diagnostics.map Diagnostic.key ↔ k ∈ results.merged.map Diagnostic.key := by
  simp only [List.mem_map]
  constructor
  · rintro ⟨d, hd, rfl⟩
    exact ⟨d, mem_of_firstWithKey (mem_diagnostics.mp hd), rfl⟩
  · rintro ⟨d, hd, rfl⟩
    obtain ⟨e, he⟩ := exists_firstWithKey hd
    have hkey := key_of_firstWithKey he
    exact ⟨e, mem_diagnostics.mpr (hkey ▸ he), hkey⟩

/-! ## Handing in -/

/-- A batch goes behind what its package has handed in, or behind everything. -/
theorem flatten_insertEntry (pkg : String) (batch : List Diagnostic)
    (entries : List (String × List Diagnostic)) :
    ∃ front back, (entries.map (·.2)).flatten = front ++ back ∧
      ((OrderedMap.insertEntry pkg ((OrderedMap.lookup pkg entries).getD [] ++ batch)
        entries).map (·.2)).flatten = front ++ batch ++ back := by
  induction entries with
  | nil => exact ⟨[], [], rfl, by simp [OrderedMap.insertEntry, OrderedMap.lookup]⟩
  | cons entry rest ih =>
    obtain ⟨name, ds⟩ := entry
    by_cases h : name = pkg
    · exact ⟨ds, (rest.map (·.2)).flatten, rfl, by
        simp [OrderedMap.insertEntry, OrderedMap.lookup, h]⟩
    · obtain ⟨front, back, hbefore, hafter⟩ := ih
      refine ⟨ds ++ front, back, ?_, ?_⟩
      · simp [hbefore]
      · simp only [OrderedMap.insertEntry, OrderedMap.lookup, if_neg h, List.map_cons,
          List.flatten_cons, hafter, List.append_assoc]

/-- Handing in a batch puts it somewhere into what was handed in before. -/
theorem merged_add (results : RunResults) (pkg : String) (batch : List Diagnostic)
    (elapsed : Number.Binary64) :
    ∃ front back, results.merged = front ++ back ∧
      (results.add pkg batch elapsed).merged = front ++ batch ++ back :=
  flatten_insertEntry pkg batch results.byPackage.entries

/-- The package that came first has `batch` in front of what it handed in. -/
def StartsWith (results : RunResults) (batch : List Diagnostic) : Prop :=
  ∃ pkg ds rest, results.byPackage.entries = (pkg, batch ++ ds) :: rest

theorem startsWith_add_empty {results : RunResults} (h : results.byPackage = .empty) (pkg : String)
    (batch : List Diagnostic) (elapsed : Number.Binary64) :
    (results.add pkg batch elapsed).StartsWith batch :=
  ⟨pkg, [], [], by
    simp [add, h, OrderedMap.insert, OrderedMap.get?, OrderedMap.empty, OrderedMap.insertEntry,
      OrderedMap.lookup]⟩

/-- Later batches go behind the first one. -/
theorem StartsWith.add {results : RunResults} {batch : List Diagnostic}
    (h : results.StartsWith batch) (pkg : String) (later : List Diagnostic)
    (elapsed : Number.Binary64) : (results.add pkg later elapsed).StartsWith batch := by
  obtain ⟨name, ds, rest, hentries⟩ := h
  by_cases hname : name = pkg
  · exact ⟨name, ds ++ later, rest, by
      simp [RunResults.add, OrderedMap.insert, OrderedMap.get?, hentries, OrderedMap.insertEntry,
        OrderedMap.lookup, hname]⟩
  · exact ⟨name, ds, _, by
      simp only [RunResults.add, OrderedMap.insert, hentries, OrderedMap.insertEntry, if_neg hname]
      rfl⟩

/-- The first batch is in front of everything. -/
theorem StartsWith.merged_eq {results : RunResults} {batch : List Diagnostic}
    (h : results.StartsWith batch) : ∃ rest, results.merged = batch ++ rest := by
  obtain ⟨name, ds, rest, hentries⟩ := h
  exact ⟨ds ++ (rest.map (·.2)).flatten, by simp [merged, OrderedMap.values, hentries]⟩

end RunResults

end UncheckedErrors
