import UncheckedErrors.CommandLine.Session
import UncheckedErrors.Proofs.Pieces

/-!
# Lists of rules

Rules for packages are written one after the other, with a comma between them. Reading such a list
is the inverse of writing it: each rule comes back under its package (`rulesOf_intercalate`), and
the last one of a package counts. What stands behind a comma is read on its own and inserted after
the rest (`parseIgnore_lists`), so a list can be cut at any comma.
-/

namespace UncheckedErrors.CommandLine

/-- A package and its pattern, written as an item of a list. -/
def itemOf (rule : String × String) : String := rule.1 ++ ":" ++ rule.2

/-- A package and a pattern that can be written as an item: there is no comma in them, and no colon
in the package. -/
structure Writable (rule : String × String) : Prop where
  comma_pkg : ',' ∉ rule.1.toList
  colon_pkg : ':' ∉ rule.1.toList
  comma_pattern : ',' ∉ rule.2.toList

/-- The rules that a list writes, in order. -/
def rulesOf (spec : String) : List (String × String) := (items spec.toList).map ruleOf

theorem parseIgnore_eq (spec : String) :
    parseIgnore spec = OrderedMap.empty.insertAll (rulesOf spec) := rfl

@[simp] theorem rulesOf_empty : rulesOf "" = [] := rfl

/-- A comma parts the rules before it from those behind it. -/
theorem rulesOf_append_comma (a b : String) : rulesOf (a ++ "," ++ b) = rulesOf a ++ rulesOf b := by
  have hcut : (a ++ "," ++ b).toList = a.toList ++ ',' :: b.toList := by simp
  rw [rulesOf, items, hcut, splitAtChar_append_cons (by rfl), List.filter_append, List.map_append]
  rfl

/-! ## Writing and reading -/

theorem toList_itemOf (rule : String × String) :
    (itemOf rule).toList = rule.1.toList ++ ':' :: rule.2.toList := by
  simp [itemOf]

/-- The package of an item is what stands in front of its first colon. -/
theorem ruleOf_itemOf {rule : String × String} (h : ':' ∉ rule.1.toList) :
    ruleOf (itemOf rule).toList = rule := by
  have hpkg : ∀ c ∈ rule.1.toList, (c != ':') = true := fun c hc =>
    bne_iff_ne.mpr fun heq => h (heq ▸ hc)
  have htake : (itemOf rule).toList.takeWhile (· != ':') = rule.1.toList := by
    rw [toList_itemOf, List.takeWhile_append_of_pos hpkg, List.takeWhile_cons_of_neg (by simp),
      List.append_nil]
  have hdrop : (itemOf rule).toList.dropWhile (· != ':') = ':' :: rule.2.toList := by
    rw [toList_itemOf, List.dropWhile_append_of_pos hpkg, List.dropWhile_cons_of_neg (by simp)]
  rw [ruleOf, hdrop, htake]
  dsimp only
  rw [String.ofList_toList, String.ofList_toList]

/-- A text without a comma is one item, if it is not empty. -/
theorem items_of_notMem {cs : List Char} (hne : cs ≠ []) (h : ',' ∉ cs) : items cs = [cs] := by
  rw [items, splitAtChar_of_notMem h, List.filter_cons_of_pos (by simpa using hne),
    List.filter_nil]

theorem Writable.rulesOf_itemOf {rule : String × String} (h : Writable rule) :
    rulesOf (itemOf rule) = [rule] := by
  have hne : (itemOf rule).toList ≠ [] := by simp [toList_itemOf]
  have hcomma : ',' ∉ (itemOf rule).toList := by
    simp [toList_itemOf, h.comma_pkg, h.comma_pattern]
  rw [rulesOf, items_of_notMem hne hcomma, List.map_singleton, ruleOf_itemOf h.colon_pkg]

/-- What is read from rules that are written with commas between them are these rules. -/
theorem rulesOf_intercalate {rules : List (String × String)} (h : ∀ rule ∈ rules, Writable rule) :
    rulesOf (",".intercalate (rules.map itemOf)) = rules := by
  induction rules with
  | nil => exact rulesOf_empty
  | cons rule rules ih =>
    have hrule := (h rule List.mem_cons_self).rulesOf_itemOf
    have hrest := ih fun rule hmem => h rule (List.mem_cons_of_mem _ hmem)
    cases rules with
    | nil => rw [List.map_singleton, String.intercalate_singleton, hrule]
    | cons next rules =>
      rw [List.map_cons, List.map_cons, String.intercalate_cons_cons, rulesOf_append_comma, hrule,
        ← List.map_cons, hrest, List.singleton_append]

/-- Reading a written list inserts its rules in order: a package has its place from its first rule
and its pattern from its last one. And a list that is cut at a comma is read by inserting what the
second part gives, in order, into what the first part gives. -/
theorem parseIgnore_lists :
    (∀ rules : List (String × String), (∀ rule ∈ rules, Writable rule) →
        parseIgnore (",".intercalate (rules.map itemOf)) = OrderedMap.empty.insertAll rules ∧
          (parseIgnore (",".intercalate (rules.map itemOf))).keys =
            (rules.map (·.1)).eraseDups ∧
          ∀ pkg, (parseIgnore (",".intercalate (rules.map itemOf))).get? pkg =
            (rules.filter (·.1 = pkg)).getLast?.map (·.2)) ∧
      ∀ a b : String,
        parseIgnore (a ++ "," ++ b) = (parseIgnore a).insertAll (parseIgnore b).entries := by
  refine ⟨fun rules h => ?_, fun a b => ?_⟩
  · have hread : parseIgnore (",".intercalate (rules.map itemOf)) =
        OrderedMap.empty.insertAll rules := by
      rw [parseIgnore_eq, rulesOf_intercalate h]
    refine ⟨hread, ?_, fun pkg => ?_⟩
    · rw [hread, OrderedMap.keys_insertAll_empty]
    · rw [hread, OrderedMap.get?_insertAll, OrderedMap.get?_empty, Option.or_none]
  · have hempty : (OrderedMap.empty : OrderedMap String String).keys.Nodup := List.nodup_nil
    rw [parseIgnore_eq, parseIgnore_eq, parseIgnore_eq, rulesOf_append_comma,
      OrderedMap.insertAll_append, OrderedMap.insertAll_entries_insertAll hempty]
    rfl

/-- The second rule for `fmt` takes the place of the first; a pattern may have colons in it. -/
theorem parseIgnore_repeated_package :
    (∀ rule ∈ [("fmt", "a"), ("", "x:y"), ("fmt", "b")], Writable rule) ∧
      (parseIgnore "fmt:a,:x:y,fmt:b").entries = [("fmt", "b"), ("", "x:y")] := by
  have h : ∀ rule ∈ [("fmt", "a"), ("", "x:y"), ("fmt", "b")], Writable rule := by
    simp only [List.forall_mem_cons, List.not_mem_nil, false_implies, implies_true, and_true]
    exact ⟨⟨by decide, by decide, by decide⟩, ⟨by decide, by decide, by decide⟩,
      ⟨by decide, by decide, by decide⟩⟩
  have hread := (parseIgnore_lists.1 _ h).1
  exact ⟨h, congrArg OrderedMap.entries hread⟩

end UncheckedErrors.CommandLine
