import Mathlib.Algebra.BigOperators.Group.List.Basic
import Mathlib.Algebra.GroupWithZero.Nat
import UncheckedErrors.Proofs.Readers

/-!
# The grammar of trees, and what stands outside of it

`Place.layout?` is the grammar of expressions, statements and declarations as a table: for a place
and a tag, where the parts of the form stand that are trees themselves. All else in a form (names,
positions, types, objects, and whatever the grammar does not know) is outside: `Datum.outside` lists
it.

`calls_eq` splits the lists headed by `call` at any depth of a datum into those that stand where the
grammar has an expression, and those outside.
-/

namespace UncheckedErrors

/-- What can stand in a place of a form. -/
inductive Place where
  | expr | stmt | block | genDecl | valueSpec | decl
  /-- The targets or the values of an assignment. -/
  | sides
  deriving DecidableEq, Repr

/-- Where the trees stand among the elements of a form. Elements without a place are no trees. -/
structure Layout where
  /-- The first elements after the tag. -/
  operands : List (Option Place) := []
  /-- What the options hold. -/
  options : List (String × Option Place) := []
  /-- The elements that are neither. -/
  rest : Option Place := none
  deriving DecidableEq, Repr

namespace Layout

/-- Elements that all have one place. -/
def each (place : Option Place) : Layout := { rest := place }

@[simp] theorem mk_eq_each (place : Option Place) : Layout.mk [] [] place = .each place := rfl

/-- The elements after the first one. -/
def next (layout : Layout) : Layout := { layout with operands := layout.operands.tail }

/-- Whether there is no place for a tree. -/
def isBare (layout : Layout) : Bool :=
  layout.operands.all (·.isNone) && layout.options.all (·.2.isNone) && layout.rest.isNone

theorem isBare_next {layout : Layout} (h : layout.isBare) : layout.next.isBare := by
  simp only [isBare, Layout.next, Bool.and_eq_true] at h ⊢
  refine ⟨⟨?_, h.1.2⟩, h.2⟩
  exact List.all_eq_true.mpr fun place hmem =>
    List.all_eq_true.mp h.1.1 place (List.mem_of_mem_tail hmem)

end Layout

/-- The forms of expressions. -/
def exprLayout? : String → Option Layout
  | "ident" => some { operands := [none, none], options := [("obj", none), ("type", none)] }
  | "lit" => some { operands := [none, none, none], options := [("type", none)] }
  | "composite" =>
    some { operands := [none], options := [("elts", some .expr), ("type", none)] }
  | "func-lit" => some { operands := [none, some .block], options := [("type", none)] }
  | "paren" | "star" => some { operands := [none, some .expr], options := [("type", none)] }
  | "unary" => some { operands := [none, none, some .expr], options := [("type", none)] }
  | "kv" => some { operands := [some .expr, some .expr] }
  | "type-expr" => some { operands := [none, none] }
  | "selector" =>
    some { operands := [some .expr, some .expr], options := [("selection", none), ("type", none)] }
  | "index" =>
    some { operands := [some .expr, none], options := [("type", none)], rest := some .expr }
  | "slice" =>
    some { operands := [some .expr, none], options :=
      [("low", some .expr), ("high", some .expr), ("max", some .expr), ("type", none)] }
  | "assert" =>
    some { operands := [some .expr, none], options := [("asserted", none), ("type", none)] }
  | "call" =>
    some { operands := [some .expr, none, none], options := [("type", none), ("ellipsis", none)],
           rest := some .expr }
  | "binary" =>
    some { operands := [none, none, some .expr, some .expr], options := [("type", none)] }
  | _ => none

/-- The form of a block. -/
def blockLayout : Layout := { operands := [none], rest := some .stmt }

/-- The forms of statements. -/
def stmtLayout? : String → Option Layout
  | "block" => some blockLayout
  | "expr-stmt" => some { operands := [some .expr] }
  | "go" | "defer" => some { operands := [none, some .expr] }
  | "return" => some { operands := [none], rest := some .expr }
  | "assign" => some { operands := [none, none, some .sides, some .sides] }
  | "empty" => some { operands := [none] }
  | "labeled" => some { operands := [none, none, some .stmt] }
  | "send" => some { operands := [none, some .expr, some .expr] }
  | "incdec" => some { operands := [none, none, some .expr] }
  | "branch" => some { operands := [none, none, none] }
  | "if" =>
    some { operands := [none], options :=
      [("init", some .stmt), ("cond", some .expr), ("body", some .block), ("else", some .stmt)] }
  | "for" =>
    some { operands := [none], options :=
      [("init", some .stmt), ("cond", some .expr), ("post", some .stmt), ("body", some .block)] }
  | "range" =>
    some { operands := [none, none], options :=
      [("key", some .expr), ("value", some .expr), ("x", some .expr), ("body", some .block)] }
  | "switch" =>
    some { operands := [none], options :=
      [("init", some .stmt), ("tag", some .expr), ("body", some .block)] }
  | "type-switch" =>
    some { operands := [none], options :=
      [("init", some .stmt), ("assign", some .stmt), ("body", some .block)] }
  | "select" => some { operands := [none], options := [("body", some .block)] }
  | "case" => some { operands := [none], options := [("list", some .expr)], rest := some .stmt }
  | "comm" => some { operands := [none], options := [("on", some .stmt)], rest := some .stmt }
  | "decl-stmt" => some { operands := [some .genDecl] }
  | _ => none

/-- The form of a group of declarations. -/
def genDeclLayout : Layout := { operands := [none, none], rest := some .valueSpec }

/-- The grammar: the form that has this tag in this place. -/
def Place.layout? : Place → String → Option Layout
  | .expr, tag => exprLayout? tag
  | .stmt, tag => stmtLayout? tag
  | .block, "block" => some blockLayout
  | .genDecl, "gen-decl" => some genDeclLayout
  | .valueSpec, "value-spec" =>
    some { options := [("names", some .expr), ("values", some .expr), ("type", none)] }
  | .decl, "func-decl" =>
    some { operands := [none, none], options := [("recv", none), ("body", some .block)] }
  | .decl, "gen-decl" => some genDeclLayout
  | .sides, "lhs" | .sides, "rhs" => some (.each (some .expr))
  | _, _ => none

/-- The layout of a list with this tag that comes next among the elements of a form. -/
def Layout.inner? (layout : Layout) (tag : String) : Option Layout :=
  match layout.operands with
  | place :: _ => place.bind (·.layout? tag)
  | [] =>
    match layout.options.lookup tag with
    | some place => place.map fun place => .each (some place)
    | none => layout.rest.bind (·.layout? tag)

theorem Layout.inner?_of_isBare {layout : Layout} (h : layout.isBare) (tag : String) :
    layout.inner? tag = none := by
  simp only [isBare, Bool.and_eq_true, List.all_eq_true, Option.isNone_iff_eq_none] at h
  obtain ⟨⟨hoperands, hoptions⟩, hrest⟩ := h
  unfold inner?
  split
  · rename_i place _ heq
    rw [hoperands place (heq ▸ List.mem_cons_self), Option.bind_none]
  · split
    · rename_i place hlookup
      obtain ⟨before, after, heq, -⟩ := List.lookup_eq_some_iff.mp hlookup
      have hplace : place = none := hoptions (tag, place) (by simp [heq])
      rw [hplace, Option.map_none]
    · rw [hrest, Option.bind_none]

namespace Datum

/-- Whether a list is headed by a symbol. -/
def headedBy (tag : String) : List Datum → Bool
  | .symbol head :: _ => head == tag
  | _ => false

mutual

/-- The number of lists headed by `call` at any depth. -/
def calls : Datum → Nat
  | .list items => callsOfAll items + if headedBy "call" items then 1 else 0
  | .brackets items => callsOfAll items
  | .quoted d => d.calls
  | .symbol _ | .string _ | .int _ | .real _ => 0

/-- The number of lists headed by `call` at any depth of several data. -/
def callsOfAll : List Datum → Nat
  | [] => 0
  | d :: ds => d.calls + callsOfAll ds

end

mutual

/-- What stands outside the places of trees in a datum that comes next among the elements of a
form. -/
def outside (layout : Layout) : Datum → List Datum
  | .list (.symbol tag :: args) =>
    match layout.inner? tag with
    | some inner => outsideOfAll inner args
    | none => [.list (.symbol tag :: args)]
  | d => [d]

/-- What stands outside the places of trees in the elements of a form. -/
def outsideOfAll (layout : Layout) : List Datum → List Datum
  | [] => []
  | d :: ds => d.outside layout ++ outsideOfAll layout.next ds

end

mutual

/-- The number of lists headed by `call` in the places of expressions. -/
def placed (layout : Layout) : Datum → Nat
  | .list (.symbol tag :: args) =>
    match layout.inner? tag with
    | some inner => placedOfAll inner args + if tag = "call" then 1 else 0
    | none => 0
  | _ => 0

/-- The number of lists headed by `call` in the places of expressions among the elements of a
form. -/
def placedOfAll (layout : Layout) : List Datum → Nat
  | [] => 0
  | d :: ds => d.placed layout + placedOfAll layout.next ds

end

theorem calls_list_symbol (tag : String) (args : List Datum) :
    (Datum.list (.symbol tag :: args)).calls = callsOfAll args + if tag = "call" then 1 else 0 := by
  simp [calls, callsOfAll, headedBy]

theorem callsOfAll_append (ds es : List Datum) :
    callsOfAll (ds ++ es) = callsOfAll ds + callsOfAll es := by
  induction ds with
  | nil => simp [callsOfAll]
  | cons d ds ih => simp [callsOfAll, ih, Nat.add_assoc]

theorem callsOfAll_eq_zero {ds : List Datum} : callsOfAll ds = 0 ↔ ∀ d ∈ ds, d.calls = 0 := by
  induction ds with
  | nil => simp [callsOfAll]
  | cons d ds ih => simp [callsOfAll, ih]

mutual

/-- A list headed by `call` is in the place of an expression or outside. -/
theorem calls_eq (layout : Layout) (d : Datum) :
    d.calls = d.placed layout + callsOfAll (d.outside layout) := by
  match d with
  | .list (.symbol tag :: args) =>
    unfold placed outside
    cases layout.inner? tag with
    | none => simp [callsOfAll]
    | some inner =>
      simp only [calls_list_symbol]
      have := callsOfAll_eq inner args
      omega
  | .symbol _ | .string _ | .int _ | .real _ | .brackets _ | .quoted _
  | .list [] | .list (.string _ :: _) | .list (.int _ :: _) | .list (.real _ :: _)
  | .list (.brackets _ :: _) | .list (.quoted _ :: _) | .list (.list _ :: _) =>
    simp [placed, outside, callsOfAll]

theorem callsOfAll_eq (layout : Layout) (ds : List Datum) :
    callsOfAll ds = placedOfAll layout ds + callsOfAll (outsideOfAll layout ds) := by
  match ds with
  | [] => simp [callsOfAll, placedOfAll, outsideOfAll]
  | d :: ds =>
    have hd := calls_eq layout d
    have hds := callsOfAll_eq layout.next ds
    simp only [callsOfAll, placedOfAll, outsideOfAll, callsOfAll_append]
    omega

end

/-! ## Counting along a layout -/

theorem placed_congr {layout layout' : Layout}
    (h : ∀ tag, layout.inner? tag = layout'.inner? tag) (d : Datum) :
    d.placed layout = d.placed layout' := by
  unfold placed
  split
  · rw [h]
  · rfl

theorem placed_bare {layout : Layout} (h : layout.isBare) (d : Datum) : d.placed layout = 0 := by
  unfold placed
  split
  · rename_i tag args
    rw [Layout.inner?_of_isBare h]
  · rfl

@[simp] theorem placed_each_none (d : Datum) : d.placed (.each none) = 0 := placed_bare rfl d

/-- The next element, if it is an operand. -/
theorem placed_operand (place : Option Place) (places : List (Option Place))
    (options : List (String × Option Place)) (rest : Option Place) (d : Datum) :
    d.placed ⟨place :: places, options, rest⟩ = d.placed (.each place) := by
  apply placed_congr
  intro tag
  rfl

@[simp] theorem placedOfAll_operand (place : Option Place) (places : List (Option Place))
    (options : List (String × Option Place)) (rest : Option Place) (d : Datum) (ds : List Datum) :
    placedOfAll ⟨place :: places, options, rest⟩ (d :: ds) =
      d.placed (.each place) + placedOfAll ⟨places, options, rest⟩ ds := by
  rw [placedOfAll, placed_operand]
  rfl

/-- Behind the operands all elements count alike. -/
theorem placedOfAll_tail (options : List (String × Option Place)) (rest : Option Place)
    (ds : List Datum) :
    placedOfAll ⟨[], options, rest⟩ ds = (ds.map (placed ⟨[], options, rest⟩)).sum := by
  induction ds with
  | nil => rfl
  | cons d ds ih =>
    rw [placedOfAll, List.map_cons, List.sum_cons, ← ih]
    rfl

@[simp] theorem placedOfAll_nil (layout : Layout) : placedOfAll layout [] = 0 := by
  rw [placedOfAll]

@[simp] theorem placedOfAll_each_cons (place : Option Place) (d : Datum) (ds : List Datum) :
    placedOfAll (.each place) (d :: ds) =
      d.placed (.each place) + placedOfAll (.each place) ds := by
  rw [placedOfAll]
  rfl

theorem placedOfAll_each (place : Option Place) (ds : List Datum) :
    placedOfAll (.each place) ds = (ds.map (placed (.each place))).sum :=
  placedOfAll_tail [] place ds

/-- Elements without a place for a tree count nothing. -/
theorem placedOfAll_bare {layout : Layout} (h : layout.isBare) (ds : List Datum) :
    placedOfAll layout ds = 0 := by
  induction ds generalizing layout with
  | nil => rw [placedOfAll]
  | cons d ds ih =>
    rw [placedOfAll, ih (Layout.isBare_next h), placed_bare h]

@[simp] theorem placedOfAll_none (ds : List Datum) : placedOfAll (.each none) ds = 0 :=
  placedOfAll_bare rfl ds

/-- Every form in the place of an expression counts for itself. -/
theorem placed_list (layout : Layout) {inner : Layout} {tag : String} (args : List Datum)
    (h : layout.inner? tag = some inner) :
    (Datum.list (.symbol tag :: args)).placed layout =
      placedOfAll inner args + if tag = "call" then 1 else 0 := by
  rw [placed, h]

@[simp] theorem placed_lhs (args : List Datum) :
    (Datum.list (.symbol "lhs" :: args)).placed (.each (some .sides)) =
      placedOfAll (.each (some .expr)) args :=
  placed_list _ args rfl

@[simp] theorem placed_rhs (args : List Datum) :
    (Datum.list (.symbol "rhs" :: args)).placed (.each (some .sides)) =
      placedOfAll (.each (some .expr)) args :=
  placed_list _ args rfl

/-! ## Counting options -/

/-- An element behind the operands that is no option counts by the place of the others. -/
theorem placed_other {places : List (String × Option Place)} {rest : Option Place} {d : Datum}
    (h : optionKey? (places.map (·.1)) d = none) :
    d.placed ⟨[], places, rest⟩ = d.placed (.each rest) := by
  unfold placed
  split
  · rename_i tag args
    have hlookup : places.lookup tag = none := by
      rw [List.lookup_eq_none_iff]
      intro place hmem
      simp [optionKey?] at h
      grind
    simp only [Layout.inner?, hlookup, Layout.each, List.lookup_nil]
  · rfl

/-- An option counts by what it holds. No option is headed by `call`. -/
theorem placed_option {places : List (String × Option Place)} {rest : Option Place} {d : Datum}
    {option : String × List Datum} (h : optionKey? (places.map (·.1)) d = some option)
    (hcall : "call" ∉ places.map (·.1)) :
    d.placed ⟨[], places, rest⟩ =
      placedOfAll (.each (places.lookup option.1).join) option.2 := by
  obtain ⟨key, args⟩ := option
  obtain ⟨rfl, hkey⟩ := optionKey?_eq_some.mp h
  obtain ⟨place, hplace⟩ : ∃ place, places.lookup key = some place := by
    cases hlookup : places.lookup key with
    | some place => exact ⟨place, rfl⟩
    | none =>
      rw [List.lookup_eq_none_iff] at hlookup
      simp at hkey hlookup
      grind
  have hne : key ≠ "call" := by
    rintro rfl
    exact hcall hkey
  cases place with
  | none => simp [placed, Layout.inner?, hplace]
  | some place => simp [placed, Layout.inner?, hplace, hne]

/-- One option counts in the place of its key only. -/
theorem sum_option {places : List (String × Option Place)} (hplaces : (places.map (·.1)).Nodup)
    {key : String} (hkey : key ∈ places.map (·.1)) (args : List Datum) :
    (places.map fun place => if place.1 = key then placedOfAll (.each place.2) args else 0).sum =
      placedOfAll (.each (places.lookup key).join) args := by
  induction places with
  | nil => simp at hkey
  | cons place places ih =>
    obtain ⟨name, place⟩ := place
    rw [List.map_cons, List.nodup_cons] at hplaces
    rw [List.map_cons, List.sum_cons, List.lookup_cons]
    by_cases h : name = key
    · subst h
      have hothers : (places.map fun other =>
          if other.1 = name then placedOfAll (.each other.2) args else 0).sum = 0 := by
        refine List.sum_eq_zero fun n hn => ?_
        obtain ⟨other, hmem, rfl⟩ := List.mem_map.mp hn
        exact if_neg fun h => hplaces.1 (List.mem_map.mpr ⟨other, hmem, h⟩)
      rw [hothers]
      simp
    · have hmem : key ∈ places.map (·.1) := by
        simpa [Ne.symm h] using hkey
      have hbeq : (key == name) = false := by
        simpa using Ne.symm h
      rw [ih hplaces.2 hmem, if_neg h, hbeq, Nat.zero_add]

/-- What the options of a form hold, counted option by option or place by place. -/
theorem sum_options {places : List (String × Option Place)} {options : Options}
    (hplaces : (places.map (·.1)).Nodup) (hoptions : (options.map (·.1)).Nodup)
    (hkeys : ∀ option ∈ options, option.1 ∈ places.map (·.1)) :
    (options.map fun option =>
      placedOfAll (.each (places.lookup option.1).join) option.2).sum =
      (places.map fun place => placedOfAll (.each place.2) (options.getAll place.1)).sum := by
  induction options with
  | nil => simp [Options.getAll, Options.get?]
  | cons option options ih =>
    obtain ⟨key, args⟩ := option
    rw [List.map_cons, List.nodup_cons] at hoptions
    rw [List.map_cons, List.sum_cons,
      ih hoptions.2 (fun o ho => hkeys o (List.mem_cons_of_mem _ ho)),
      ← sum_option hplaces (hkeys _ List.mem_cons_self), ← List.sum_map_add]
    refine congrArg List.sum (List.map_congr_left fun place _ => ?_)
    rw [Options.getAll_cons]
    by_cases h : place.1 = key
    · -- The key does not come again.
      rw [if_pos h, if_pos h.symm, h, Options.getAll_of_not_mem hoptions.1, placedOfAll,
        Nat.add_zero]
    · rw [if_neg h, if_neg (Ne.symm h), Nat.zero_add]

/-- The elements behind the operands are the options and the others. -/
theorem placedOfAll_split {places : List (String × Option Place)} {rest : Option Place}
    {keys : List String} {items others : List Datum} {options : Options}
    (h : splitOptions keys items = .ok (others, options)) (hkeys : places.map (·.1) = keys)
    (hplaces : ("call" :: places.map (·.1)).Nodup) :
    placedOfAll ⟨[], places, rest⟩ items =
      placedOfAll (.each rest) others +
        (places.map fun place => placedOfAll (.each place.2) (options.getAll place.1)).sum := by
  subst hkeys
  obtain ⟨hcall, hplaces⟩ := List.nodup_cons.mp hplaces
  obtain ⟨rfl, rfl, hnodup⟩ := splitOptions_eq_ok.mp h
  rw [← sum_options hplaces hnodup ?_, placedOfAll_tail, placedOfAll_each]
  · clear h hnodup
    induction items with
    | nil => rfl
    | cons d items ih =>
      rw [List.map_cons, List.sum_cons, ih]
      cases hkey : optionKey? (places.map (·.1)) d with
      | none =>
        rw [List.filterMap_cons_none hkey, List.filter_cons_of_pos (by simp [hkey]),
          placed_other hkey, List.map_cons, List.sum_cons, Nat.add_assoc]
      | some option =>
        rw [List.filterMap_cons_some hkey, List.filter_cons_of_neg (by simp [hkey]),
          placed_option hkey hcall, List.map_cons, List.sum_cons, Nat.add_left_comm]
  · intro option hmem
    obtain ⟨d, -, hd⟩ := List.mem_filterMap.mp hmem
    exact (optionKey?_eq_some.mp hd).2

theorem placedOfAll_options {places : List (String × Option Place)} {keys : List String}
    {items : List Datum} {options : Options} (h : optionsOf keys items = .ok options)
    (hkeys : places.map (·.1) = keys) (hplaces : ("call" :: places.map (·.1)).Nodup) :
    placedOfAll ⟨[], places, none⟩ items =
      (places.map fun place => placedOfAll (.each place.2) (options.getAll place.1)).sum := by
  obtain ⟨others, h⟩ := optionsOf_eq_ok.mp h
  rw [placedOfAll_split h hkeys hplaces, placedOfAll_none, Nat.zero_add]

end Datum

end UncheckedErrors
