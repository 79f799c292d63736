import UncheckedErrors.GoType.Table
import UncheckedErrors.Object

/-!
# Methods of interfaces

An interface has the methods it declares itself and those of the interfaces it embeds.

* `TypeTable.explicitMethods`: the methods that the interface under a type declares itself. Their
  receiver is the name the interface is defined under, or the interface itself if it has none.
* `TypeTable.allMethods`: the full method set, each identity once, in order of a depth-first walk
  over what is embedded.

The walk keeps the names it has been to, so it ends also when interfaces embed each other in a
circle. An interface without a name needs no such record: it is a part of the term it was met in.
-/

namespace UncheckedErrors

/-- A method of an interface as an object. `owner` is the name the interface is defined under and
`self` the interface itself. -/
def Method.toObject (owner : Option TypeName) (self : GoType) (m : Method) : Object :=
  .func (owner.bind (·.pkg)) m.name (some (owner.elim self .named)) (some m.type)

namespace GoType

theorem one_le_sizeOf (t : GoType) : 1 ≤ sizeOf t := by
  cases t <;> simp <;> omega

/-- Sizes of the types of a list, added up. -/
noncomputable def weight : List GoType → Nat
  | [] => 0
  | t :: ts => sizeOf t + weight ts

@[simp] theorem weight_nil : weight [] = 0 := rfl

@[simp] theorem weight_cons (t : GoType) (ts : List GoType) :
    weight (t :: ts) = sizeOf t + weight ts := rfl

@[simp] theorem weight_append (ts us : List GoType) :
    weight (ts ++ us) = weight ts + weight us := by
  induction ts with
  | nil => rw [List.nil_append, weight_nil, Nat.zero_add]
  | cons t ts ih => rw [List.cons_append, weight_cons, weight_cons, ih, Nat.add_assoc]

theorem weight_le_sizeOf (ts : List GoType) : weight ts ≤ sizeOf ts := by
  induction ts with
  | nil => exact Nat.zero_le _
  | cons t ts ih => simp only [weight_cons, List.cons.sizeOf_spec]; omega

theorem weight_embedded_lt (methods : List Method) (embedded : List GoType) :
    weight embedded < sizeOf (GoType.interface methods embedded) := by
  have := weight_le_sizeOf embedded
  simp only [GoType.interface.sizeOf_spec]
  omega

end GoType

namespace TypeTable

/-- The methods that the interface under a type declares itself. -/
def explicitMethods (table : TypeTable) (t : GoType) : List Object :=
  match table.view t with
  | (owner, .interface methods embedded) =>
    methods.map (·.toObject owner (.interface methods embedded))
  | _ => []

/-- Number of names that a walk has not been to. -/
def unvisited (table : TypeTable) (visited : List TypeName) : Nat :=
  (table.names.filter (· ∉ visited)).length

/-- Going to a new name leaves fewer of them. -/
theorem unvisited_cons_lt {table : TypeTable} {visited : List TypeName} {n : TypeName}
    (hn : n ∈ table.names) (hv : n ∉ visited) :
    table.unvisited (n :: visited) < table.unvisited visited := by
  have split : table.names.filter (· ∉ n :: visited) =
      (table.names.filter (· ∉ visited)).filter (· ≠ n) := by
    rw [List.filter_filter]
    refine List.filter_congr fun m _ => ?_
    simp [not_or]
  unfold unvisited
  rw [split]
  exact List.length_filter_lt_length_iff_exists.mpr ⟨n, by simp [hn, hv], by simp⟩

/-- An interface that was not reached by name is the type itself. -/
theorem eq_of_view_eq_none {table : TypeTable} {t : GoType} {methods : List Method}
    {embedded : List GoType} (h : table.view t = (none, .interface methods embedded)) :
    t = .interface methods embedded := by
  unfold view at h
  split at h
  · split at h <;> simp at h
  · simpa using h

/-- The methods met on a depth-first walk from the types of `work`, which goes to no name of
`visited`. -/
def methodsFrom (table : TypeTable) (visited : List TypeName) : List GoType → List Object
  | [] => []
  | t :: work =>
    match _h : table.view t with
    | (some owner, .interface methods embedded) =>
      if owner ∈ visited then table.methodsFrom visited work
      else
        methods.map (·.toObject (some owner) (.interface methods embedded)) ++
          table.methodsFrom (owner :: visited) (embedded ++ work)
    | (none, .interface methods embedded) =>
      methods.map (·.toObject none (.interface methods embedded)) ++
        table.methodsFrom visited (embedded ++ work)
    | _ => table.methodsFrom visited work
termination_by work => (table.unvisited visited, GoType.weight work)
decreasing_by
  · have := GoType.one_le_sizeOf t
    exact Prod.Lex.right _ (by simp only [GoType.weight_cons]; omega)
  · rename_i hv
    exact Prod.Lex.left _ _ (unvisited_cons_lt (mem_names_of_view (by rw [_h])) hv)
  · have := GoType.weight_embedded_lt methods embedded
    rw [← eq_of_view_eq_none _h] at this
    exact Prod.Lex.right _ (by simp only [GoType.weight_cons, GoType.weight_append]; omega)
  · have := GoType.one_le_sizeOf t
    exact Prod.Lex.right _ (by simp only [GoType.weight_cons]; omega)

/-- The methods of a list without those whose identity came before. -/
def distinctById (seen : List String) : List Object → List Object
  | [] => []
  | m :: ms =>
    if m.id ∈ seen then distinctById seen ms else m :: distinctById (m.id :: seen) ms

/-- The full method set of the interface under a type. -/
def allMethods (table : TypeTable) (t : GoType) : List Object :=
  distinctById [] (table.methodsFrom [] [t])

/-- Whether the interface under a type itself declares a method with this identity. -/
def explicitlyDeclares (table : TypeTable) (t : GoType) (id : String) : Bool :=
  (table.explicitMethods t).any (·.id == id)

/-- Whether the interface under a type has a method with this identity. -/
def declares (table : TypeTable) (t : GoType) (id : String) : Bool :=
  (table.allMethods t).any (·.id == id)

end TypeTable

end UncheckedErrors
