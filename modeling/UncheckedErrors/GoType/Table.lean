import UncheckedErrors.GoType.Basic
import UncheckedErrors.OrderedMap

/-!
# Definitions of named types

A table holds every named type that a dump mentions, in order of first mention, with its
definition once there is one. The predeclared type `error` is defined from the start.

`TypeTable.unname` replaces a named type by what it stands for. A chain of names is followed for
at most `linkLimit` links, so that names which stand for each other in a circle come out invalid.
-/

namespace UncheckedErrors

/-- The named types of a dump with their definitions. -/
structure TypeTable where
  definitions : OrderedMap TypeName (Option GoType)

namespace TypeTable

/-- The interface that `error` stands for. -/
def errorInterface : GoType :=
  .interface [.mk "Error" (.signature [] [.basic "string"] false)] []

/-- The table that knows only the predeclared type `error`. -/
def initial : TypeTable :=
  ⟨OrderedMap.empty.insert .error (some errorInterface)⟩

/-- Records that a name is mentioned. -/
def mention (table : TypeTable) (n : TypeName) : TypeTable :=
  if (table.definitions.get? n).isSome then table else ⟨table.definitions.insert n none⟩

/-- Records the definition of a name. -/
def define (table : TypeTable) (n : TypeName) (t : GoType) : TypeTable :=
  ⟨table.definitions.insert n (some t)⟩

/-- The definition of a name, if it has one. -/
def definition? (table : TypeTable) (n : TypeName) : Option GoType :=
  (table.definitions.get? n).join

/-- The names mentioned, in order of first mention. -/
def names (table : TypeTable) : List TypeName := table.definitions.keys

/-- Number of names mentioned. -/
def size (table : TypeTable) : Nat := table.definitions.size

/-- The names without a definition, in order of first mention. -/
def undefined (table : TypeTable) : List TypeName :=
  table.names.filter fun n => (table.definition? n).isNone

/-- A chain of names is followed this far. -/
def linkLimit : Nat := 64

/-- Follows at most `limit` links from a name to a type that is no name, and gives the last name
on the way with it. -/
def resolve? (table : TypeTable) : Nat → TypeName → Option (TypeName × GoType)
  | 0, _ => none
  | limit + 1, n =>
    match table.definition? n with
    | none => none
    | some (.named m) => table.resolve? limit m
    | some t => some (n, t)

/-- What a type stands for, and the name it is defined under if it was reached by name. -/
def view (table : TypeTable) : GoType → Option TypeName × GoType
  | .named n =>
    match table.resolve? linkLimit n with
    | some (owner, t) => (some owner, t)
    | none => (none, .invalid)
  | t => (none, t)

/-- What a type stands for. -/
def unname (table : TypeTable) (t : GoType) : GoType := (table.view t).2

/-- Whether a type stands for an interface. -/
def isInterface (table : TypeTable) (t : GoType) : Bool := (table.unname t).kind = .interface

/-! ## What the operations do to the definitions -/

@[simp] theorem definition?_initial (n : TypeName) :
    initial.definition? n = if TypeName.error = n then some errorInterface else none := by
  simp only [definition?, initial, OrderedMap.get?_insert, OrderedMap.get?_empty]
  split <;> rfl

/-- Mentioning a name defines nothing. -/
@[simp] theorem definition?_mention (table : TypeTable) (n m : TypeName) :
    (table.mention n).definition? m = table.definition? m := by
  unfold mention definition?
  split
  · rfl
  · rename_i h
    simp only [OrderedMap.get?_insert]
    split
    · rename_i e
      subst e
      simp only [Bool.not_eq_true, Option.isSome_eq_false_iff, Option.isNone_iff_eq_none] at h
      simp [h]
    · rfl

/-- A definition changes what its name stands for, and nothing else. -/
@[simp] theorem definition?_define (table : TypeTable) (n m : TypeName) (t : GoType) :
    (table.define n t).definition? m = if n = m then some t else table.definition? m := by
  unfold define definition?
  simp only [OrderedMap.get?_insert]
  split <;> rfl

/-- The names after a mention. -/
theorem names_mention (table : TypeTable) (n : TypeName) :
    (table.mention n).names = if n ∈ table.names then table.names else table.names ++ [n] := by
  unfold mention names
  by_cases h : (table.definitions.get? n).isSome
  · simp [h, (OrderedMap.get?_isSome_iff _ _).mp h]
  · have h' : n ∉ table.definitions.keys := fun hm => h ((OrderedMap.get?_isSome_iff _ _).mpr hm)
    simp [h, h', OrderedMap.keys_insert]

/-- A name with a definition is mentioned. -/
theorem mem_names_of_definition? {table : TypeTable} {n : TypeName} {t : GoType}
    (h : table.definition? n = some t) : n ∈ table.names := by
  refine (OrderedMap.get?_isSome_iff _ _).mp ?_
  cases hg : table.definitions.get? n with
  | none => simp [definition?, hg] at h
  | some _ => rfl

/-- The name at the end of a chain has a definition in the table. -/
theorem definition?_of_resolve? {table : TypeTable} {limit : Nat} {n owner : TypeName} {t : GoType}
    (h : table.resolve? limit n = some (owner, t)) : table.definition? owner = some t := by
  induction limit generalizing n with
  | zero => simp [resolve?] at h
  | succ limit ih =>
    unfold resolve? at h
    split at h
    · simp at h
    · exact ih h
    · rename_i hd
      simp only [Option.some.injEq, Prod.mk.injEq] at h
      obtain ⟨rfl, rfl⟩ := h
      exact hd

/-- The owner of a view is a name of the table. -/
theorem mem_names_of_view {table : TypeTable} {t : GoType} {owner : TypeName}
    (h : (table.view t).1 = some owner) : owner ∈ table.names := by
  unfold view at h
  split at h
  · split at h
    · rename_i hr
      simp only [Option.some.injEq] at h
      subst h
      exact mem_names_of_definition? (definition?_of_resolve? hr)
    · simp at h
  · simp at h

end TypeTable

end UncheckedErrors
