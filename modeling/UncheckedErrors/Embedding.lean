import UncheckedErrors.GoType.Methods
import UncheckedErrors.Notice

/-!
# Promoted methods

A method called through `x.m` may be declared far from the type of `x`: first come the embedded
fields that the selection names, then the interfaces that embed one another. The chain of a
selection lists the types from the receiver to the interface that declares the method itself, so
that a rule written for any of them can apply.

* `TypeTable.fieldPath`: the receiver and the embedded fields after it.
* `TypeTable.descend`: the way from an interface down to the one that declares a method. Each step
  goes to the first embedded interface whose full method set has the method.
* `TypeTable.chain`: the two together.
-/

namespace UncheckedErrors

/-- Why a selection has no chain. -/
inductive NoChain where
  /-- The selection is not that of a method of an interface. -/
  | notApplicable
  /-- An index selects a field of a type that is no struct. -/
  | throughNonStruct (type : GoType)
  /-- The interface reached has no such method. -/
  | undeclared (start : GoType) (name : String)

/-- What is worth telling about a missing chain. -/
def NoChain.notice? : NoChain → Option Notice
  | .notApplicable => none
  | .throughNonStruct type => some (.throughNonStruct type)
  | .undeclared start name => some (.undeclared start name)

namespace TypeTable

/-- A type, and the types of the fields that the indices select from it one after the other. -/
def fieldPath (table : TypeTable) (current : GoType) : List Int → Except NoChain (List GoType)
  | [] => return [current]
  | i :: rest =>
    match table.unname current.deref with
    | .struct fields =>
      if 0 ≤ i then
        match fields[i.toNat]? with
        | some field => return current :: (← table.fieldPath field.type rest)
        | none => throw .notApplicable
      else throw .notApplicable
    | _ => throw (.throughNonStruct current)

/-- The first of the embedded types that is an interface with a method of this identity. -/
def supplier? (table : TypeTable) (id : String) (embedded : List GoType) : Option GoType :=
  embedded.find? fun t => table.isInterface t && table.declares t id

/-- The types after `current` on the way to the interface that declares the method itself. A name
of `visited` is not gone to again. -/
def descend (table : TypeTable) (id : String) (visited : List TypeName) (current : GoType) :
    Option (List GoType) :=
  match _h : table.view current with
  | (some owner, .interface _ embedded) =>
    if owner ∈ visited then none
    else if table.explicitlyDeclares current id then some []
    else
      match table.supplier? id embedded with
      | some next => (table.descend id (owner :: visited) next).map (next :: ·)
      | none => none
  | (none, .interface _ embedded) =>
    if table.explicitlyDeclares current id then some []
    else
      match _hs : table.supplier? id embedded with
      | some next => (table.descend id visited next).map (next :: ·)
      | none => none
  | _ => none
termination_by (table.unvisited visited, sizeOf current)
decreasing_by
  · rename_i hv _
    exact Prod.Lex.left _ _ (unvisited_cons_lt (mem_names_of_view (by rw [_h])) hv)
  · have := List.sizeOf_lt_of_mem (List.mem_of_find?_eq_some _hs)
    refine Prod.Lex.right _ ?_
    rw [eq_of_view_eq_none _h]
    simp only [GoType.interface.sizeOf_spec]
    omega

/-- The chain of a selection. -/
def chain (table : TypeTable) (selection : Selection) : Except NoChain (List GoType) :=
  if selection.obj.kind ≠ .func || selection.recv.kind = .invalid then throw .notApplicable
  else do
    let path ← table.fieldPath selection.recv selection.index.dropLast
    let start := path.getLast?.getD selection.recv
    if !table.isInterface start then throw .notApplicable
    match table.descend selection.obj.id [] start with
    | some rest => return path ++ rest
    | none => throw (.undeclared start selection.obj.name)

/-- The chain of a selection, if it has one. -/
def chain? (table : TypeTable) (selection : Selection) : Option (List GoType) :=
  (table.chain selection).toOption

end TypeTable

end UncheckedErrors
