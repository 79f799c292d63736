import UncheckedErrors.Proofs.Descents
import UncheckedErrors.Proofs.Places.Access
import UncheckedErrors.Proofs.Places.TypeTexts
import UncheckedErrors.Proofs.SymbolRules

/-!
# Exclusion rules by places

Whether a call is excluded, found out with lookups by number: the first letter of a name, what a
pointer points to, the fields that the index of a selection names, the last type on the way through
them, and the first argument of a call.

An index may be any list of integers, so `Places.fieldPath` has to check each of them against the
fields there are. `Places.excludes_eq` says that with this check no lookup fails, for any types, any
call and any rules.
-/

namespace UncheckedErrors

namespace Places

/-! ## Names -/

/-- Whether a name can be used outside its package. -/
def isExportedName (name : String) : Option Bool :=
  if name.isEmpty then some false else do
    let first ← name.toList[0]?
    return Text.isUpper first

/-- The identity of a method: an unexported name is qualified by its package. -/
def methodId (o : Object) : Option String := do
  return if ← isExportedName o.name then o.name else Object.qualified o.pkg o.name

/-- The name of an object, written in full. -/
def fullName (o : Object) : Option String := do
  match o.recv with
  | some recv => return "(" ++ (← text recv) ++ ")." ++ o.name
  | none => return Object.qualified o.pkg o.name

/-! ## Chains -/

/-- The type without one level of pointer. -/
def deref (t : GoType) : Option GoType :=
  if t.kind = .pointer then t.children[0]? else some t

/-- A type, and the types of the fields that the indices select from it one after the other. -/
def fieldPath (table : TypeTable) (current : GoType) :
    List Int → Option (Except NoChain (List GoType))
  | [] => some (.ok [current])
  | i :: rest => do
    let struct := table.unname (← deref current)
    if struct.kind ≠ .struct then return throw (.throughNonStruct current)
    if ¬(0 ≤ i ∧ i < struct.fields.length) then return throw .notApplicable
    let field ← entry struct.fields i
    return (← fieldPath table field.type rest).map (current :: ·)

/-- The methods of a list without those whose identity came before. -/
def distinctById (seen : List String) : List Object → Option (List Object)
  | [] => some []
  | m :: ms => do
    let id ← methodId m
    if id ∈ seen then distinctById seen ms else return m :: (← distinctById (id :: seen) ms)

/-- Whether one of the methods has this identity. -/
def hasId (id : String) (methods : List Object) : Option Bool := do
  return (← methods.mapM methodId).any (· == id)

/-- The first of the embedded types that is an interface with a method of this identity. -/
def supplier? (table : TypeTable) (id : String) : List GoType → Option (Option GoType)
  | [] => some none
  | t :: ts => do
    if table.isInterface t then
      let methods ← distinctById [] (table.methodsFrom [] [t])
      if ← hasId id methods then return some t
    supplier? table id ts

/-! ## Every place is found -/

@[simp] theorem isExportedName_eq (name : String) :
    isExportedName name = some (Object.isExportedName name) := by
  unfold isExportedName Object.isExportedName
  cases h : name.toList with
  | nil => rw [if_pos (by rw [String.isEmpty_iff, ← String.toList_eq_nil_iff, h])]
  | cons c cs =>
    rw [if_neg (by rw [String.isEmpty_iff, ← String.toList_eq_nil_iff, h]; simp)]
    rfl

@[simp] theorem methodId_eq (o : Object) : methodId o = some o.id := by
  rw [methodId, isExportedName_eq]
  rfl

@[simp] theorem fullName_eq (o : Object) : fullName o = some o.fullName := by
  unfold fullName Object.fullName
  cases o.recv with
  | none => rfl
  | some recv =>
    show (do return "(" ++ (← text recv) ++ ")." ++ o.name) = _
    rw [text_eq]
    rfl

@[simp] theorem deref_eq (t : GoType) : deref t = some t.deref := by
  cases t <;> rfl

theorem fieldPath_eq (table : TypeTable) (current : GoType) (index : List Int) :
    fieldPath table current index = some (table.fieldPath current index) := by
  induction index generalizing current with
  | nil => rfl
  | cons i rest ih =>
    rw [fieldPath, TypeTable.fieldPath, deref_eq]
    cases h : table.unname current.deref with
    | struct fields =>
      show (if (table.unname current.deref).kind ≠ .struct then _ else _) = _
      rw [h, if_neg (fun hkind => hkind rfl)]
      show (if ¬ (0 ≤ i ∧ i < fields.length) then _ else _) = _
      by_cases hnonneg : 0 ≤ i
      · by_cases hlt : i.toNat < fields.length
        · rw [if_neg (fun hout => hout ⟨hnonneg, by omega⟩), entry_of_nonneg hnonneg]
          simp only [GoType.fields, if_pos hnonneg, List.getElem?_eq_getElem hlt]
          show (fieldPath table fields[i.toNat].type rest >>= _) = _
          rw [ih]
          cases table.fieldPath fields[i.toNat].type rest <;> rfl
        · rw [if_pos (fun hin => hlt (by omega))]
          simp only [if_pos hnonneg, List.getElem?_eq_none (Nat.not_lt.mp hlt)]
          rfl
      · rw [if_pos (fun hin => hnonneg hin.1)]
        simp only [if_neg hnonneg]
        rfl
    | _ => simp [h, GoType.kind]

@[simp] theorem distinctById_eq (seen : List String) (ms : List Object) :
    distinctById seen ms = some (TypeTable.distinctById seen ms) := by
  induction ms generalizing seen with
  | nil => rfl
  | cons m ms ih =>
    simp only [distinctById, TypeTable.distinctById, methodId_eq, ih]
    simp
    split <;> rfl

@[simp] theorem hasId_eq (id : String) (methods : List Object) :
    hasId id methods = some (methods.any (·.id == id)) := by
  rw [hasId, mapM_eq_some_map fun m _ => methodId_eq m]
  exact congrArg some List.any_map

@[simp] theorem supplier?_eq (table : TypeTable) (id : String) (embedded : List GoType) :
    supplier? table id embedded = some (table.supplier? id embedded) := by
  induction embedded with
  | nil => rfl
  | cons t ts ih =>
    rw [supplier?, ih, TypeTable.supplier?, TypeTable.supplier?, List.find?_cons]
    simp only [distinctById_eq, hasId_eq, TypeTable.declares, TypeTable.allMethods]
    by_cases hinterface : table.isInterface t = true
    · rw [hinterface, if_pos rfl, Bool.true_and]
      show (if (TypeTable.distinctById [] (table.methodsFrom [] [t])).any (·.id == id) = true
        then _ else _) = _
      cases (TypeTable.distinctById [] (table.methodsFrom [] [t])).any (·.id == id) <;> rfl
    · rw [if_neg hinterface, Bool.not_eq_true _ |>.mp hinterface, Bool.false_and]

/-- The types after `current` on the way to the interface that declares the method itself. -/
def descend (table : TypeTable) (id : String) (visited : List TypeName) (current : GoType) :
    Option (Option (List GoType)) :=
  match _h : table.view current with
  | (some owner, .interface _ embedded) =>
    if owner ∈ visited then some none
    else
      match hasId id (table.explicitMethods current), supplier? table id embedded with
      | some true, _ => some (some [])
      | some false, some (some next) =>
        (descend table id (owner :: visited) next).map (·.map (next :: ·))
      | some false, some none => some none
      | _, _ => none
  | (none, .interface _ embedded) =>
    match hasId id (table.explicitMethods current), _hs : supplier? table id embedded with
    | some true, _ => some (some [])
    | some false, some (some next) => (descend table id visited next).map (·.map (next :: ·))
    | some false, some none => some none
    | _, _ => none
  | _ => some none
termination_by (table.unvisited visited, sizeOf current)
decreasing_by
  · have hv : owner ∉ visited := by assumption
    exact Prod.Lex.left _ _
      (TypeTable.unvisited_cons_lt (TypeTable.mem_names_of_view (by rw [_h])) hv)
  · rw [supplier?_eq, Option.some.injEq] at _hs
    have := List.sizeOf_lt_of_mem (List.mem_of_find?_eq_some _hs)
    refine Prod.Lex.right _ ?_
    rw [TypeTable.eq_of_view_eq_none _h]
    simp only [GoType.interface.sizeOf_spec]
    omega

theorem hasId_explicitMethods (table : TypeTable) (t : GoType) (id : String) :
    hasId id (table.explicitMethods t) = some (table.explicitlyDeclares t id) :=
  hasId_eq id _

theorem descend_eq (table : TypeTable) (id : String) (visited : List TypeName)
    (current : GoType) :
    descend table id visited current = some (table.descend id visited current) := by
  fun_induction TypeTable.descend table id visited current with
  | case1 visited current owner methods embedded h hv =>
    rw [descend, h]
    exact if_pos hv
  | case2 visited current owner methods embedded h hv hd =>
    rw [descend, h]
    simp only [if_neg hv, hasId_explicitMethods, hd]
  | case3 visited current owner methods embedded h hv hd next hs ih =>
    rw [descend, h]
    simp only [if_neg hv, hasId_explicitMethods, hd, supplier?_eq, hs, ih, Option.map_some]
  | case4 visited current owner methods embedded h hv hd hs =>
    rw [descend, h]
    simp only [if_neg hv, hasId_explicitMethods, hd, supplier?_eq, hs]
  | case5 visited current methods embedded h hd =>
    rw [descend, h]
    simp only [hasId_explicitMethods, hd]
  | case6 visited current methods embedded h hd next hs ih =>
    rw [descend, h]
    simp only [hasId_explicitMethods, hd]
    rw [supplier?_eq, hs]
    exact congrArg (Option.map fun types => types.map (next :: ·)) ih
  | case7 visited current methods embedded h hd hs =>
    rw [descend, h]
    simp only [hasId_explicitMethods, hd]
    rw [supplier?_eq, hs]
  | case8 visited current hnamed hunnamed =>
    rw [descend]
    split
    · rename_i h
      exact absurd h (hnamed _ _ _)
    · rename_i h
      exact absurd h (hunnamed _ _)
    · rfl

/-- The chain of a selection. -/
def chain (table : TypeTable) (selection : Selection) : Option (Except NoChain (List GoType)) :=
  if selection.obj.kind ≠ .func || selection.recv.kind = .invalid then
    some (throw .notApplicable)
  else do
    match ← fieldPath table selection.recv selection.index.dropLast with
    | .error reason => return .error reason
    | .ok path => do
      let start ← path.getLast?
      if !table.isInterface start then return throw .notApplicable
      match ← descend table (← methodId selection.obj) [] start with
      | some rest => return return path ++ rest
      | none => return throw (.undeclared start selection.obj.name)

/-- A path has the type that it starts from. -/
theorem fieldPath_ne_nil {table : TypeTable} {current : GoType} {index : List Int}
    {path : List GoType} (h : table.fieldPath current index = .ok path) : path ≠ [] := by
  cases index with
  | nil =>
    cases h
    exact List.cons_ne_nil _ _
  | cons i rest =>
    rw [TypeTable.fieldPath] at h
    split at h
    · split at h
      · split at h
        · rename_i field _
          cases hrest : table.fieldPath field.type rest with
          | error reason =>
            rw [hrest] at h
            cases h
          | ok types =>
            rw [hrest] at h
            cases h
            exact List.cons_ne_nil _ _
        · cases h
      · cases h
    · cases h

@[simp] theorem chain_eq (table : TypeTable) (selection : Selection) :
    chain table selection = some (table.chain selection) := by
  unfold chain TypeTable.chain
  split
  · rfl
  · rw [fieldPath_eq]
    cases h : table.fieldPath selection.recv selection.index.dropLast with
    | error reason => rfl
    | ok path =>
      obtain ⟨start, hstart⟩ := Option.ne_none_iff_exists'.mp
        (mt List.getLast?_eq_none_iff.mp (fieldPath_ne_nil h))
      have hbind (f : List GoType → Except NoChain (List GoType)) :
          (Except.ok path >>= f) = f path := rfl
      simp only [hbind, hstart, methodId_eq, descend_eq, Option.getD_some, Option.bind_eq_bind,
        Option.bind_some]
      cases table.isInterface start with
      | false => rfl
      | true => cases table.descend selection.obj.id [] start <;> rfl

/-! ## Excluded calls -/

/-- The chain of the selection that is called, if a selection is and it has one. -/
def calleeChain (types : TypeTable) (c : Call) : Option (Option (List GoType)) :=
  match c.fn with
  | .selector _ _ (some selection) _ => (chain types selection).map (·.toOption)
  | _ => some none

/-- The names that a call can be excluded by. -/
def namesOf (types : TypeTable) (c : Call) : Option (List String) :=
  match c.callee? with
  | none => some []
  | some fn =>
    if fn.name.isEmpty then some []
    else do
      match ← calleeChain types c with
      | some ts => ts.mapM fun t => return stripVendor ("(" ++ (← text t) ++ ")." ++ fn.name)
      | none => return [stripVendor (← fullName fn)]

@[simp] theorem calleeChain_eq (types : TypeTable) (c : Call) :
    calleeChain types c = some (c.chain? types) := by
  unfold calleeChain Call.chain?
  cases c.fn with
  | selector base sel selection type =>
    cases selection with
    | none => rfl
    | some selection =>
      dsimp only
      rw [chain_eq]
      rfl
  | _ => rfl

@[simp] theorem namesOf_eq (types : TypeTable) (c : Call) :
    namesOf types c = some (ExclusionIndex.namesOf types c) := by
  cases hfn : c.callee? with
  | none => rw [namesOf, ExclusionIndex.namesOf, hfn]
  | some fn =>
    by_cases hname : fn.name = ""
    · simp [namesOf, ExclusionIndex.namesOf, hfn, hname]
    · rw [ExclusionIndex.namesOf_eq hfn hname, namesOf, hfn]
      simp only [String.isEmpty_iff, if_neg hname, calleeChain_eq]
      cases c.chain? types with
      | some ts =>
        refine mapM_eq_some_map fun t _ => ?_
        rw [text_eq]
        rfl
      | none =>
        rw [fullName_eq]
        rfl

/-- The name that a rule may give an argument by. -/
def exprArgumentName (x : Expr) : Option (Option String) :=
  let byType := x.type?.mapM text
  match x with
  | .selector _ sel _ _ =>
    match sel.obj with
    | some obj => if obj.isStandardStream then some ("os." ++ obj.name) else byType
    | none => byType
  | _ => byType

/-- The name of the first argument of a call. -/
def argumentName (c : Call) : Option (Option String) :=
  if c.args.isEmpty then some none else do exprArgumentName (← c.args[0]?)

/-- Whether a call is excluded. -/
def excludes (index : ExclusionIndex) (types : TypeTable) (c : Call) : Option Bool :=
  match c.callee?, c.calleeIdent? with
  | some fn, some id =>
    if index.matchesPattern fn id.name then some true
    else do
      let names ← namesOf types c
      if names.isEmpty then return false
      let argument ← argumentName c
      return ExclusionIndex.matchesSymbol index.symbols names argument ||
        ExclusionIndex.matchesSymbol index.defaults names argument
  | _, _ => some false

theorem exprArgumentName_eq (x : Expr) : exprArgumentName x = some x.argumentName? := by
  have htype : x.type?.mapM text = some (x.type?.map (·.text)) := by
    cases x.type? with
    | none => rfl
    | some t => exact congrArg (Option.map some) (text_eq t)
  unfold exprArgumentName Expr.argumentName?
  rw [htype]
  cases x with
  | selector x sel selection type =>
    dsimp only
    cases sel.obj with
    | none => rfl
    | some obj => cases h : obj.isStandardStream <;> simp [h]
  | _ => rfl

@[simp] theorem argumentName_eq (c : Call) : argumentName c = some c.argumentName? := by
  unfold argumentName Call.argumentName?
  cases c.args with
  | nil => rfl
  | cons x xs => exact exprArgumentName_eq x

/-- Whether a call is excluded is found out for every call. -/
@[simp] theorem excludes_eq (index : ExclusionIndex) (types : TypeTable) (c : Call) :
    excludes index types c = some (index.excludes types c) := by
  unfold excludes ExclusionIndex.excludes
  cases c.callee? with
  | none => rfl
  | some fn =>
    cases c.calleeIdent? with
    | none => rfl
    | some id =>
      cases hmatch : index.matchesPattern fn id.name with
      | true => simp [hmatch]
      | false =>
        simp only [hmatch, namesOf_eq, argumentName_eq]
        cases ExclusionIndex.namesOf types c <;> rfl

end Places

end UncheckedErrors
