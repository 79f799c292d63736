import Mathlib.Data.Set.Insert
import UncheckedErrors.Tree.Walk

/-!
# Names in types and trees

A type is built of types (`GoType.parts`), and the types of a tree are those at its nodes
(`Node.types`). `GoType.names` and `Node.names` are the named types among all of these;
`Node.names_eq` takes a tree apart at its root.
-/

namespace UncheckedErrors

/-! ## Names in types -/

namespace GoType

mutual

/-- A type and all types that it is built of. -/
def parts : GoType → List GoType
  | .basic name => [.basic name]
  | .named n => [.named n]
  | .pointer t => .pointer t :: t.parts
  | .slice t => .slice t :: t.parts
  | .array length t => .array length t :: t.parts
  | .map key value => .map key value :: (key.parts ++ value.parts)
  | .chan t => .chan t :: t.parts
  | .tuple ts => .tuple ts :: partsOfAll ts
  | .struct fields => .struct fields :: partsOfFields fields
  | .interface methods embedded =>
    .interface methods embedded :: (partsOfMethods methods ++ partsOfAll embedded)
  | .signature params results variadic =>
    .signature params results variadic :: (partsOfAll params ++ partsOfAll results)
  | .invalid => [.invalid]

/-- The types that a list of types is built of. -/
def partsOfAll : List GoType → List GoType
  | [] => []
  | t :: ts => t.parts ++ partsOfAll ts

/-- The types that the fields of a struct are built of. -/
def partsOfFields : List Field → List GoType
  | [] => []
  | .mk _ t _ :: fields => t.parts ++ partsOfFields fields

/-- The types that the methods of an interface are built of. -/
def partsOfMethods : List Method → List GoType
  | [] => []
  | .mk _ t :: methods => t.parts ++ partsOfMethods methods

end

theorem partsOfAll_eq (ts : List GoType) : partsOfAll ts = ts.flatMap parts := by
  induction ts with
  | nil => rfl
  | cons t ts ih => rw [partsOfAll, ih, List.flatMap_cons]

theorem partsOfFields_eq (fields : List Field) :
    partsOfFields fields = fields.flatMap (·.type.parts) := by
  induction fields with
  | nil => rfl
  | cons field fields ih =>
    obtain ⟨name, t, embedded⟩ := field
    rw [partsOfFields, ih, List.flatMap_cons]
    rfl

theorem partsOfMethods_eq (methods : List Method) :
    partsOfMethods methods = methods.flatMap (·.type.parts) := by
  induction methods with
  | nil => rfl
  | cons method methods ih =>
    obtain ⟨name, t⟩ := method
    rw [partsOfMethods, ih, List.flatMap_cons]
    rfl

/-- The names of the named types that a type is built of. -/
def names (t : GoType) : Set TypeName := {n | .named n ∈ t.parts}

/-- A type that is no name has the names of what it is built of. -/
theorem names_eq {t : GoType} {ts : List GoType} (h : t.parts = t :: ts)
    (hkind : t.kind ≠ .named) : t.names = {n | .named n ∈ ts} := by
  ext n
  show named n ∈ t.parts ↔ named n ∈ ts
  rw [h, List.mem_cons, or_iff_right]
  rintro rfl
  exact hkind rfl

@[simp] theorem names_basic (name : String) : (basic name).names = ∅ :=
  (names_eq rfl (by nofun)).trans (by simp)

@[simp] theorem names_named (n : TypeName) : (named n).names = {n} := by
  ext m
  show named m ∈ [named n] ↔ m ∈ {n}
  simp

@[simp] theorem names_pointer (t : GoType) : (pointer t).names = t.names := names_eq rfl (by nofun)

@[simp] theorem names_slice (t : GoType) : (slice t).names = t.names := names_eq rfl (by nofun)

@[simp] theorem names_array (length : Int) (t : GoType) : (array length t).names = t.names :=
  names_eq rfl (by nofun)

@[simp] theorem names_map (key value : GoType) :
    (map key value).names = key.names ∪ value.names :=
  (names_eq rfl (by nofun)).trans (Set.ext fun _ => List.mem_append)

@[simp] theorem names_chan (t : GoType) : (chan t).names = t.names := names_eq rfl (by nofun)

@[simp] theorem names_invalid : invalid.names = ∅ := (names_eq rfl (by nofun)).trans (by simp)

end GoType

/-- The names of some things together. -/
def namesIn {α : Type} (names : α → Set TypeName) (as : List α) : Set TypeName :=
  {n | ∃ a ∈ as, n ∈ names a}

section

variable {α : Type} (names : α → Set TypeName)

@[simp] theorem namesIn_nil : namesIn names [] = ∅ := by
  simp [namesIn]

@[simp] theorem namesIn_cons (a : α) (as : List α) :
    namesIn names (a :: as) = names a ∪ namesIn names as := by
  ext n
  simp [namesIn]

@[simp] theorem namesIn_append (as bs : List α) :
    namesIn names (as ++ bs) = namesIn names as ∪ namesIn names bs := by
  ext n
  simp [namesIn, or_and_right, exists_or]

@[simp] theorem namesIn_map {β : Type} (f : β → α) (bs : List β) :
    namesIn names (bs.map f) = namesIn (fun b => names (f b)) bs := by
  ext n
  simp [namesIn]

@[simp] theorem namesIn_flatMap {β : Type} (f : β → List α) (bs : List β) :
    namesIn names (bs.flatMap f) = namesIn (fun b => namesIn names (f b)) bs := by
  ext n
  constructor
  · rintro ⟨a, ha, hn⟩
    obtain ⟨b, hb, ha⟩ := List.mem_flatMap.mp ha
    exact ⟨b, hb, a, ha, hn⟩
  · rintro ⟨b, hb, a, ha, hn⟩
    exact ⟨a, List.mem_flatMap.mpr ⟨b, hb, ha⟩, hn⟩

end

namespace GoType

@[simp] theorem names_tuple (ts : List GoType) : (tuple ts).names = namesIn names ts := by
  rw [names_eq rfl (by nofun), partsOfAll_eq]
  exact Set.ext fun _ => List.mem_flatMap

@[simp] theorem names_struct (fields : List Field) :
    (struct fields).names = namesIn (·.type.names) fields := by
  rw [names_eq rfl (by nofun), partsOfFields_eq]
  exact Set.ext fun _ => List.mem_flatMap

@[simp] theorem names_interface (methods : List Method) (embedded : List GoType) :
    (interface methods embedded).names =
      namesIn (·.type.names) methods ∪ namesIn names embedded := by
  rw [names_eq rfl (by nofun), partsOfMethods_eq, partsOfAll_eq]
  exact Set.ext fun _ => List.mem_append.trans (or_congr List.mem_flatMap List.mem_flatMap)

@[simp] theorem names_signature (params results : List GoType) (variadic : Bool) :
    (signature params results variadic).names = namesIn names params ∪ namesIn names results := by
  rw [names_eq rfl (by nofun), partsOfAll_eq, partsOfAll_eq]
  exact Set.ext fun _ => List.mem_append.trans (or_congr List.mem_flatMap List.mem_flatMap)

end GoType

/-! ## Names in trees -/

/-- The types that an object is described by. -/
def Object.types : Object → List GoType
  | .func _ _ recv type => recv.toList ++ type.toList
  | .var _ _ type => type.toList
  | .builtin _ | .const _ _ | .typeName _ _ | .pkgName _ | .nil => []

/-- The types at an identifier. -/
def Ident.types (id : Ident) : List GoType := id.obj.toList.flatMap Object.types ++ id.type.toList

/-- The types in a selection. -/
def Selection.types (selection : Selection) : List GoType :=
  selection.recv :: selection.obj.types

/-- The types at an expression itself. -/
@[simp] def Expr.types : Expr → List GoType
  | .ident id => id.types
  | .selector _ _ selection type => selection.toList.flatMap Selection.types ++ type.toList
  | .typeAssert _ _ asserted type => asserted.toList ++ type.toList
  | .typeExpr type _ => [type]
  | .basicLit _ _ _ type | .compositeLit _ _ type | .funcLit _ _ type | .paren _ _ type
  | .index _ _ _ type | .slice _ _ _ _ _ type | .star _ _ type | .unary _ _ _ type
  | .binary _ _ _ _ type => type.toList
  | .call c => c.type.toList
  | .keyValue _ _ => []

namespace Node

/-- The types at a node itself. -/
@[simp] def types : Node → List GoType
  | .expr x => x.types
  | .valueSpec spec => spec.type.toList
  | .funcDecl decl => decl.recv.toList
  | .stmt _ | .genDecl _ | .file _ => []

/-- The names of the named types that the types of a tree are built of. -/
def names (n : Node) : Set TypeName :=
  {name | ∃ m ∈ n.preorder, name ∈ namesIn GoType.names m.types}

theorem names_eq (n : Node) :
    n.names = namesIn GoType.names n.types ∪ namesIn names n.children := by
  ext name
  constructor
  · rintro ⟨m, hm, hname⟩
    rw [preorder_eq, List.mem_cons, List.mem_flatMap] at hm
    rcases hm with rfl | ⟨c, hc, hm⟩
    · exact .inl hname
    · exact .inr ⟨c, hc, m, hm, hname⟩
  · rintro (hname | ⟨c, hc, m, hm, hname⟩)
    · exact ⟨n, mem_preorder_self n, hname⟩
    · exact ⟨m, mem_preorder_of_child hc hm, hname⟩

/-- A set covers the names of a tree if it covers those at the root and those of the trees below. -/
theorem names_subset {n : Node} {s : Set TypeName}
    (h : namesIn GoType.names n.types ∪ namesIn names n.children ⊆ s) : n.names ⊆ s :=
  (names_eq n).trans_subset h

@[simp] theorem names_ident (id : Ident) :
    (ident id).names = namesIn GoType.names id.types := by
  rw [names_eq]
  show _ ∪ namesIn names [] = _
  simp [ident, types, Expr.types]

end Node

end UncheckedErrors
