import UncheckedErrors.Proofs.Places.Access

/-!
# Types and objects by places

The readers of types and objects, written with lookups by number: a form is checked for its length
once, or for its least length first and for more behind its tag, and then its parts are looked up.

The tag decides how many places a form needs, and each case of `Places.typeForm_eq` and
`Places.objectForm_eq` is that decision: the check in front of the lookups gives the operands
that the lookups find. `Places.typesWithin_eq` carries this through the nesting of types.
-/

namespace UncheckedErrors

namespace Places

/-- Looks up the places of types that take some number of steps. -/
abbrev TypeLookup := Nat → Datum → Lookup ShapeError GoType

/-- A member of a struct. -/
def field (type : TypeLookup) (d : Datum) : Lookup ShapeError Field := do
  expect 3 d
  let tag ← head d
  unless tag == "field" || tag == "embedded" do
    throw (.unknownStructMember tag)
  let name ← (← place d 1).asString
  return .mk name (← type 2 (← place d 2)) (tag == "embedded")

/-- A member of an interface. -/
def interfaceMember (type : TypeLookup) (d : Datum) : Lookup ShapeError InterfaceMember := do
  expect 2 d
  match ← head d with
  | "method" => do
    expect 3 d
    let name ← (← place d 1).asString
    return .method (.mk name (← type 2 (← place d 2)))
  | "embed" => return .embed (← type 2 (← place d 1))
  | tag => throw (.unknownInterfaceMember tag)

/-- A form of a type. -/
def typeForm (type : TypeLookup) (tag : String) (d : Datum) : Lookup ShapeError GoType := do
  match tag with
  | "basic" => do
    expect 2 d
    return .basic (← (← place d 1).asString)
  | "named" => do
    expect 3 d
    return .named (← found (readTypeName (← place d 1) (← place d 2)))
  | "pointer" => do
    expect 2 d
    return .pointer (← type 2 (← place d 1))
  | "slice" => do
    expect 2 d
    return .slice (← type 2 (← place d 1))
  | "array" => do
    expect 3 d
    let elem ← type 2 (← place d 2)
    return .array (← (← place d 1).asInt) elem
  | "map" => do
    expect 3 d
    let key ← type 2 (← place d 1)
    return .map key (← type 2 (← place d 2))
  | "chan" => do
    expect 2 d
    return .chan (← type 2 (← place d 1))
  | "tuple" => return .tuple (← (← placesFrom d 1).mapM (type 3))
  | "invalid" => return .invalid
  | "struct" => return .struct (← (← placesFrom d 1).mapM (field type))
  | "interface" => do
    let members ← (← placesFrom d 1).mapM (interfaceMember type)
    return .interface (members.filterMap (·.method?)) (members.filterMap (·.embed?))
  | "signature" => do
    let options ← optionsOf ["params", "results", "variadic"] (← placesFrom d 1)
    let params ← (options.getAll "params").mapM (type 3)
    let results ← (options.getAll "results").mapM (type 3)
    return .signature params results (options.get? "variadic").isSome
  | tag => throw (.unknownForm .type tag)

/-- A type that is looked up with `steps` steps at hand. -/
def typeWithin : Nat → Nat → Datum → Lookup ShapeError GoType
  | 0, _, _ => throw .tooDeep
  | depth + 1, steps, d => Lookup.within steps do
    expect 1 d
    typeForm (fun cost => typeWithin depth (steps - cost)) (← head d) d

/-- Looks up types with `steps` steps at hand. -/
def typesWithin (steps : Nat) : TypeLookup := fun cost => typeWithin steps (steps - cost)

/-- A type that may be absent. -/
def typeOption (type : TypeLookup) (options : Options) (key : String) :
    Lookup ShapeError (Option GoType) := do
  (← single? options key).mapM (type 3)

/-- A form of an object. -/
def objectForm (type : TypeLookup) (tag : String) (d : Datum) : Lookup ShapeError Object := do
  match tag with
  | "func" => do
    expect 3 d
    let recv ← (← placeIfAny d 3).mapM (type 4)
    let name ← (← place d 2).asString
    return .func (← (← place d 1).asPackage) name recv none
  | "builtin" => do
    expect 2 d
    return .builtin (← (← place d 1).asString)
  | "var" => do
    expect 3 d
    let type ← (← placeIfAny d 3).mapM (type 4)
    let name ← (← place d 2).asString
    return .var (← (← place d 1).asPackage) name type
  | "const" => do
    expect 3 d
    let name ← (← place d 2).asString
    return .const (← (← place d 1).asPackage) name
  | "typename" => do
    expect 3 d
    let name ← (← place d 2).asString
    return .typeName (← (← place d 1).asPackage) name
  | "pkgname" => do
    expect 2 d
    return .pkgName (← (← place d 1).asString)
  | "nilvalue" => return .nil
  | tag => throw (.unknownForm .object tag)

/-- An object. -/
def object (type : TypeLookup) (d : Datum) : Lookup ShapeError Object := do
  expect 1 d
  objectForm type (← head d) d

/-- The definition of a named type. -/
def typedef (d : Datum) : Lookup ShapeError Unit := do
  let type := typesWithin stepLimit
  expectTag "typedef" 4 d
  let name ← found (readTypeName (← place d 1) (← place d 2))
  if name = .error then throw .errorRedefined
  if ((← get).definition? name).isSome then throw (.duplicateTypedef name.text)
  let t ← type 2 (← place d 3)
  modify (·.define name t)
  for methods in ← placesFrom d 4 do
    expectTag "methods" 0 methods
    for m in ← placesFrom methods 1 do
      let _ ← object type m

/-! ## Every place is found -/

section

variable (type : TypeReader)

@[simp] theorem field_eq :
    field (fun cost d => found (type cost d)) = fun d => found (readField type d) := by
  funext d
  refine bind_ofDatum (by decide) fun form hd hlength => ?_
  obtain ⟨name, t, rest, hargs⟩ := exists_operands2 hlength
  simp [hd, hargs, Form.operands2]

@[simp] theorem interfaceMember_eq :
    interfaceMember (fun cost d => found (type cost d)) =
      fun d => found (readInterfaceMember type d) := by
  funext d
  refine bind_ofDatum (by decide) ?_
  rintro ⟨tag, args⟩ rfl hlength
  dsimp only
  split
  · refine bind_operands2 ?_
    rintro name t rest rfl
    simp
  · obtain ⟨t, rest, rfl⟩ := exists_operand hlength
    simp [Form.operand]
  · simp

theorem typeForm_eq (form : Form) :
    typeForm (fun cost d => found (type cost d)) form.tag form.datum =
      found (readTypeForm type form) := by
  obtain ⟨tag, args⟩ := form
  unfold typeForm readTypeForm
  dsimp only
  split
  · refine bind_operand ?_
    rintro name rest rfl
    simp
  · refine bind_operands2 ?_
    rintro pkg name rest rfl
    simp
  · refine bind_operand ?_
    rintro t rest rfl
    simp
  · refine bind_operand ?_
    rintro t rest rfl
    simp
  · refine bind_operands2 ?_
    rintro length t rest rfl
    simp
  · refine bind_operands2 ?_
    rintro key value rest rfl
    simp
  · refine bind_operand ?_
    rintro t rest rfl
    simp
  · simp
  · simp
  · simp
  · simp
  · simp
  · simp

theorem objectForm_eq (form : Form) :
    objectForm (fun cost d => found (type cost d)) form.tag form.datum =
      found (readObjectForm type form) := by
  obtain ⟨tag, args⟩ := form
  unfold objectForm readObjectForm
  dsimp only
  split
  · refine bind_operands2 ?_
    rintro pkg name rest rfl
    simp [List.head?_eq_getElem?]
  · refine bind_operand ?_
    rintro name rest rfl
    simp
  · refine bind_operands2 ?_
    rintro pkg name rest rfl
    simp [List.head?_eq_getElem?]
  · refine bind_operands2 ?_
    rintro pkg name rest rfl
    simp
  · refine bind_operands2 ?_
    rintro pkg name rest rfl
    simp
  · refine bind_operand ?_
    rintro path rest rfl
    simp
  · simp
  · simp

@[simp] theorem object_eq :
    object (fun cost d => found (type cost d)) = fun d => found (readObject type d) := by
  funext d
  refine bind_ofDatum (by decide) ?_
  rintro form rfl -
  exact objectForm_eq type form

@[simp] theorem typeOption_eq (options : Options) (key : String) :
    typeOption (fun cost d => found (type cost d)) options key =
      found (readTypeOption type options key) := by
  simp [typeOption, readTypeOption]

end

theorem typeWithin_eq (depth steps : Nat) (d : Datum) :
    typeWithin depth steps d = found (readTypeWithin depth steps d) := by
  induction depth generalizing steps d with
  | zero => rfl
  | succ depth ih =>
    have hinner : (fun cost => typeWithin depth (steps - cost)) =
        fun cost d => found (readTypeWithin depth (steps - cost) d) :=
      funext fun cost => funext (ih (steps - cost))
    rw [typeWithin, readTypeWithin, ← found_within, hinner]
    congr 1
    refine bind_ofDatum (by decide) ?_
    rintro form rfl -
    exact typeForm_eq _ form

@[simp] theorem typesWithin_eq (steps : Nat) :
    typesWithin steps = fun cost d => found (UncheckedErrors.typesWithin steps cost d) := by
  funext cost d
  exact typeWithin_eq _ _ _

theorem typedef_eq (form : Form) (htag : form.tag = "typedef") :
    typedef form.datum = found (readTypedef form) := by
  unfold typedef readTypedef
  dsimp only
  rw [expectTag_datum, if_neg (not_not.mpr htag), ← expect_datum]
  refine bind_operands3 ?_
  intro pkg name definition rest hargs
  simp [hargs]

end Places

end UncheckedErrors
