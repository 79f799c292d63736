import UncheckedErrors.Dump.Form
import UncheckedErrors.GoType.Table
import UncheckedErrors.Object

/-!
# Reading types and objects

Readers for the forms of types, objects and type definitions. A reader carries the table of named
types: a mention of a name enters it, a definition completes it.

Of several mistakes in a form the first one met is reported; the order in which a reader looks at
the parts of a form is part of its meaning.

Reading is bounded: a form is read by procedures that call one another, and a stack has room for so
many open calls only. So a reader has a number of steps at hand, the calls that are still free. Each
part of a form that is read by itself takes two of them, and one more for each list or option that
it stands in.
-/

namespace UncheckedErrors

/-- A computation that reads forms, with the table of named types at hand. -/
abbrev Reader := StateT TypeTable Shape

/-- The steps at hand when a program is read: a stack has room for a thousand open calls, and ten of
them are those that lead to the reader of a program. -/
def stepLimit : Nat := 990

/-- The steps that a form has to find free: as many calls as it takes at most to read a form without
parts, which is to enter a name that it mentions first. A form that gets along with fewer is given
as many. -/
def leafSteps : Nat := 4

/-- Reads a form with `steps` steps at hand. -/
def Reader.within {α : Type} (steps : Nat) (reader : Reader α) : Reader α := fun table =>
  if steps < leafSteps then .error .tooDeep else (reader table).mapError (·.within steps)

/-- Reads types that take some number of steps. -/
abbrev TypeReader := Nat → Datum → Reader GoType

/-- The names `pkg` and `name` of a type, which is thereby mentioned. -/
def readTypeName (pkg name : Datum) : Reader TypeName := do
  let pkg ← pkg.asPackage
  let name ← name.asString
  modify (·.mention ⟨pkg, name⟩)
  return ⟨pkg, name⟩

/-- A member of a struct. -/
def readField (type : TypeReader) (d : Datum) : Reader Field := do
  let form ← Form.ofDatum 3 d
  unless form.tag == "field" || form.tag == "embedded" do
    throw (.unknownStructMember form.tag)
  let (name, t, _) ← form.operands2
  let name ← name.asString
  return .mk name (← type 2 t) (form.tag == "embedded")

/-- A member of an interface: a method, or something embedded. -/
inductive InterfaceMember where
  | method (m : Method)
  | embed (t : GoType)

/-- The method that a member is. -/
def InterfaceMember.method? : InterfaceMember → Option Method
  | .method m => some m
  | .embed _ => none

/-- What a member embeds. -/
def InterfaceMember.embed? : InterfaceMember → Option GoType
  | .method _ => none
  | .embed t => some t

/-- A member of an interface. -/
def readInterfaceMember (type : TypeReader) (d : Datum) : Reader InterfaceMember := do
  let form ← Form.ofDatum 2 d
  match form.tag with
  | "method" => do
    let (name, t, _) ← form.operands2
    let name ← name.asString
    return .method (.mk name (← type 2 t))
  | "embed" => do
    let (t, _) ← form.operand
    return .embed (← type 2 t)
  | tag => throw (.unknownInterfaceMember tag)

/-- A form of a type whose parts are read by `type`. -/
def readTypeForm (type : TypeReader) (form : Form) : Reader GoType := do
  match form.tag with
  | "basic" => do
    let (name, _) ← form.operand
    return .basic (← name.asString)
  | "named" => do
    let (pkg, name, _) ← form.operands2
    return .named (← readTypeName pkg name)
  | "pointer" => do
    let (t, _) ← form.operand
    return .pointer (← type 2 t)
  | "slice" => do
    let (t, _) ← form.operand
    return .slice (← type 2 t)
  | "array" => do
    let (length, t, _) ← form.operands2
    let elem ← type 2 t
    return .array (← length.asInt) elem
  | "map" => do
    let (key, value, _) ← form.operands2
    let key ← type 2 key
    return .map key (← type 2 value)
  | "chan" => do
    let (t, _) ← form.operand
    return .chan (← type 2 t)
  | "tuple" => return .tuple (← form.args.mapM (type 3))
  | "invalid" => return .invalid
  | "struct" => return .struct (← form.args.mapM (readField type))
  | "interface" => do
    let members ← form.args.mapM (readInterfaceMember type)
    return .interface (members.filterMap (·.method?)) (members.filterMap (·.embed?))
  | "signature" => do
    let options ← optionsOf ["params", "results", "variadic"] form.args
    let params ← (options.getAll "params").mapM (type 3)
    let results ← (options.getAll "results").mapM (type 3)
    return .signature params results (options.get? "variadic").isSome
  | tag => throw (.unknownForm .type tag)

/-- A type that is read with `steps` steps at hand. The first argument bounds the depth of the
forms; a form takes a step at least, so the number of steps will do for it. -/
def readTypeWithin : Nat → Nat → Datum → Reader GoType
  | 0, _, _ => throw .tooDeep
  | depth + 1, steps, d => Reader.within steps do
    readTypeForm (fun cost => readTypeWithin depth (steps - cost)) (← Form.ofDatum 1 d)

/-- Reads types with `steps` steps at hand. -/
def typesWithin (steps : Nat) : TypeReader := fun cost => readTypeWithin steps (steps - cost)

/-- A type that may be absent. -/
def readTypeOption (type : TypeReader) (options : Options) (key : String) :
    Reader (Option GoType) := do
  (← options.single? key).mapM (type 3)

/-- A form of an object. -/
def readObjectForm (type : TypeReader) (form : Form) : Reader Object := do
  match form.tag with
  | "func" => do
    let (pkg, name, rest) ← form.operands2
    let recv ← rest.head?.mapM (type 4)
    let name ← name.asString
    return .func (← pkg.asPackage) name recv none
  | "builtin" => do
    let (name, _) ← form.operand
    return .builtin (← name.asString)
  | "var" => do
    let (pkg, name, rest) ← form.operands2
    let type ← rest.head?.mapM (type 4)
    let name ← name.asString
    return .var (← pkg.asPackage) name type
  | "const" => do
    let (pkg, name, _) ← form.operands2
    let name ← name.asString
    return .const (← pkg.asPackage) name
  | "typename" => do
    let (pkg, name, _) ← form.operands2
    let name ← name.asString
    return .typeName (← pkg.asPackage) name
  | "pkgname" => do
    let (path, _) ← form.operand
    return .pkgName (← path.asString)
  | "nilvalue" => return .nil
  | tag => throw (.unknownForm .object tag)

/-- An object whose types are read by `type`. -/
def readObject (type : TypeReader) (d : Datum) : Reader Object := do
  readObjectForm type (← Form.ofDatum 1 d)

/-- The definition of a named type. Its concrete methods are read and not kept. -/
def readTypedef (form : Form) : Reader Unit := do
  let type := typesWithin stepLimit
  let (pkg, name, definition, rest) ← form.operands3
  let name ← readTypeName pkg name
  if name = .error then throw .errorRedefined
  if ((← get).definition? name).isSome then throw (.duplicateTypedef name.text)
  let t ← type 2 definition
  modify (·.define name t)
  for d in rest do
    let methods ← Form.tagged "methods" 0 d
    for m in methods.args do
      let _ ← readObject type m

end UncheckedErrors
