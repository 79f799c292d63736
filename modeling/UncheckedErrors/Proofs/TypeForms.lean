import UncheckedErrors.Proofs.Effort

/-!
# The forms of types and objects

`GoType.form` and `Object.form` write types and objects as the grammar of dumps has them, and
`GoType.effort` and `Object.effort` say what reading them takes. `GoType.readsBack` and
`readObject_form` are the round trip: a written type or object is read back as it is.

A package is written by its path, and none by the empty path, so a type or object in a package with
an empty path has no form of its own (`Written`).
-/

namespace UncheckedErrors

/-! ## Options -/

/-- The options that a form may have, in order, with what they hold if they are there. -/
abbrev OptionalParts := List (String × Option (List Datum))

namespace OptionalParts

/-- The options that are there. -/
def present (parts : OptionalParts) : Options :=
  parts.filterMap fun part => part.2.map (part.1, ·)

/-- The forms of the options that are there. -/
def forms (parts : OptionalParts) : List Datum :=
  parts.present.map fun option => .list (.symbol option.1 :: option.2)

theorem keys_present (parts : OptionalParts) :
    (parts.present.map (·.1)).Sublist (parts.map (·.1)) := by
  induction parts with
  | nil => exact .slnil
  | cons part parts ih =>
    obtain ⟨key, args⟩ := part
    cases args with
    | none => exact ih.cons key
    | some args => exact ih.cons_cons key

/-- Looking up an option among those that are there. -/
theorem get?_present {parts : OptionalParts} (h : (parts.map (·.1)).Nodup) (key : String) :
    parts.present.get? key = (parts.lookup key).join := by
  induction parts with
  | nil => rfl
  | cons part parts ih =>
    obtain ⟨name, args⟩ := part
    obtain ⟨hname, hparts⟩ := List.nodup_cons.mp h
    rw [List.lookup_cons]
    by_cases hkey : key = name
    · subst hkey
      have habsent : Options.get? (present parts) key = none := by
        rw [← Option.not_isSome_iff_eq_none, Options.get?_isSome]
        exact fun hmem => hname ((keys_present parts).subset hmem)
      cases args with
      | none => simpa [present] using habsent
      | some args => simp [present, Options.get?]
    · rw [beq_false_of_ne hkey]
      cases args with
      | none => exact ih hparts
      | some args =>
        have hget : Options.get? ((name, args) :: present parts) key =
            Options.get? (present parts) key := by
          simp [Options.get?, Ne.symm hkey]
        exact hget.trans (ih hparts)

theorem optionKey?_form {keys : List String} {parts : OptionalParts}
    (h : ∀ key ∈ parts.map (·.1), key ∈ keys) {option : String × List Datum}
    (hoption : option ∈ parts.present) :
    optionKey? keys (.list (.symbol option.1 :: option.2)) = some option :=
  optionKey?_eq_some.mpr
    ⟨rfl, h _ ((keys_present parts).subset (List.mem_map_of_mem hoption))⟩

theorem filter_forms {keys : List String} {parts : OptionalParts}
    (h : ∀ key ∈ parts.map (·.1), key ∈ keys) :
    parts.forms.filter (fun d => (optionKey? keys d).isNone) = [] := by
  refine List.filter_eq_nil_iff.mpr fun d hd => ?_
  obtain ⟨option, hoption, rfl⟩ := List.mem_map.mp hd
  simp [optionKey?_form h hoption]

theorem filterMap_forms {keys : List String} {parts : OptionalParts}
    (h : ∀ key ∈ parts.map (·.1), key ∈ keys) :
    parts.forms.filterMap (optionKey? keys) = parts.present := by
  rw [forms, List.filterMap_map]
  exact (List.filterMap_congr fun _ => optionKey?_form h).trans List.filterMap_some

end OptionalParts

section

variable {keys : List String} {items : List Datum} {parts : OptionalParts}

theorem filter_others (h : ∀ d ∈ items, optionKey? keys d = none) :
    items.filter (fun d => (optionKey? keys d).isNone) = items :=
  List.filter_eq_self.mpr fun d hd => by simp [h d hd]

/-- Options behind other elements are separated from them. -/
theorem splitOptions_append_forms (hitems : ∀ d ∈ items, optionKey? keys d = none)
    (hparts : (parts.map (·.1)).Nodup) (hkeys : ∀ key ∈ parts.map (·.1), key ∈ keys) :
    splitOptions keys (items ++ parts.forms) = .ok (items, parts.present) := by
  refine splitOptions_eq_ok.mpr ⟨?_, ?_, hparts.sublist (OptionalParts.keys_present parts)⟩
  · rw [List.filter_append, filter_others hitems, OptionalParts.filter_forms hkeys,
      List.append_nil]
  · rw [List.filterMap_append, List.filterMap_eq_nil_iff.mpr hitems, List.nil_append,
      OptionalParts.filterMap_forms hkeys]

/-- Options in front of other elements are separated from them. -/
theorem splitOptions_forms_append (hitems : ∀ d ∈ items, optionKey? keys d = none)
    (hparts : (parts.map (·.1)).Nodup) (hkeys : ∀ key ∈ parts.map (·.1), key ∈ keys) :
    splitOptions keys (parts.forms ++ items) = .ok (items, parts.present) := by
  refine splitOptions_eq_ok.mpr ⟨?_, ?_, hparts.sublist (OptionalParts.keys_present parts)⟩
  · rw [List.filter_append, filter_others hitems, OptionalParts.filter_forms hkeys,
      List.nil_append]
  · rw [List.filterMap_append, List.filterMap_eq_nil_iff.mpr hitems, List.append_nil,
      OptionalParts.filterMap_forms hkeys]

theorem optionsOf_forms (hparts : (parts.map (·.1)).Nodup)
    (hkeys : ∀ key ∈ parts.map (·.1), key ∈ keys) :
    optionsOf keys parts.forms = .ok parts.present :=
  optionsOf_eq_ok.mpr ⟨[], splitOptions_append_forms (List.forall_mem_nil _) hparts hkeys⟩

end

/-- The one element that an option may hold. -/
def onlyElement? (key : String) : Option (List Datum) → Shape (Option Datum)
  | none => .ok none
  | some [d] => .ok (some d)
  | some _ => .error (.notSingle key)

@[simp] theorem onlyElement?_none (key : String) : onlyElement? key none = .ok none := rfl

@[simp] theorem onlyElement?_some (key : String) (d : Datum) :
    onlyElement? key (some [d]) = .ok (some d) := rfl

@[simp] theorem onlyElement?_map {α : Type} (key : String) (form : α → Datum) (a : Option α) :
    onlyElement? key (a.map fun a => [form a]) = .ok (a.map form) := by
  cases a <;> rfl

theorem single?_present {parts : OptionalParts} (h : (parts.map (·.1)).Nodup) (key : String) :
    parts.present.single? key = onlyElement? key (parts.lookup key).join := by
  unfold Options.single?
  rw [OptionalParts.get?_present h]
  match (parts.lookup key).join with
  | none | some [] | some [_] | some (_ :: _ :: _) => rfl

/-! ## Types -/

@[simp] theorem asString_string (text : String) : (Datum.string text).asString = .ok text := rfl

@[simp] theorem asInt_int (value : Int) : (Datum.int value).asInt = .ok value := rfl

/-- A package path; the empty one stands for no package. -/
def packageForm (pkg : Option String) : Datum := .string (pkg.getD "")

/-- A name that a form can stand for. -/
def TypeName.Written (n : TypeName) : Prop := n.pkg ≠ some ""

namespace GoType

mutual

/-- The form of a type. -/
def form : GoType → Datum
  | .basic name => .list [.symbol "basic", .string name]
  | .named n => .list [.symbol "named", packageForm n.pkg, .string n.name]
  | .pointer t => .list [.symbol "pointer", t.form]
  | .slice t => .list [.symbol "slice", t.form]
  | .array length t => .list [.symbol "array", .int length, t.form]
  | .map key value => .list [.symbol "map", key.form, value.form]
  | .chan t => .list [.symbol "chan", t.form]
  | .tuple ts => .list (.symbol "tuple" :: forms ts)
  | .struct fields => .list (.symbol "struct" :: fieldForms fields)
  | .interface methods embedded =>
    .list (.symbol "interface" ::
      (methodForms methods ++ (forms embedded).map fun d => .list [.symbol "embed", d]))
  | .signature params results variadic =>
    .list (.symbol "signature" :: OptionalParts.forms
      [("params", some (forms params)), ("results", some (forms results)),
       ("variadic", if variadic then some [] else none)])
  | .invalid => .list [.symbol "invalid"]

/-- The forms of types. -/
def forms : List GoType → List Datum
  | [] => []
  | t :: ts => t.form :: forms ts

/-- The forms of the fields of a struct. -/
def fieldForms : List Field → List Datum
  | [] => []
  | .mk name t embedded :: fields =>
    .list [.symbol (if embedded then "embedded" else "field"), .string name, t.form] ::
      fieldForms fields

/-- The forms of the methods of an interface. -/
def methodForms : List Method → List Datum
  | [] => []
  | .mk name t :: methods =>
    .list [.symbol "method", .string name, t.form] :: methodForms methods

end

mutual

/-- What reading the parts of a type takes. -/
def effort : GoType → Effort
  | .basic _ | .invalid => .none
  | .named n => .mention n
  | .pointer t | .slice t | .array _ t | .chan t => t.effort.nested 2
  | .map key value => key.effort.nested 2 ++ value.effort.nested 2
  | .tuple ts => efforts 3 ts
  | .struct fields => fieldEfforts fields
  | .interface methods embedded => methodEfforts methods ++ efforts 2 embedded
  | .signature params results _ => efforts 3 params ++ efforts 3 results

/-- What reading types takes that are nested `n` steps deep. -/
def efforts (n : Nat) : List GoType → Effort
  | [] => .none
  | t :: ts => t.effort.nested n ++ efforts n ts

/-- What reading the fields of a struct takes. -/
def fieldEfforts : List Field → Effort
  | [] => .none
  | .mk _ t _ :: fields => t.effort.nested 2 ++ fieldEfforts fields

/-- What reading the methods of an interface takes. -/
def methodEfforts : List Method → Effort
  | [] => .none
  | .mk _ t :: methods => t.effort.nested 2 ++ methodEfforts methods

end

end GoType

/-! ## Reading types back -/

/-- Written packages are read back. -/
theorem asPackage_packageForm {pkg : Option String} (h : pkg ≠ some "") :
    (packageForm pkg).asPackage = .ok pkg := by
  cases pkg with
  | none => rfl
  | some path =>
    have hpath : path.isEmpty = false := by
      cases hempty : path.isEmpty with
      | false => rfl
      | true => simp_all [String.isEmpty_iff]
    simp [packageForm, Datum.asPackage, bind, Except.bind, pure, Except.pure, hpath]

theorem readTypeName_form {n : TypeName} (h : n.Written) (s : Nat) :
    readTypeName (packageForm n.pkg) (.string n.name) = reads s (.mention n) n := by
  funext table
  simp only [readTypeName, asPackage_packageForm h]
  rfl

/-- The reader gives a type back that is nested any number of steps deep. -/
def TypeReader.Reads (type : TypeReader) (s : Nat) (t : GoType) : Prop :=
  ∀ cost, 1 ≤ cost → type cost t.form = reads s (t.effort.nested cost) t

namespace GoType

section

variable {type : TypeReader} {s : Nat}

theorem mapM_forms {ts : List GoType} (h : ∀ t ∈ ts, type.Reads s t) {n : Nat} (hn : 1 ≤ n) :
    (forms ts).mapM (type n) = reads s (efforts n ts) ts := by
  induction ts with
  | nil => simp [forms, efforts]
  | cons t ts ih =>
    rw [List.forall_mem_cons] at h
    simp [forms, efforts, h.1 n hn, ih h.2]

theorem mapM_fieldForms {fields : List Field} (h : ∀ f ∈ fields, type.Reads s f.type) :
    (fieldForms fields).mapM (readField type) = reads s (fieldEfforts fields) fields := by
  induction fields with
  | nil => simp [fieldForms, fieldEfforts]
  | cons field fields ih =>
    obtain ⟨name, t, embedded⟩ := field
    rw [List.forall_mem_cons] at h
    have ht : type.Reads s t := h.1
    cases embedded <;>
      simp [fieldForms, fieldEfforts, readField, Form.ofDatum_list, Form.operands2,
        ht 2, ih h.2]

theorem mapM_methodForms {methods : List Method} (h : ∀ m ∈ methods, type.Reads s m.type) :
    (methodForms methods).mapM (readInterfaceMember type) =
      reads s (methodEfforts methods) (methods.map .method) := by
  induction methods with
  | nil => simp [methodForms, methodEfforts]
  | cons method methods ih =>
    obtain ⟨name, t⟩ := method
    rw [List.forall_mem_cons] at h
    have ht : type.Reads s t := h.1
    simp [methodForms, methodEfforts, readInterfaceMember, Form.ofDatum_list, Form.operands2, ht 2,
      ih h.2]

theorem mapM_embedForms {ts : List GoType} (h : ∀ t ∈ ts, type.Reads s t) :
    ((forms ts).map fun d => Datum.list [.symbol "embed", d]).mapM (readInterfaceMember type) =
      reads s (efforts 2 ts) (ts.map .embed) := by
  induction ts with
  | nil => simp [forms, efforts]
  | cons t ts ih =>
    rw [List.forall_mem_cons] at h
    simp [forms, efforts, readInterfaceMember, Form.ofDatum_list, Form.operand, h.1 2, ih h.2]

theorem readTypeForm_interface {methods : List Method} {embedded : List GoType}
    (hmethods : ∀ m ∈ methods, type.Reads s m.type) (hembedded : ∀ t ∈ embedded, type.Reads s t) :
    readTypeForm type ⟨"interface",
      methodForms methods ++ (forms embedded).map fun d => .list [.symbol "embed", d]⟩ =
      reads s (GoType.interface methods embedded).effort (.interface methods embedded) := by
  simp [readTypeForm, List.mapM_append, mapM_methodForms hmethods, mapM_embedForms hembedded,
    effort, List.filterMap_append, List.filterMap_map, InterfaceMember.method?,
    InterfaceMember.embed?]

theorem readTypeForm_signature {params results : List GoType} (variadic : Bool)
    (hparams : ∀ t ∈ params, type.Reads s t) (hresults : ∀ t ∈ results, type.Reads s t) :
    readTypeForm type ⟨"signature", OptionalParts.forms
      [("params", some (forms params)), ("results", some (forms results)),
       ("variadic", if variadic then some [] else none)]⟩ =
      reads s (GoType.signature params results variadic).effort
        (.signature params results variadic) := by
  simp [readTypeForm, optionsOf_forms, Options.getAll, OptionalParts.get?_present,
    mapM_forms hparams, mapM_forms hresults, List.lookup_cons, effort]
  cases variadic <;> rfl

end

/-- A written type is read back. -/
def ReadsBack (t : GoType) : Prop :=
  ∀ depth s, s ≤ depth → readTypeWithin depth s t.form = reads s (.leaf ++ t.effort) t

theorem ReadsBack.nested {t : GoType} (h : t.ReadsBack) {depth s : Nat} (hs : s ≤ depth + 1) :
    TypeReader.Reads (fun cost => readTypeWithin depth (s - cost)) s t := by
  intro cost hcost
  show readTypeWithin depth (s - cost) t.form = _
  rw [h depth (s - cost) (by omega), reads_sub]
  rfl

/-- With steps at hand, reading a type is reading its form. -/
theorem readsBack_of_form {t : GoType} {tag : String} {args : List Datum}
    (hform : t.form = .list (.symbol tag :: args))
    (h : ∀ depth s, s ≤ depth + 1 →
      readTypeForm (fun cost => readTypeWithin depth (s - cost)) ⟨tag, args⟩ =
        reads s t.effort t) :
    t.ReadsBack := by
  intro depth s hs
  cases depth with
  | zero =>
    cases Nat.le_zero.mp hs
    rw [reads_leaf_zero]
    rfl
  | succ depth =>
    rw [hform, readTypeWithin, Form.ofDatum_list (Nat.le_add_left 1 _), liftM_ok, pure_bind,
      h depth s hs, within_reads]

mutual

/-- A written type is read back, if no package in it has an empty path. -/
theorem readsBack (t : GoType) (h : ∀ n ∈ t.effort.names, n.Written) : t.ReadsBack := by
  match t with
  | .basic name =>
    refine readsBack_of_form (by rw [form]) fun depth s hs => ?_
    simp [readTypeForm, Form.operand, effort]
  | .named n =>
    have hn : n.Written := h n (by simp [effort, Effort.mention])
    refine readsBack_of_form (by rw [form]) fun depth s hs => ?_
    simp [readTypeForm, Form.operands2, readTypeName_form hn s, effort]
  | .pointer t =>
    have ht := readsBack t h
    refine readsBack_of_form (by rw [form]) fun depth s hs => ?_
    simp [readTypeForm, Form.operand, ht.nested hs 2, effort]
  | .slice t =>
    have ht := readsBack t h
    refine readsBack_of_form (by rw [form]) fun depth s hs => ?_
    simp [readTypeForm, Form.operand, ht.nested hs 2, effort]
  | .array length t =>
    have ht := readsBack t h
    refine readsBack_of_form (by rw [form]) fun depth s hs => ?_
    simp [readTypeForm, Form.operands2, ht.nested hs 2, effort]
  | .map key value =>
    simp only [effort, Effort.names_append, Effort.names_nested, List.forall_mem_append] at h
    have hkey := readsBack key h.1
    have hvalue := readsBack value h.2
    refine readsBack_of_form (by rw [form]) fun depth s hs => ?_
    simp [readTypeForm, Form.operands2, hkey.nested hs 2, hvalue.nested hs 2, effort]
  | .chan t =>
    have ht := readsBack t h
    refine readsBack_of_form (by rw [form]) fun depth s hs => ?_
    simp [readTypeForm, Form.operand, ht.nested hs 2, effort]
  | .tuple ts =>
    have hts := readsBackAll ts 3 h
    refine readsBack_of_form (by rw [form]) fun depth s hs => ?_
    have hts := mapM_forms (fun t ht => (hts t ht).nested hs) (n := 3) (by decide)
    simp [readTypeForm, hts, effort]
  | .struct fields =>
    have hfields := fieldsReadBack fields h
    refine readsBack_of_form (by rw [form]) fun depth s hs => ?_
    simp [readTypeForm, mapM_fieldForms fun f hf => (hfields f hf).nested hs, effort]
  | .interface methods embedded =>
    simp only [effort, Effort.names_append, List.forall_mem_append] at h
    have hmethods := methodsReadBack methods h.1
    have hembedded := readsBackAll embedded 2 h.2
    refine readsBack_of_form (by rw [form]) fun depth s hs => ?_
    exact readTypeForm_interface (fun m hm => (hmethods m hm).nested hs)
      (fun t ht => (hembedded t ht).nested hs)
  | .signature params results variadic =>
    simp only [effort, Effort.names_append, List.forall_mem_append] at h
    have hparams := readsBackAll params 3 h.1
    have hresults := readsBackAll results 3 h.2
    refine readsBack_of_form (by rw [form]) fun depth s hs => ?_
    exact readTypeForm_signature variadic (fun t ht => (hparams t ht).nested hs)
      (fun t ht => (hresults t ht).nested hs)
  | .invalid =>
    refine readsBack_of_form (by rw [form]) fun depth s hs => ?_
    simp [readTypeForm, effort]

theorem readsBackAll (ts : List GoType) (n : Nat) (h : ∀ m ∈ (efforts n ts).names, m.Written) :
    ∀ t ∈ ts, t.ReadsBack := by
  match ts with
  | [] => exact List.forall_mem_nil _
  | t :: ts =>
    simp only [efforts, Effort.names_append, Effort.names_nested, List.forall_mem_append] at h
    exact List.forall_mem_cons.mpr ⟨readsBack t h.1, readsBackAll ts n h.2⟩

theorem fieldsReadBack (fields : List Field) (h : ∀ m ∈ (fieldEfforts fields).names, m.Written) :
    ∀ f ∈ fields, f.type.ReadsBack := by
  match fields with
  | [] => exact List.forall_mem_nil _
  | .mk _ t _ :: fields =>
    simp only [fieldEfforts, Effort.names_append, Effort.names_nested, List.forall_mem_append] at h
    exact List.forall_mem_cons.mpr ⟨readsBack t h.1, fieldsReadBack fields h.2⟩

theorem methodsReadBack (methods : List Method)
    (h : ∀ m ∈ (methodEfforts methods).names, m.Written) :
    ∀ m ∈ methods, m.type.ReadsBack := by
  match methods with
  | [] => exact List.forall_mem_nil _
  | .mk _ t :: methods =>
    simp only [methodEfforts, Effort.names_append, Effort.names_nested, List.forall_mem_append] at h
    exact List.forall_mem_cons.mpr ⟨readsBack t h.1, methodsReadBack methods h.2⟩

end

end GoType

/-- A type that a form can stand for. -/
def GoType.Written (t : GoType) : Prop := ∀ n ∈ t.effort.names, n.Written

/-- The reader gives all types back that have a form. -/
def TypeReader.Faithful (type : TypeReader) (s : Nat) : Prop :=
  ∀ t : GoType, t.Written → type.Reads s t

theorem typesWithin_faithful (s : Nat) : (typesWithin s).Faithful s :=
  fun t ht => (t.readsBack ht).nested (Nat.le_succ s)

/-! ## Optional types -/

/-- What an option holds that is a type. -/
def typePart (t : Option GoType) : Option (List Datum) := t.map fun t => [t.form]

@[simp] theorem onlyElement?_typePart (key : String) (t : Option GoType) :
    onlyElement? key (typePart t) = .ok (t.map GoType.form) :=
  onlyElement?_map key GoType.form t

/-- What reading a type takes that may be absent. -/
def typeEffort (n : Nat) : Option GoType → Effort
  | none => .none
  | some t => t.effort.nested n

theorem mapM_typeForm {type : TypeReader} {s : Nat} (h : type.Faithful s) {t : Option GoType}
    (ht : ∀ t' ∈ t, t'.Written) {n : Nat} (hn : 1 ≤ n) :
    (t.map GoType.form).mapM (type n) = reads s (typeEffort n t) t := by
  cases t with
  | none => exact (reads_none s none).symm
  | some t =>
    rw [Option.map_some, Option.mapM_some, h t (ht t rfl) n hn, map_reads]
    rfl

/-! ## Objects -/

namespace Object

/-- The form of an object. -/
def form : Object → Datum
  | .func pkg name recv _ =>
    .list (.symbol "func" :: packageForm pkg :: .string name :: (recv.map GoType.form).toList)
  | .builtin name => .list [.symbol "builtin", .string name]
  | .var pkg name type =>
    .list (.symbol "var" :: packageForm pkg :: .string name :: (type.map GoType.form).toList)
  | .const pkg name => .list [.symbol "const", packageForm pkg, .string name]
  | .typeName pkg name => .list [.symbol "typename", packageForm pkg, .string name]
  | .pkgName path => .list [.symbol "pkgname", .string path]
  | .nil => .list [.symbol "nilvalue"]

/-- What reading an object takes. -/
def effort : Object → Effort
  | .func _ _ recv _ => typeEffort 4 recv
  | .var _ _ type => typeEffort 4 type
  | .builtin _ | .const _ _ | .typeName _ _ | .pkgName _ | .nil => .none

/-- An object that a form can stand for. The form of a method has no place for its type. -/
def Written : Object → Prop
  | .func pkg _ recv type => pkg ≠ some "" ∧ (∀ t ∈ recv, t.Written) ∧ type = none
  | .var pkg _ type => pkg ≠ some "" ∧ ∀ t ∈ type, t.Written
  | .const pkg _ | .typeName pkg _ => pkg ≠ some ""
  | .builtin _ | .pkgName _ | .nil => True

end Object

theorem readObject_form {type : TypeReader} {s : Nat} (h : type.Faithful s) {o : Object}
    (ho : o.Written) : readObject type o.form = reads s o.effort o := by
  cases o with
  | func pkg name recv t =>
    obtain ⟨hpkg, hrecv, rfl⟩ := ho
    have hhead : (recv.map GoType.form).toList.head? = recv.map GoType.form := by
      cases recv <;> rfl
    simp [readObject, readObjectForm, Object.form, Form.ofDatum_list, Form.operands2, hhead,
      mapM_typeForm h hrecv, asPackage_packageForm hpkg, Object.effort]
  | builtin name =>
    simp [readObject, readObjectForm, Object.form, Form.ofDatum_list, Form.operand,
      Object.effort]
  | var pkg name t =>
    obtain ⟨hpkg, ht⟩ := ho
    have hhead : (t.map GoType.form).toList.head? = t.map GoType.form := by
      cases t <;> rfl
    simp [readObject, readObjectForm, Object.form, Form.ofDatum_list, Form.operands2, hhead,
      mapM_typeForm h ht, asPackage_packageForm hpkg, Object.effort]
  | const pkg name =>
    simp [readObject, readObjectForm, Object.form, Form.ofDatum_list, Form.operands2,
      asPackage_packageForm ho, Object.effort]
  | typeName pkg name =>
    simp [readObject, readObjectForm, Object.form, Form.ofDatum_list, Form.operands2,
      asPackage_packageForm ho, Object.effort]
  | pkgName path =>
    simp [readObject, readObjectForm, Object.form, Form.ofDatum_list, Form.operand,
      Object.effort]
  | nil => simp [readObject, readObjectForm, Object.form, Form.ofDatum_list, Object.effort]

end UncheckedErrors
