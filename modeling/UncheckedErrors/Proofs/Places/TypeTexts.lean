import UncheckedErrors.GoType.Basic

/-!
# Texts of types by places

The text of a type, with its element, key and value, its parameters and its results looked up by
number. `Places.text_eq` says that a type of each sort has all the parts that its text is made of.

`GoType.children` and its companions list the parts of a type of any sort; a type of another sort
has none of them. A lookup gives a part together with the fact that it is smaller than the type, so
that the text of a type is defined by recursion on its size.
-/

namespace UncheckedErrors

namespace GoType

/-! ## Parts of a type -/

/-- The name of a basic or named type, with its package path. -/
def name : GoType → String
  | .basic name => name
  | .named name => name.text
  | _ => ""

/-- The length of an array. -/
def length : GoType → Int
  | .array length _ => length
  | _ => -1

/-- The types at the places of a type: the element of a pointer, slice, array or channel, the key
and the value of a map, or the elements of a tuple. -/
def children : GoType → List GoType
  | .pointer t | .slice t | .array _ t | .chan t => [t]
  | .map key value => [key, value]
  | .tuple ts => ts
  | _ => []

/-- The fields of a struct. -/
def fields : GoType → List Field
  | .struct fields => fields
  | _ => []

/-- The methods that an interface declares itself. -/
def methods : GoType → List Method
  | .interface methods _ => methods
  | _ => []

/-- What an interface embeds. -/
def embeddeds : GoType → List GoType
  | .interface _ embedded => embedded
  | _ => []

/-- The parameters of a function. -/
def params : GoType → List GoType
  | .signature params _ _ => params
  | _ => []

/-- The results of a function. -/
def results : GoType → List GoType
  | .signature _ results _ => results
  | _ => []

/-- Whether the last parameter of a function may come many times. -/
def variadic : GoType → Bool
  | .signature _ _ variadic => variadic
  | _ => false

variable {t c : GoType}

theorem sizeOf_lt_of_mem_children (h : c ∈ t.children) : sizeOf c < sizeOf t := by
  cases t with
  | pointer | slice | chan =>
    cases List.mem_singleton.mp h
    simp
  | array =>
    cases List.mem_singleton.mp h
    simp only [array.sizeOf_spec]
    omega
  | map key value =>
    simp only [children, List.mem_cons, List.not_mem_nil, or_false] at h
    simp only [map.sizeOf_spec]
    rcases h with rfl | rfl <;> omega
  | tuple ts =>
    have := List.sizeOf_lt_of_mem h
    simp only [children, tuple.sizeOf_spec] at *
    omega
  | basic | named | struct | interface | signature | invalid => cases h

theorem sizeOf_type_lt_of_mem_fields {f : Field} (h : f ∈ t.fields) :
    sizeOf f.type < sizeOf t := by
  cases t with
  | struct fields =>
    have := List.sizeOf_lt_of_mem h
    cases f
    simp only [GoType.fields, Field.type, Field.mk.sizeOf_spec, struct.sizeOf_spec] at *
    omega
  | _ => cases h

theorem sizeOf_type_lt_of_mem_methods {m : Method} (h : m ∈ t.methods) :
    sizeOf m.type < sizeOf t := by
  cases t with
  | interface methods embedded =>
    have := List.sizeOf_lt_of_mem h
    cases m
    simp only [GoType.methods, Method.type, Method.mk.sizeOf_spec, interface.sizeOf_spec] at *
    omega
  | _ => cases h

theorem sizeOf_lt_of_mem_embeddeds (h : c ∈ t.embeddeds) : sizeOf c < sizeOf t := by
  cases t with
  | interface methods embedded =>
    have := List.sizeOf_lt_of_mem h
    simp only [GoType.embeddeds, interface.sizeOf_spec] at *
    omega
  | _ => cases h

theorem sizeOf_lt_of_mem_params (h : c ∈ t.params) : sizeOf c < sizeOf t := by
  cases t with
  | signature params results variadic =>
    have := List.sizeOf_lt_of_mem h
    simp only [GoType.params, signature.sizeOf_spec] at *
    omega
  | _ => cases h

theorem sizeOf_lt_of_mem_results (h : c ∈ t.results) : sizeOf c < sizeOf t := by
  cases t with
  | signature params results variadic =>
    have := List.sizeOf_lt_of_mem h
    simp only [GoType.results, signature.sizeOf_spec] at *
    omega
  | _ => cases h

end GoType

namespace Places

/-- The type at a place of a type. -/
def child? (t : GoType) (i : Nat) : Option {c : GoType // sizeOf c < sizeOf t} :=
  t.children[i]?.pmap Subtype.mk fun _ h =>
    GoType.sizeOf_lt_of_mem_children (List.mem_of_getElem? h)

/-- The parameter at a place of a function type. -/
def param? (t : GoType) (i : Nat) : Option {c : GoType // sizeOf c < sizeOf t} :=
  t.params[i]?.pmap Subtype.mk fun _ h => GoType.sizeOf_lt_of_mem_params (List.mem_of_getElem? h)

/-- The result at a place of a function type. -/
def result? (t : GoType) (i : Nat) : Option {c : GoType // sizeOf c < sizeOf t} :=
  t.results[i]?.pmap Subtype.mk fun _ h => GoType.sizeOf_lt_of_mem_results (List.mem_of_getElem? h)

/-- What the last parameter of a variadic function is written by: the element, if it is a slice. -/
def variadicElem? (t : GoType) : Option {c : GoType // sizeOf c < sizeOf t} := do
  let ⟨last, h⟩ ← param? t (t.params.length - 1)
  if last.kind = .slice then do
    let ⟨elem, helem⟩ ← child? last 0
    return ⟨elem, Nat.lt_trans helem h⟩
  else return ⟨last, h⟩

mutual

/-- A type, written with full package paths. -/
def text (t : GoType) : Option String := do
  match t.kind with
  | .basic => return t.name
  | .named => return t.name
  | .pointer => do
    let ⟨elem, _⟩ ← child? t 0
    return "*" ++ (← text elem)
  | .slice => do
    let ⟨elem, _⟩ ← child? t 0
    return "[]" ++ (← text elem)
  | .array => do
    let ⟨elem, _⟩ ← child? t 0
    return "[" ++ toString t.length ++ "]" ++ (← text elem)
  | .map => do
    let ⟨key, _⟩ ← child? t 0
    let ⟨value, _⟩ ← child? t 1
    return "map[" ++ (← text key) ++ "]" ++ (← text value)
  | .chan => do
    let ⟨elem, _⟩ ← child? t 0
    return "chan " ++ (← text elem)
  | .tuple => do
    let elems ← t.children.attach.mapM fun elem =>
      have := GoType.sizeOf_lt_of_mem_children elem.2
      text elem.1
    return "(" ++ ", ".intercalate elems ++ ")"
  | .signature => return "func" ++ (← signatureText t)
  | .struct => do
    let fields ← t.fields.attach.mapM fun field => do
      have := GoType.sizeOf_type_lt_of_mem_fields field.2
      let type ← text field.1.type
      return if field.1.embedded then type else field.1.name ++ " " ++ type
    return "struct\x7b" ++ "; ".intercalate fields ++ "\x7d"
  | .interface => do
    let methods ← t.methods.attach.mapM fun m => do
      have := GoType.sizeOf_type_lt_of_mem_methods m.2
      return m.1.name ++ (← signatureText m.1.type)
    let embedded ← t.embeddeds.attach.mapM fun e =>
      have := GoType.sizeOf_lt_of_mem_embeddeds e.2
      text e.1
    return "interface\x7b" ++ "; ".intercalate (methods ++ embedded) ++ "\x7d"
  | .invalid => return "invalid type"
termination_by (sizeOf t, 2)

/-- The tail of a function type. A type that is no signature counts as one without parameters and
results. -/
def signatureText (t : GoType) : Option String := do
  return "(" ++ ", ".intercalate (← paramTexts t) ++ ")" ++ (← resultsText t)
termination_by (sizeOf t, 1)

/-- The parameters of a function, each written. -/
def paramTexts (t : GoType) : Option (List String) := do
  let params ← t.params.attach.mapM fun p =>
    have := GoType.sizeOf_lt_of_mem_params p.2
    text p.1
  if t.variadic && !t.params.isEmpty then do
    let ⟨elem, _⟩ ← variadicElem? t
    return params.dropLast ++ ["..." ++ (← text elem)]
  else return params
termination_by (sizeOf t, 0)

/-- The results of a function, written. -/
def resultsText (t : GoType) : Option String := do
  let results ← t.results.attach.mapM fun r =>
    have := GoType.sizeOf_lt_of_mem_results r.2
    text r.1
  if t.results.length = 1 then do
    let ⟨result, _⟩ ← result? t 0
    return " " ++ (← text result)
  else if !t.results.isEmpty then return " (" ++ ", ".intercalate results ++ ")"
  else return ""
termination_by (sizeOf t, 0)

end

/-! ## Every place is found -/

theorem mapM_eq_some_map {α β : Type} {f : α → Option β} {g : α → β} {as : List α}
    (h : ∀ a ∈ as, f a = some (g a)) : as.mapM f = some (as.map g) := by
  induction as with
  | nil => rfl
  | cons a as ih =>
    obtain ⟨ha, has⟩ := List.forall_mem_cons.mp h
    rw [List.mapM_cons, ha, ih has]
    rfl

theorem mapM_attach_eq_some_map {α β : Type} {f : α → Option β} {g : α → β} {as : List α}
    (h : ∀ a ∈ as, f a = some (g a)) : (as.attach.mapM fun a => f a.1) = some (as.map g) := by
  rw [mapM_eq_some_map (g := fun a => g a.1) fun a _ => h a.1 a.2, List.map_attach_eq_pmap]
  simp

theorem texts_eq_map (ts : List GoType) : GoType.texts ts = ts.map GoType.text := by
  induction ts with
  | nil => rw [GoType.texts, List.map_nil]
  | cons t ts ih => rw [GoType.texts, ih, List.map_cons]

theorem fieldTexts_eq_map (fields : List Field) :
    GoType.fieldTexts fields = fields.map fun field =>
      if field.embedded then field.type.text else field.name ++ " " ++ field.type.text := by
  induction fields with
  | nil => rw [GoType.fieldTexts, List.map_nil]
  | cons field fields ih =>
    cases field
    rw [GoType.fieldTexts, ih, List.map_cons]
    rfl

theorem methodTexts_eq_map (methods : List Method) :
    GoType.methodTexts methods = methods.map fun m =>
      m.name ++ GoType.signatureText (GoType.paramTexts m.type.variadic m.type.params)
        (GoType.texts m.type.results) := by
  induction methods with
  | nil => rw [GoType.methodTexts, List.map_nil]
  | cons m methods ih =>
    obtain ⟨name, type⟩ := m
    cases type with
    | signature =>
      rw [GoType.methodTexts, ih, List.map_cons]
      rfl
    | _ =>
      rw [GoType.methodTexts, ih, List.map_cons]
      · rfl
      · simp

/-- What the last parameter of a variadic function is written by. -/
def repeated : GoType → GoType
  | .slice elem => elem
  | t => t

theorem paramTexts_cons_cons (variadic : Bool) (t u : GoType) (ts : List GoType) :
    GoType.paramTexts variadic (t :: u :: ts) = t.text :: GoType.paramTexts variadic (u :: ts) := by
  rw [GoType.paramTexts]
  all_goals simp

theorem paramTexts_singleton (variadic : Bool) (t : GoType) :
    GoType.paramTexts variadic [t] =
      if variadic then ["..." ++ (repeated t).text] else [t.text] := by
  cases t with
  | slice elem =>
    rw [GoType.paramTexts]
    rfl
  | _ =>
    rw [GoType.paramTexts]
    · rfl
    · simp

theorem paramTexts_false (ts : List GoType) : GoType.paramTexts false ts = ts.map GoType.text := by
  induction ts with
  | nil => rw [GoType.paramTexts, List.map_nil]
  | cons t ts ih =>
    cases ts with
    | nil =>
      rw [paramTexts_singleton]
      rfl
    | cons u ts =>
      rw [paramTexts_cons_cons, ih]
      rfl

/-- The last parameter of a variadic function is written by its element. -/
theorem paramTexts_concat (ts : List GoType) (last : GoType) :
    GoType.paramTexts true (ts ++ [last]) =
      ts.map GoType.text ++ ["..." ++ (repeated last).text] := by
  induction ts with
  | nil => exact paramTexts_singleton true last
  | cons t ts ih =>
    cases ts with
    | nil =>
      rw [List.cons_append, List.nil_append, paramTexts_cons_cons, paramTexts_singleton]
      rfl
    | cons u ts =>
      rw [List.cons_append, List.cons_append, paramTexts_cons_cons, ← List.cons_append, ih]
      rfl

theorem pmap_mk_eq_some {α : Type} {p : α → Prop} {o : Option α} {a : α} (h : o = some a)
    (H : ∀ a, o = some a → p a) : ∃ ha, o.pmap Subtype.mk H = some ⟨a, ha⟩ := by
  subst h
  exact ⟨_, rfl⟩

theorem variadicElem?_eq {t last : GoType} {ts : List GoType} (h : t.params = ts ++ [last]) :
    ∃ hlt, variadicElem? t = some ⟨repeated last, hlt⟩ := by
  have hlast : t.params[t.params.length - 1]? = some last := by simp [h]
  obtain ⟨hlt, hparam⟩ := pmap_mk_eq_some hlast fun _ h =>
    GoType.sizeOf_lt_of_mem_params (List.mem_of_getElem? h)
  unfold variadicElem? param?
  rw [hparam]
  cases last with
  | slice elem => exact ⟨_, rfl⟩
  | _ => exact ⟨_, rfl⟩

mutual

theorem text_eq (t : GoType) : text t = some t.text := by
  rw [text]
  cases t with
  | basic | named | invalid => rfl
  | pointer elem =>
    show (do return "*" ++ (← text elem)) = _
    rw [text_eq elem]
    rfl
  | slice elem =>
    show (do return "[]" ++ (← text elem)) = _
    rw [text_eq elem]
    rfl
  | array length elem =>
    show (do return "[" ++ toString length ++ "]" ++ (← text elem)) = _
    rw [text_eq elem]
    rfl
  | map key value =>
    show (do return "map[" ++ (← text key) ++ "]" ++ (← text value)) = _
    rw [text_eq key, text_eq value]
    rfl
  | chan elem =>
    show (do return "chan " ++ (← text elem)) = _
    rw [text_eq elem]
    rfl
  | tuple elems =>
    show (elems.attach.mapM fun elem => text elem.1) >>= _ = _
    rw [mapM_attach_eq_some_map fun elem h => text_eq elem, GoType.text, texts_eq_map]
    rfl
  | struct fields =>
    have hfields : (fields.attach.mapM fun field => do
          let type ← text field.1.type
          return if field.1.embedded then type else field.1.name ++ " " ++ type) =
        some (fields.map fun field =>
          if field.embedded then field.type.text else field.name ++ " " ++ field.type.text) :=
      mapM_attach_eq_some_map (f := fun field : Field => do
        let type ← text field.type
        return if field.embedded then type else field.name ++ " " ++ type) fun field h => by
          have : sizeOf field.type < 1 + sizeOf fields := by
            rw [← GoType.struct.sizeOf_spec]
            exact GoType.sizeOf_type_lt_of_mem_fields h
          rw [text_eq field.type]
          rfl
    show (fields.attach.mapM fun field => _) >>= _ = _
    rw [hfields, GoType.text, fieldTexts_eq_map]
    rfl
  | interface methods embedded =>
    have hmethods : (methods.attach.mapM fun m => do
          return m.1.name ++ (← signatureText m.1.type)) =
        some (methods.map fun m =>
          m.name ++ GoType.signatureText (GoType.paramTexts m.type.variadic m.type.params)
            (GoType.texts m.type.results)) :=
      mapM_attach_eq_some_map (f := fun m : Method => do
        return m.name ++ (← signatureText m.type)) fun m h => by
          have : sizeOf m.type < 1 + sizeOf methods + sizeOf embedded := by
            rw [← GoType.interface.sizeOf_spec]
            exact GoType.sizeOf_type_lt_of_mem_methods h
          rw [signatureText_eq m.type]
          rfl
    show (methods.attach.mapM fun m => _) >>=
      (fun _ => (embedded.attach.mapM fun e => text e.1) >>= _) = _
    rw [hmethods, mapM_attach_eq_some_map fun e h => text_eq e, GoType.text, methodTexts_eq_map,
      texts_eq_map]
    rfl
  | signature params results variadic =>
    show (do return "func" ++ (← signatureText (.signature params results variadic))) = _
    rw [signatureText_eq, GoType.text]
    rfl
termination_by (sizeOf t, 2)

theorem signatureText_eq (t : GoType) :
    signatureText t =
      some (GoType.signatureText (GoType.paramTexts t.variadic t.params)
        (GoType.texts t.results)) := by
  rw [signatureText, paramTexts_eq, resultsText_eq]
  rfl
termination_by (sizeOf t, 1)

theorem paramTexts_eq (t : GoType) :
    paramTexts t = some (GoType.paramTexts t.variadic t.params) := by
  have hparams : (t.params.attach.mapM fun p => text p.1) = some (t.params.map GoType.text) :=
    mapM_attach_eq_some_map fun p h =>
      have := GoType.sizeOf_lt_of_mem_params h
      text_eq p
  rw [paramTexts, hparams]
  rcases List.eq_nil_or_concat t.params with hnil | ⟨ts, last, hconcat⟩
  · simp [hnil, GoType.paramTexts]
  · cases hvariadic : t.variadic with
    | false =>
      rw [paramTexts_false]
      rfl
    | true =>
      rw [List.concat_eq_append] at hconcat
      obtain ⟨hlt, helem⟩ := variadicElem?_eq hconcat
      rw [hconcat, paramTexts_concat]
      simp [helem, text_eq (repeated last)]
termination_by (sizeOf t, 0)

theorem resultsText_eq (t : GoType) :
    resultsText t = some (match GoType.texts t.results with
      | [] => ""
      | [result] => " " ++ result
      | results => " (" ++ ", ".intercalate results ++ ")") := by
  have hresults : (t.results.attach.mapM fun r => text r.1) = some (t.results.map GoType.text) :=
    mapM_attach_eq_some_map fun r h =>
      have := GoType.sizeOf_lt_of_mem_results h
      text_eq r
  rw [resultsText, hresults, texts_eq_map]
  match hr : t.results with
  | [] => rfl
  | [result] =>
    obtain ⟨hlt, hresult⟩ := pmap_mk_eq_some (o := t.results[0]?) (by rw [hr]; rfl) fun _ h =>
      GoType.sizeOf_lt_of_mem_results (List.mem_of_getElem? h)
    unfold result?
    rw [hresult]
    simp [text_eq result]
  | r :: s :: rest => simp
termination_by (sizeOf t, 0)

end

end Places

end UncheckedErrors
