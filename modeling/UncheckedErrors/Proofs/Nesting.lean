import UncheckedErrors.Proofs.TreeForms

/-!
# Steps and nesting

The steps that a written tree takes are bounded by how many lists are nested in its form: there are
fewer than five for each (`Expr.steps_lt`, `Stmt.steps_lt`, `Decl.steps_lt`). A form that is nested
no deeper than a fifth of the steps at hand is therefore never too deep.

What reading a form takes is put together from what its parts take, and each part stands somewhere
in the form. So it is enough that each part fits into the data where it stands (`Effort.Fits`).
-/

namespace UncheckedErrors

/-! ## The nesting of data -/

namespace Datum

mutual

/-- How many lists stand inside each other in a datum. -/
def nesting : Datum → Nat
  | .list items | .brackets items => nestingOfAll items + 1
  | .quoted datum => datum.nesting
  | .symbol _ | .string _ | .int _ | .real _ => 0

/-- The greatest nesting of several data. -/
def nestingOfAll : List Datum → Nat
  | [] => 0
  | datum :: rest => max datum.nesting (nestingOfAll rest)

end

@[simp] theorem nesting_list (items : List Datum) :
    (Datum.list items).nesting = nestingOfAll items + 1 := rfl

@[simp] theorem nesting_symbol (name : String) : (Datum.symbol name).nesting = 0 := rfl

@[simp] theorem nesting_string (text : String) : (Datum.string text).nesting = 0 := rfl

@[simp] theorem nesting_int (value : Int) : (Datum.int value).nesting = 0 := rfl

@[simp] theorem nesting_packageForm (pkg : Option String) : (packageForm pkg).nesting = 0 :=
  nesting_string _

@[simp] theorem nestingOfAll_nil : nestingOfAll [] = 0 := rfl

@[simp] theorem nestingOfAll_cons (datum : Datum) (rest : List Datum) :
    nestingOfAll (datum :: rest) = max datum.nesting (nestingOfAll rest) := rfl

@[simp] theorem nestingOfAll_append (ds es : List Datum) :
    nestingOfAll (ds ++ es) = max (nestingOfAll ds) (nestingOfAll es) := by
  induction ds with
  | nil => simp
  | cons d ds ih => simp [ih, Nat.max_assoc]

theorem nesting_le_of_mem {d : Datum} {ds : List Datum} (h : d ∈ ds) :
    d.nesting ≤ nestingOfAll ds := by
  induction ds with
  | nil => cases h
  | cons e ds ih =>
    rw [nestingOfAll_cons]
    rcases List.mem_cons.mp h with rfl | h
    · exact Nat.le_max_left _ _
    · exact Nat.le_trans (ih h) (Nat.le_max_right _ _)

end Datum

open Datum

namespace OptionalParts

/-- The nesting of what an option adds to a form. -/
def nesting : Option (List Datum) → Nat
  | none => 0
  | some args => nestingOfAll args + 1

@[simp] theorem nesting_none : nesting none = 0 := rfl

@[simp] theorem nesting_some (args : List Datum) :
    nesting (some args) = nestingOfAll args + 1 := rfl

@[simp] theorem nestingOfAll_forms_nil : nestingOfAll (forms []) = 0 := nestingOfAll_nil

@[simp] theorem nestingOfAll_forms_cons (key : String) (args : Option (List Datum))
    (parts : OptionalParts) :
    nestingOfAll (forms ((key, args) :: parts)) =
      max (nesting args) (nestingOfAll (forms parts)) := by
  cases args with
  | none => simp [forms, present]
  | some args => simp [forms, present]

theorem nesting_le_of_mem {key : String} {part : Option (List Datum)} {parts : OptionalParts}
    (h : (key, part) ∈ parts) : nesting part ≤ nestingOfAll (forms parts) := by
  induction parts with
  | nil => cases h
  | cons other parts ih =>
    rw [nestingOfAll_forms_cons]
    rcases List.mem_cons.mp h with rfl | h
    · exact Nat.le_max_left _ _
    · exact Nat.le_trans (ih h) (Nat.le_max_right _ _)

end OptionalParts

namespace Effort

/-- Where there are five steps for each list and five more, a form can also be nested. -/
theorem nested_le_of_nesting {e : Effort} {depth s n : Nat} (h : e.steps < 5 * depth)
    (hn : n ≤ 5) (hs : 5 * (depth + 1) ≤ s) : (e.nested n).steps ≤ s := by
  have : leafSteps = 4 := rfl
  rw [steps_nested]
  omega

/-- Five steps for each list around another in the data, and four more, are enough. -/
def Fits (e : Effort) (ds : List Datum) : Prop := e.steps ≤ 5 * nestingOfAll ds + 4

/-- Five steps for each list around another in what an option adds are enough. -/
def FitsPart (e : Effort) (part : Option (List Datum)) : Prop :=
  e.steps ≤ 5 * OptionalParts.nesting part

theorem fits_none (ds : List Datum) : none.Fits ds := Nat.zero_le _

theorem fitsPart_none (part : Option (List Datum)) : none.FitsPart part := Nat.zero_le _

/-- Two parts fit if each of them does: the steps are at hand again for the second. -/
theorem Fits.append {e f : Effort} {ds : List Datum} (he : e.Fits ds) (hf : f.Fits ds) :
    (e ++ f).Fits ds :=
  steps_append_le.mpr ⟨he, hf⟩

theorem Fits.mono {e : Effort} {ds es : List Datum} (h : e.Fits ds)
    (hle : nestingOfAll ds ≤ nestingOfAll es) : e.Fits es := by
  unfold Fits at h ⊢
  omega

/-- What fits the data behind some others fits them all. -/
theorem Fits.behind {e : Effort} {es : List Datum} (h : e.Fits es) (ds : List Datum) :
    e.Fits (ds ++ es) :=
  h.mono (by rw [nestingOfAll_append]; exact Nat.le_max_right _ _)

theorem Fits.before {e : Effort} {ds : List Datum} (h : e.Fits ds) (es : List Datum) :
    e.Fits (ds ++ es) :=
  h.mono (by rw [nestingOfAll_append]; exact Nat.le_max_left _ _)

theorem Fits.part {e : Effort} {args : List Datum} (h : e.Fits args) : e.FitsPart (some args) := by
  unfold Fits at h
  rw [FitsPart, OptionalParts.nesting_some]
  omega

/-- A form whose parts fit takes fewer steps than there are. -/
theorem Fits.steps_lt {e : Effort} {args : List Datum} (h : e.Fits args) (tag : String) :
    e.steps < 5 * (Datum.list (.symbol tag :: args)).nesting := by
  unfold Fits at h
  rw [nesting_list, nestingOfAll_cons, nesting_symbol]
  omega

theorem fits_of_mem {e : Effort} {d : Datum} {ds : List Datum} (h : e.steps < 5 * d.nesting)
    (hd : d ∈ ds) : e.Fits ds := by
  have := nesting_le_of_mem hd
  unfold Fits
  omega

/-- A form may be nested up to five steps deep. -/
theorem fits_nested {e : Effort} {d : Datum} {ds : List Datum} {n : Nat} (hn : n ≤ 5)
    (h : e.steps < 5 * d.nesting) (hd : d ∈ ds) : (e.nested n).Fits ds := by
  have := nesting_le_of_mem hd
  have : leafSteps = 4 := rfl
  rw [Fits, steps_nested]
  omega

theorem FitsPart.fits {e : Effort} {part : Option (List Datum)} {parts : OptionalParts}
    (h : e.FitsPart part) (key : String) (hpart : (key, part) ∈ parts) :
    e.Fits (OptionalParts.forms parts) := by
  have := OptionalParts.nesting_le_of_mem hpart
  unfold FitsPart at h
  unfold Fits
  omega

end Effort

/-! ## Types and objects -/

namespace GoType

/-- Embedded types are nested one list deeper. -/
theorem nestingOfAll_le_embeds (ds : List Datum) :
    nestingOfAll ds ≤ nestingOfAll (ds.map fun d => .list [.symbol "embed", d]) := by
  induction ds with
  | nil => simp
  | cons d ds ih =>
    simp
    omega

mutual

theorem steps_lt (t : GoType) : t.effort.steps < 5 * t.form.nesting := by
  cases t with
  | basic name => simp [effort, form, Effort.none]
  | invalid => simp [effort, form, Effort.none]
  | named n => simp [effort, form, Effort.mention]
  | pointer t | slice t | array length t | chan t =>
    have := t.steps_lt
    simp only [effort, Effort.steps_nested, leafSteps, form, nesting, nestingOfAll]
    omega
  | map key value =>
    have := key.steps_lt
    have := value.steps_lt
    simp only [effort, Effort.steps_append, Effort.steps_nested, leafSteps, form, nesting,
      nestingOfAll]
    omega
  | tuple ts =>
    have := steps_efforts_le 3 (by decide) ts
    simp only [effort, form, nesting, nestingOfAll]
    omega
  | struct fields =>
    have := steps_fieldEfforts_le fields
    simp only [effort, form, nesting, nestingOfAll]
    omega
  | interface methods embedded =>
    have := steps_methodEfforts_le methods
    have := steps_efforts_le 2 (by decide) embedded
    have := nestingOfAll_le_embeds (forms embedded)
    simp only [effort, Effort.steps_append, form, nesting, nestingOfAll, nestingOfAll_append]
    omega
  | signature params results variadic =>
    have := steps_efforts_le 3 (by decide) params
    have := steps_efforts_le 3 (by decide) results
    simp only [effort, Effort.steps_append, form, nesting, nestingOfAll,
      OptionalParts.nestingOfAll_forms_cons, OptionalParts.nesting_some,
      OptionalParts.nestingOfAll_forms_nil]
    omega

theorem steps_efforts_le (n : Nat) (hn : n ≤ 5) (ts : List GoType) :
    (efforts n ts).steps ≤ 5 * nestingOfAll (forms ts) + 4 := by
  cases ts with
  | nil => simp [efforts, forms, Effort.none]
  | cons t ts =>
    have := t.steps_lt
    have := steps_efforts_le n hn ts
    simp only [efforts, Effort.steps_append, Effort.steps_nested, leafSteps, forms, nestingOfAll]
    omega

theorem steps_fieldEfforts_le (fields : List Field) :
    (fieldEfforts fields).steps ≤ 5 * nestingOfAll (fieldForms fields) + 4 := by
  cases fields with
  | nil => simp [fieldEfforts, fieldForms, Effort.none]
  | cons field fields =>
    obtain ⟨name, t, embedded⟩ := field
    have := t.steps_lt
    have := steps_fieldEfforts_le fields
    simp only [fieldEfforts, Effort.steps_append, Effort.steps_nested, leafSteps, fieldForms,
      nestingOfAll, nesting]
    omega

theorem steps_methodEfforts_le (methods : List Method) :
    (methodEfforts methods).steps ≤ 5 * nestingOfAll (methodForms methods) + 4 := by
  cases methods with
  | nil => simp [methodEfforts, methodForms, Effort.none]
  | cons method methods =>
    obtain ⟨name, t⟩ := method
    have := t.steps_lt
    have := steps_methodEfforts_le methods
    simp only [methodEfforts, Effort.steps_append, Effort.steps_nested, leafSteps, methodForms,
      nestingOfAll, nesting]
    omega

end

end GoType

open Effort

theorem fitsPart_typeEffort {n : Nat} (hn : n ≤ 5) (t : Option GoType) :
    (typeEffort n t).FitsPart (typePart t) := by
  cases t with
  | none => exact fitsPart_none _
  | some t => exact (fits_nested hn t.steps_lt List.mem_cons_self).part

/-- The option for the type of a form. -/
theorem fits_typeEffort {parts : OptionalParts} (t : Option GoType)
    (ht : ("type", typePart t) ∈ parts) : (typeEffort 3 t).Fits (OptionalParts.forms parts) :=
  (fitsPart_typeEffort (by decide) t).fits "type" ht

theorem Object.steps_lt (o : Object) : o.effort.steps < 5 * o.form.nesting := by
  cases o with
  | func pkg name recv type =>
    cases recv with
    | none => simp [effort, typeEffort, form, Effort.none]
    | some t =>
      have := t.steps_lt
      simp only [effort, typeEffort, Effort.steps_nested, leafSteps, form, Option.map_some,
        Option.toList_some, nesting, nestingOfAll, nesting_packageForm]
      omega
  | var pkg name type =>
    cases type with
    | none => simp [effort, typeEffort, form, Effort.none]
    | some t =>
      have := t.steps_lt
      simp only [effort, typeEffort, Effort.steps_nested, leafSteps, form, Option.map_some,
        Option.toList_some, nesting, nestingOfAll, nesting_packageForm]
      omega
  | builtin name => simp [effort, form, Effort.none]
  | const pkg name => simp [effort, form, Effort.none]
  | typeName pkg name => simp [effort, form, Effort.none]
  | pkgName path => simp [effort, form, Effort.none]
  | nil => simp [effort, form, Effort.none]

/-! ## Trees -/

theorem fitsPart_objectEffort (o : Option Object) :
    (objectEffort o).FitsPart (o.map fun o => [o.form]) := by
  cases o with
  | none => exact fitsPart_none _
  | some o => exact (fits_of_mem o.steps_lt List.mem_cons_self).part

theorem Ident.steps_lt (id : Ident) : id.effort.steps < 5 * id.form.nesting := by
  have hobj := fitsPart_objectEffort id.obj
  apply Fits.steps_lt
  refine .behind (.append (hobj.fits "obj" ?_) (fits_typeEffort id.type ?_)) [_, _]
  all_goals simp

theorem Ident.fits_efforts (ids : List Ident) :
    (Ident.efforts ids).Fits (ids.map Ident.form) := by
  induction ids with
  | nil => exact fits_none _
  | cons id ids ih =>
    exact .append (fits_nested (by decide) id.steps_lt List.mem_cons_self) (ih.behind [id.form])

theorem fitsPart_selectionEffort (selection : Option Selection) :
    (selectionEffort selection).FitsPart (selection.map (·.forms)) := by
  cases selection with
  | none => exact fitsPart_none _
  | some selection =>
    exact (fits_nested (by decide) selection.recv.steps_lt (by simp [Selection.forms])).part

/-! ### Statements with a body

The conditions say what reading the parts takes. -/

namespace Stmt

theorem steps_lt_ifStmt {cond : Expr} {body : Block} {init orElse : Option Stmt} (pos : Int)
    (hcond : cond.effort.steps < 5 * cond.form.nesting)
    (hbody : body.effort.steps < 5 * body.form.nesting)
    (hinit : (partEffort init).FitsPart (part init))
    (horElse : (partEffort orElse).FitsPart (part orElse)) :
    (ifStmt cond body pos init orElse).effort.steps <
      5 * (ifStmt cond body pos init orElse).form.nesting := by
  have hcond := fits_nested (n := 2) (by decide) hcond (List.mem_singleton_self _)
  have hbody := fits_of_mem hbody (List.mem_singleton_self _)
  rw [effort, form]
  apply Fits.steps_lt
  refine .behind (.append (hcond.part.fits "cond" ?_) (.append (hbody.part.fits "body" ?_)
    (.append (hinit.fits "init" ?_) (horElse.fits "else" ?_)))) [_]
  all_goals simp

theorem steps_lt_caseClause {exprs : Option (List Expr)} {body : List Stmt} (pos : Int)
    (hexprs : (Expr.listEffort exprs).FitsPart (Expr.listPart exprs))
    (hbody : (efforts 4 body).Fits (forms body)) :
    (caseClause exprs body pos).effort.steps < 5 * (caseClause exprs body pos).form.nesting := by
  rw [effort, form]
  apply Fits.steps_lt
  refine .behind (.append (.before (hexprs.fits "list" ?_) _) (hbody.behind _)) [_]
  exact List.mem_singleton_self _

theorem steps_lt_switchStmt {body : Block} {init : Option Stmt} {tag : Option Expr} (pos : Int)
    (hbody : body.effort.steps < 5 * body.form.nesting)
    (hinit : (partEffort init).FitsPart (part init))
    (htag : (Expr.partEffort tag).FitsPart (Expr.part tag)) :
    (switchStmt body pos init tag).effort.steps <
      5 * (switchStmt body pos init tag).form.nesting := by
  have hbody := fits_of_mem hbody (List.mem_singleton_self _)
  rw [effort, form]
  apply Fits.steps_lt
  refine .behind (.append (hbody.part.fits "body" ?_) (.append (hinit.fits "init" ?_)
    (htag.fits "tag" ?_))) [_]
  all_goals simp

theorem steps_lt_typeSwitch {assign : Stmt} {body : Block} {init : Option Stmt} (pos : Int)
    (hassign : assign.effort.steps < 5 * assign.form.nesting)
    (hbody : body.effort.steps < 5 * body.form.nesting)
    (hinit : (partEffort init).FitsPart (part init)) :
    (typeSwitch assign body pos init).effort.steps <
      5 * (typeSwitch assign body pos init).form.nesting := by
  have hassign := fits_nested (n := 2) (by decide) hassign (List.mem_singleton_self _)
  have hbody := fits_of_mem hbody (List.mem_singleton_self _)
  rw [effort, form]
  apply Fits.steps_lt
  refine .behind (.append (hassign.part.fits "assign" ?_) (.append (hbody.part.fits "body" ?_)
    (hinit.fits "init" ?_))) [_]
  all_goals simp

theorem steps_lt_commClause {comm : Option Stmt} {body : List Stmt} (pos : Int)
    (hcomm : (partEffort comm).FitsPart (part comm)) (hbody : (efforts 4 body).Fits (forms body)) :
    (commClause comm body pos).effort.steps < 5 * (commClause comm body pos).form.nesting := by
  rw [effort, form]
  apply Fits.steps_lt
  refine .behind (.append (.before (hcomm.fits "on" ?_) _) (hbody.behind _)) [_]
  exact List.mem_singleton_self _

theorem steps_lt_selectStmt {body : Block} (pos : Int)
    (hbody : body.effort.steps < 5 * body.form.nesting) :
    (selectStmt body pos).effort.steps < 5 * (selectStmt body pos).form.nesting := by
  have hbody := fits_of_mem hbody (List.mem_singleton_self _)
  rw [effort, form]
  apply Fits.steps_lt
  exact .behind (hbody.part.fits "body" (List.mem_singleton_self _)) [_]

theorem steps_lt_forStmt {body : Block} {init post : Option Stmt} {cond : Option Expr} (pos : Int)
    (hbody : body.effort.steps < 5 * body.form.nesting)
    (hinit : (partEffort init).FitsPart (part init))
    (hcond : (Expr.partEffort cond).FitsPart (Expr.part cond))
    (hpost : (partEffort post).FitsPart (part post)) :
    (forStmt body pos init cond post).effort.steps <
      5 * (forStmt body pos init cond post).form.nesting := by
  have hbody := fits_of_mem hbody (List.mem_singleton_self _)
  rw [effort, form]
  apply Fits.steps_lt
  refine .behind (.append (hbody.part.fits "body" ?_) (.append (hinit.fits "init" ?_)
    (.append (hcond.fits "cond" ?_) (hpost.fits "post" ?_)))) [_]
  all_goals simp

theorem steps_lt_rangeStmt {x : Expr} {body : Block} {key value : Option Expr} (pos : Int)
    (tok : String) (hx : x.effort.steps < 5 * x.form.nesting)
    (hbody : body.effort.steps < 5 * body.form.nesting)
    (hkey : (Expr.partEffort key).FitsPart (Expr.part key))
    (hvalue : (Expr.partEffort value).FitsPart (Expr.part value)) :
    (rangeStmt x body pos key value tok).effort.steps <
      5 * (rangeStmt x body pos key value tok).form.nesting := by
  have hx := fits_nested (n := 2) (by decide) hx (List.mem_singleton_self _)
  have hbody := fits_of_mem hbody (List.mem_singleton_self _)
  rw [effort, form]
  apply Fits.steps_lt
  refine .behind (.append (hx.part.fits "x" ?_) (.append (hbody.part.fits "body" ?_)
    (.append (hkey.fits "key" ?_) (hvalue.fits "value" ?_)))) [_, _]
  all_goals simp

end Stmt

/-! ### All trees -/

mutual

theorem Expr.steps_lt (x : Expr) : x.effort.steps < 5 * x.form.nesting := by
  cases x with
  | ident id => simpa only [Expr.effort, Expr.form] using id.steps_lt
  | call c => simpa only [Expr.effort, Expr.form] using c.steps_lt
  | basicLit kind value pos type =>
    rw [Expr.effort, Expr.form]
    apply Fits.steps_lt
    exact .behind (fits_typeEffort type (List.mem_singleton_self _)) [_, _, _]
  | compositeLit elts lbrace type =>
    have helts := (Expr.fits_efforts elts).part
    rw [Expr.effort, Expr.form]
    apply Fits.steps_lt
    refine .behind (.append (helts.fits "elts" ?_) (fits_typeEffort type ?_)) [_]
    all_goals simp
  | funcLit body pos type =>
    rw [Expr.effort, Expr.form]
    apply Fits.steps_lt
    refine .append (fits_of_mem body.steps_lt ?_) (.behind (fits_typeEffort type ?_) [_, _])
    all_goals simp
  | paren x pos type | star x pos type =>
    rw [Expr.effort, Expr.form]
    apply Fits.steps_lt
    refine .append (fits_nested (by decide) x.steps_lt ?_)
      (.behind (fits_typeEffort type ?_) [_, _])
    all_goals simp
  | unary op x pos type =>
    rw [Expr.effort, Expr.form]
    apply Fits.steps_lt
    refine .append (fits_nested (by decide) x.steps_lt ?_)
      (.behind (fits_typeEffort type ?_) [_, _, _])
    all_goals simp
  | selector x sel selection type =>
    have hselection := fitsPart_selectionEffort selection
    rw [Expr.effort, Expr.form]
    apply Fits.steps_lt
    refine .append (fits_of_mem x.steps_lt ?_) (.append (fits_nested (by decide) sel.steps_lt ?_)
      (.behind (.append (hselection.fits "selection" ?_) (fits_typeEffort type ?_)) [_, _]))
    all_goals simp
  | index x indices lbrack type =>
    have hindices := Expr.fits_efforts indices
    rw [Expr.effort, Expr.form]
    apply Fits.steps_lt
    refine .append (fits_of_mem x.steps_lt ?_)
      (.behind (.append (hindices.before _) (.behind (fits_typeEffort type ?_) _)) [_, _])
    all_goals simp
  | slice x lbrack low high max type =>
    have hlow := Expr.fitsPart_partEffort low
    have hhigh := Expr.fitsPart_partEffort high
    have hmax := Expr.fitsPart_partEffort max
    rw [Expr.effort, Expr.form]
    apply Fits.steps_lt
    refine .append (fits_of_mem x.steps_lt ?_) (.behind (.append (hlow.fits "low" ?_)
      (.append (hhigh.fits "high" ?_) (.append (hmax.fits "max" ?_) (fits_typeEffort type ?_))))
      [_, _])
    all_goals simp
  | typeAssert x lparen asserted type =>
    have hasserted := fitsPart_typeEffort (n := 2) (by decide) asserted
    rw [Expr.effort, Expr.form]
    apply Fits.steps_lt
    refine .append (fits_of_mem x.steps_lt ?_)
      (.behind (.append (hasserted.fits "asserted" ?_) (fits_typeEffort type ?_)) [_, _])
    all_goals simp
  | binary op x y opPos type =>
    rw [Expr.effort, Expr.form]
    apply Fits.steps_lt
    refine .append (fits_of_mem x.steps_lt ?_) (.append (fits_nested (by decide) y.steps_lt ?_)
      (.behind (fits_typeEffort type ?_) [_, _, _, _]))
    all_goals simp
  | keyValue key value =>
    rw [Expr.effort, Expr.form]
    apply Fits.steps_lt
    refine .append (fits_nested (by decide) key.steps_lt ?_)
      (fits_nested (by decide) value.steps_lt ?_)
    all_goals simp
  | typeExpr type pos =>
    rw [Expr.effort, Expr.form]
    apply Fits.steps_lt
    exact fits_nested (by decide) type.steps_lt (by simp)

theorem Call.steps_lt (c : Call) : c.effort.steps < 5 * c.form.nesting := by
  obtain ⟨fn, args, lparen, rparen, type, ellipsis⟩ := c
  have hargs := Expr.fits_efforts args
  rw [Call.effort, Call.form]
  apply Fits.steps_lt
  refine .append (fits_of_mem fn.steps_lt ?_)
    (.behind (.append (hargs.before _) (.behind (fits_typeEffort type ?_) _)) [_, _, _])
  all_goals simp

theorem Expr.fits_efforts (xs : List Expr) : (Expr.efforts 4 xs).Fits (Expr.forms xs) := by
  cases xs with
  | nil => exact fits_none _
  | cons x xs =>
    have hxs := Expr.fits_efforts xs
    rw [Expr.efforts, Expr.forms]
    exact .append (fits_nested (by decide) x.steps_lt List.mem_cons_self) (hxs.behind [x.form])

theorem Expr.fitsPart_partEffort (x : Option Expr) :
    (Expr.partEffort x).FitsPart (Expr.part x) := by
  cases x with
  | none => exact fitsPart_none _
  | some x => exact (fits_nested (by decide) x.steps_lt List.mem_cons_self).part

theorem Expr.fitsPart_listEffort (xs : Option (List Expr)) :
    (Expr.listEffort xs).FitsPart (Expr.listPart xs) := by
  cases xs with
  | none => exact fitsPart_none _
  | some xs => exact (Expr.fits_efforts xs).part

theorem Block.steps_lt (b : Block) : b.effort.steps < 5 * b.form.nesting := by
  obtain ⟨stmts, lbrace⟩ := b
  -- The statements of a block are nested five steps deep, more than any other part: the factor
  -- could not be smaller.
  have hstmts := Stmt.fits_efforts (Nat.le_refl 5) stmts
  rw [Block.effort, Block.form]
  exact (hstmts.behind [_]).steps_lt _

theorem Stmt.steps_lt (stmt : Stmt) : stmt.effort.steps < 5 * stmt.form.nesting := by
  cases stmt with
  | block b => simpa only [Stmt.effort, Stmt.form] using b.steps_lt
  | decl decl =>
    have := decl.steps_lt
    have := Effort.steps_under_le 1 decl.effort
    simp only [Stmt.effort, Stmt.form, nesting, nestingOfAll]
    omega
  | empty pos =>
    rw [Stmt.effort, Stmt.form]
    exact (fits_none _).steps_lt _
  | branch tok pos label =>
    rw [Stmt.effort, Stmt.form]
    exact (fits_none _).steps_lt _
  | labeled label stmt =>
    rw [Stmt.effort, Stmt.form]
    apply Fits.steps_lt
    exact fits_nested (by decide) stmt.steps_lt (by simp)
  | expr x | incDec x tok tokPos =>
    rw [Stmt.effort, Stmt.form]
    apply Fits.steps_lt
    exact fits_nested (by decide) x.steps_lt (by simp)
  | send chan value arrow =>
    rw [Stmt.effort, Stmt.form]
    apply Fits.steps_lt
    refine .append (fits_nested (by decide) chan.steps_lt ?_)
      (fits_nested (by decide) value.steps_lt ?_)
    all_goals simp
  | assign lhs tok tokPos rhs =>
    have hlhs := (Expr.fits_efforts lhs).steps_lt "lhs"
    have hrhs := (Expr.fits_efforts rhs).steps_lt "rhs"
    rw [Stmt.effort, Stmt.form]
    apply Fits.steps_lt
    refine .append (fits_of_mem hlhs ?_) (fits_of_mem hrhs ?_)
    all_goals simp
  | goStmt c pos | deferStmt c pos =>
    rw [Stmt.effort, Stmt.form]
    apply Fits.steps_lt
    exact fits_nested (by decide) c.steps_lt (by simp)
  | returnStmt results pos =>
    have hresults := Expr.fits_efforts results
    rw [Stmt.effort, Stmt.form]
    exact (hresults.behind [_]).steps_lt _
  | ifStmt cond body pos init orElse =>
    exact Stmt.steps_lt_ifStmt pos cond.steps_lt body.steps_lt (Stmt.fitsPart_partEffort init)
      (Stmt.fitsPart_partEffort orElse)
  | caseClause exprs body pos =>
    exact Stmt.steps_lt_caseClause pos (Expr.fitsPart_listEffort exprs)
      (Stmt.fits_efforts (by decide) body)
  | switchStmt body pos init tag =>
    exact Stmt.steps_lt_switchStmt pos body.steps_lt (Stmt.fitsPart_partEffort init)
      (Expr.fitsPart_partEffort tag)
  | typeSwitch assign body pos init =>
    exact Stmt.steps_lt_typeSwitch pos assign.steps_lt body.steps_lt (Stmt.fitsPart_partEffort init)
  | commClause comm body pos =>
    exact Stmt.steps_lt_commClause pos (Stmt.fitsPart_partEffort comm)
      (Stmt.fits_efforts (by decide) body)
  | selectStmt body pos => exact Stmt.steps_lt_selectStmt pos body.steps_lt
  | forStmt body pos init cond post =>
    exact Stmt.steps_lt_forStmt pos body.steps_lt (Stmt.fitsPart_partEffort init)
      (Expr.fitsPart_partEffort cond) (Stmt.fitsPart_partEffort post)
  | rangeStmt x body pos key value tok =>
    exact Stmt.steps_lt_rangeStmt pos tok x.steps_lt body.steps_lt (Expr.fitsPart_partEffort key)
      (Expr.fitsPart_partEffort value)

theorem Stmt.fits_efforts {n : Nat} (hn : n ≤ 5) (stmts : List Stmt) :
    (Stmt.efforts n stmts).Fits (Stmt.forms stmts) := by
  cases stmts with
  | nil => exact fits_none _
  | cons stmt stmts =>
    have hstmts := Stmt.fits_efforts hn stmts
    rw [Stmt.efforts, Stmt.forms]
    exact .append (fits_nested hn stmt.steps_lt List.mem_cons_self) (hstmts.behind [stmt.form])

theorem Stmt.fitsPart_partEffort (stmt : Option Stmt) :
    (Stmt.partEffort stmt).FitsPart (Stmt.part stmt) := by
  cases stmt with
  | none => exact fitsPart_none _
  | some stmt => exact (fits_nested (by decide) stmt.steps_lt List.mem_cons_self).part

theorem ValueSpec.steps_lt (spec : ValueSpec) : spec.effort.steps < 5 * spec.form.nesting := by
  obtain ⟨name, others, values, type⟩ := spec
  have hnames := (Ident.fits_efforts (name :: others)).part
  have hvalues : (Expr.efforts 4 values).FitsPart
      (if values.isEmpty then none else some (Expr.forms values)) := by
    have hvalues := (Expr.fits_efforts values).part
    cases values with
    | nil => exact fitsPart_none _
    | cons value values => exact hvalues
  rw [ValueSpec.effort, ValueSpec.form]
  apply Fits.steps_lt
  refine .append (hnames.fits "names" ?_) (.append (hvalues.fits "values" ?_)
    (fits_typeEffort type ?_))
  all_goals simp

theorem ValueSpec.steps_efforts_le (specs : List ValueSpec) :
    (ValueSpec.efforts specs).steps ≤ 5 * nestingOfAll (ValueSpec.forms specs) := by
  cases specs with
  | nil => exact Nat.zero_le _
  | cons spec specs =>
    have := spec.steps_lt
    have := ValueSpec.steps_efforts_le specs
    simp only [ValueSpec.efforts, Effort.steps_append, ValueSpec.forms, nestingOfAll]
    omega

theorem GenDecl.steps_lt (decl : GenDecl) : decl.effort.steps < 5 * decl.form.nesting := by
  obtain ⟨tok, specs, pos⟩ := decl
  have hspecs := ValueSpec.steps_efforts_le specs
  have hunder := Effort.steps_under_le 2 (ValueSpec.efforts specs)
  have hfits : ((ValueSpec.efforts specs).under 2).Fits (ValueSpec.forms specs) :=
    Nat.le_trans hunder (by omega)
  rw [GenDecl.effort, GenDecl.form]
  exact (hfits.behind [_, _]).steps_lt _

end

theorem fitsPart_blockEffort (b : Option Block) : (Block.partEffort b).FitsPart (Block.part b) := by
  cases b with
  | none => exact fitsPart_none _
  | some b => exact (fits_of_mem b.steps_lt List.mem_cons_self).part

theorem Decl.steps_lt (decl : Decl) : decl.effort.steps < 5 * decl.form.nesting := by
  cases decl with
  | gen decl => exact decl.steps_lt
  | func decl =>
    have hbody := fitsPart_blockEffort decl.body
    have hrecv := fitsPart_typeEffort (n := 2) (by decide) decl.recv
    apply Fits.steps_lt
    refine .behind (.append (hbody.fits "body" ?_) (hrecv.fits "recv" ?_)) [_, _]
    all_goals simp

end UncheckedErrors
