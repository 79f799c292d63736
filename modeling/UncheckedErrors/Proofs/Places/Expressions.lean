import UncheckedErrors.Proofs.Places.Types

/-!
# Expressions by places

The readers of expressions, written with lookups by number. A left-anchored form is checked twice.
On the way down its spine it is checked for the place of its leading operand alone, and only after
the innermost operand was read, on the way back, for all of its places (`Places.spine`,
`Places.chainForm`).

`Places.spine_eq` says that the way down finds every leading operand. The forms on the spine are
left-anchored (`leading_of_spine`), so each of them has a reader on the way back.
`Places.exprWith_eq` puts the two together with the leaf at the end of the spine.
-/

namespace UncheckedErrors

/-- Where the leading operand of a left-anchored form stands, as a number. -/
def Leading.place : Leading → Nat
  | .first => 1
  | .third => 3

/-- The part of a datum at a place, which is smaller than the datum. -/
def Datum.part? : (d : Datum) → Nat → Option {x : Datum // sizeOf x < sizeOf d}
  | .list items, i =>
    if h : i < items.length then
      some ⟨items[i], by
        have := List.sizeOf_get items ⟨i, h⟩
        simp only [List.get_eq_getElem, Datum.list.sizeOf_spec] at this ⊢
        omega⟩
    else none
  | _, _ => none

/-- The identifier that an expression is. -/
def Expr.ident? : Expr → Option Ident
  | .ident id => some id
  | _ => none

@[simp] theorem Expr.ident?_ident (id : Ident) : (Expr.ident id).ident? = some id := rfl

/-- The call that an expression is. -/
def Expr.call? : Expr → Option Call
  | .call c => some c
  | _ => none

namespace Places

/-- Looks up the places of what is nested inside a form, by the number of steps that the nesting
takes. -/
structure InnerLookups where
  exprAt : Nat → Datum → Lookup ShapeError Expr
  stmtAt : Nat → Datum → Lookup ShapeError Stmt
  typeAt : TypeLookup

namespace InnerLookups

/-- What is nested `n` steps deeper. -/
def deeper (inner : InnerLookups) (n : Nat) : InnerLookups where
  exprAt cost := inner.exprAt (cost + n)
  stmtAt cost := inner.stmtAt (cost + n)
  typeAt cost := inner.typeAt (cost + n)

/-- An expression. -/
def expr (inner : InnerLookups) (d : Datum) : Lookup ShapeError Expr := inner.exprAt 2 d

/-- A statement. -/
def stmt (inner : InnerLookups) (d : Datum) : Lookup ShapeError Stmt := inner.stmtAt 2 d

/-- A type. -/
def type (inner : InnerLookups) (d : Datum) : Lookup ShapeError GoType := inner.typeAt 2 d

/-- An object. -/
def object (inner : InnerLookups) (d : Datum) : Lookup ShapeError Object :=
  Places.object inner.typeAt d

/-- Expressions, first to last. -/
def exprs (inner : InnerLookups) (items : List Datum) : Lookup ShapeError (List Expr) :=
  items.mapM (inner.deeper 2).expr

/-- Statements, first to last. -/
def stmts (inner : InnerLookups) (items : List Datum) : Lookup ShapeError (List Stmt) :=
  items.mapM (inner.deeper 2).stmt

/-- The expression of an option that may be absent. -/
def exprOption (inner : InnerLookups) (options : Options) (key : String) :
    Lookup ShapeError (Option Expr) := do
  (← single? options key).mapM (inner.deeper 1).expr

/-- The statement of an option that may be absent. -/
def stmtOption (inner : InnerLookups) (options : Options) (key : String) :
    Lookup ShapeError (Option Stmt) := do
  (← single? options key).mapM (inner.deeper 1).stmt

/-- The type of an option that may be absent. -/
def typeOption (inner : InnerLookups) (options : Options) (key : String) :
    Lookup ShapeError (Option GoType) :=
  Places.typeOption inner.typeAt options key

/-- A block. -/
def block (inner : InnerLookups) (d : Datum) : Lookup ShapeError Block := do
  expectTag "block" 2 d
  let stmts ← (inner.deeper 1).stmts (← placesFrom d 2)
  return .mk stmts (← (← place d 1).asInt)

/-- The block under the option `body` that the form `tag` has to have. -/
def body (inner : InnerLookups) (options : Options) (tag : String) :
    Lookup ShapeError Block := do
  inner.block (← required options tag "body")

/-- A call that the form `tag` has to hold. -/
def call (inner : InnerLookups) (tag : String) (d : Datum) : Lookup ShapeError Call := do
  let x ← (inner.deeper 1).expr d
  if x.call?.isNone then throw (.notCall tag)
  x.call?

end InnerLookups

/-- The left-anchored forms along the leading operands of an expression, outermost first, and the
form at the end. -/
def spine (d : Datum) : Lookup ShapeError (List Datum × Datum) := do
  expect 1 d
  match leading? (← head d) with
  | none => return ([], d)
  | some leading => do
    expect (leading.place + 1) d
    let ⟨x, _⟩ ← d.part? leading.place
    let (outer, leaf) ← spine x
    return (d :: outer, leaf)
termination_by sizeOf d

/-- The form of an identifier. -/
def ident (inner : InnerLookups) (d : Datum) : Lookup ShapeError Ident := do
  expect 3 d
  let options ← optionsOf ["obj", "type"] (← placesFrom d 3)
  let obj ← single? options "obj"
  let name ← (← place d 1).asString
  let pos ← (← place d 2).asInt
  let obj ← obj.mapM inner.object
  return ⟨name, pos, obj, ← inner.typeOption options "type"⟩

/-- An expression that is not left-anchored. -/
def leafForm (inner : InnerLookups) (tag : String) (d : Datum) : Lookup ShapeError Expr := do
  match tag with
  | "ident" => return .ident (← ident inner d)
  | "lit" => do
    expect 4 d
    let options ← optionsOf ["type"] (← placesFrom d 4)
    let kind ← (← place d 1).asString
    let value ← (← place d 2).asString
    let pos ← (← place d 3).asInt
    return .basicLit kind value pos (← inner.typeOption options "type")
  | "composite" => do
    expect 2 d
    let options ← optionsOf ["elts", "type"] (← placesFrom d 2)
    let elts ← inner.exprs (options.getAll "elts")
    let lbrace ← (← place d 1).asInt
    return .compositeLit elts lbrace (← inner.typeOption options "type")
  | "func-lit" => do
    expect 3 d
    let options ← optionsOf ["type"] (← placesFrom d 3)
    let body ← inner.block (← place d 2)
    let pos ← (← place d 1).asInt
    return .funcLit body pos (← inner.typeOption options "type")
  | "paren" => do
    expect 3 d
    let options ← optionsOf ["type"] (← placesFrom d 3)
    let x ← inner.expr (← place d 2)
    let lparen ← (← place d 1).asInt
    return .paren x lparen (← inner.typeOption options "type")
  | "star" => do
    expect 3 d
    let options ← optionsOf ["type"] (← placesFrom d 3)
    let x ← inner.expr (← place d 2)
    let pos ← (← place d 1).asInt
    return .star x pos (← inner.typeOption options "type")
  | "unary" => do
    expect 4 d
    let options ← optionsOf ["type"] (← placesFrom d 4)
    let op ← (← place d 1).asString
    let x ← inner.expr (← place d 3)
    let pos ← (← place d 2).asInt
    return .unary op x pos (← inner.typeOption options "type")
  | "kv" => do
    expect 3 d
    let key ← inner.expr (← place d 1)
    return .keyValue key (← inner.expr (← place d 2))
  | "type-expr" => do
    expect 3 d
    let t ← inner.type (← place d 2)
    return .typeExpr t (← (← place d 1).asInt)
  | tag => throw (.unknownForm .expression tag)

/-- The selection of a selector that ends in `sel`. -/
def selection (inner : InnerLookups) (sel : Ident) (items : List Datum) :
    Lookup ShapeError Selection := do
  if items.length < 2 then throw .selectionShape
  let kind ← readSelectionKind (← items[0]?)
  let mut index : List Int := []
  if 2 < items.length then
    let d ← items[2]?
    expectTag "index" 0 d
    index ← (← placesFrom d 1).mapM fun i => (i.asInt : Shape Int)
  match sel.obj with
  | none => throw (.selectionWithoutObject sel.name)
  | some obj => return ⟨kind, ← inner.type (← items[1]?), obj, index⟩

/-- A left-anchored expression whose leading operand `x` is already known. The tag is looked up
among those of left-anchored forms. -/
def chainForm (inner : InnerLookups) (tag : String) (d : Datum) (x : Expr) :
    Lookup ShapeError Expr := do
  match tag with
  | "selector" => do
    expect 3 d
    let sel ← inner.expr (← place d 2)
    if sel.ident?.isNone then throw .selectorName
    let sel ← sel.ident?
    let options ← optionsOf ["selection", "type"] (← placesFrom d 3)
    let selection ← (options.get? "selection").mapM (selection inner sel)
    return .selector x sel selection (← inner.typeOption options "type")
  | "index" => do
    expect 4 d
    let (indices, options) ← splitOptions ["type"] (← placesFrom d 3)
    let indices ← inner.exprs indices
    let lbrack ← (← place d 2).asInt
    return .index x indices lbrack (← inner.typeOption options "type")
  | "slice" => do
    expect 3 d
    let options ← optionsOf ["low", "high", "max", "type"] (← placesFrom d 3)
    let lbrack ← (← place d 2).asInt
    let low ← inner.exprOption options "low"
    let high ← inner.exprOption options "high"
    let max ← inner.exprOption options "max"
    return .slice x lbrack low high max (← inner.typeOption options "type")
  | "assert" => do
    expect 3 d
    let options ← optionsOf ["asserted", "type"] (← placesFrom d 3)
    let asserted ← single? options "asserted"
    let lparen ← (← place d 2).asInt
    let asserted ← asserted.mapM inner.type
    return .typeAssert x lparen asserted (← inner.typeOption options "type")
  | "call" => do
    expect 4 d
    let (args, options) ← splitOptions ["type", "ellipsis"] (← placesFrom d 4)
    let ellipsis ← single? options "ellipsis"
    let args ← inner.exprs args
    let lparen ← (← place d 2).asInt
    let rparen ← (← place d 3).asInt
    let type ← inner.typeOption options "type"
    let ellipsis ← ellipsis.mapM fun d => (d.asInt : Shape Int)
    return .call (.mk x args lparen rparen type ellipsis)
  | "binary" => do
    expect 5 d
    let options ← optionsOf ["type"] (← placesFrom d 5)
    let op ← (← place d 1).asString
    let opPos ← (← place d 2).asInt
    let y ← inner.expr (← place d 4)
    return .binary op x y opPos (← inner.typeOption options "type")
  | _ => (none : Option Expr)

/-- An expression. -/
def exprWith (inner : InnerLookups) (d : Datum) : Lookup ShapeError Expr := do
  let (outer, leaf) ← spine d
  let x ← leafForm inner (← head leaf) leaf
  outer.reverse.foldlM (fun x form => do chainForm inner (← head form) form x) x

/-! ## Every place is found -/

end Places

/-- The lookups that do what readers do. -/
def InnerReaders.lookups (inner : InnerReaders) : Places.InnerLookups where
  exprAt cost d := found (inner.exprAt cost d)
  stmtAt cost d := found (inner.stmtAt cost d)
  typeAt cost d := found (inner.typeAt cost d)

namespace Places

namespace InnerLookups

variable (inner : InnerReaders)

@[simp] theorem deeper_lookups (n : Nat) :
    inner.lookups.deeper n = (inner.deeper n).lookups := rfl

@[simp] theorem expr_lookups : inner.lookups.expr = fun d => found (inner.expr d) := rfl

@[simp] theorem stmt_lookups : inner.lookups.stmt = fun d => found (inner.stmt d) := rfl

@[simp] theorem type_lookups : inner.lookups.type = fun d => found (inner.type d) := rfl

@[simp] theorem object_lookups : inner.lookups.object = fun d => found (inner.object d) :=
  object_eq inner.typeAt

@[simp] theorem exprs_lookups :
    inner.lookups.exprs = fun items => found (inner.exprs items) := by
  funext items
  simp [exprs, InnerReaders.exprs]

@[simp] theorem stmts_lookups (items : List Datum) :
    inner.lookups.stmts items = found (inner.stmts items) := by
  simp [stmts, InnerReaders.stmts]

@[simp] theorem exprOption_lookups (options : Options) (key : String) :
    inner.lookups.exprOption options key = found (inner.exprOption options key) := by
  simp [exprOption, InnerReaders.exprOption]

@[simp] theorem stmtOption_lookups (options : Options) (key : String) :
    inner.lookups.stmtOption options key = found (inner.stmtOption options key) := by
  simp [stmtOption, InnerReaders.stmtOption]

@[simp] theorem typeOption_lookups (options : Options) (key : String) :
    inner.lookups.typeOption options key = found (inner.typeOption options key) :=
  typeOption_eq inner.typeAt options key

@[simp] theorem block_lookups : inner.lookups.block = fun d => found (inner.block d) := by
  funext d
  refine bind_tagged ?_
  rintro ⟨tag, args⟩ rfl hlength
  obtain ⟨lbrace, rest, rfl⟩ := exists_operand hlength
  simp [Form.operand]

@[simp] theorem body_lookups (options : Options) (tag : String) :
    inner.lookups.body options tag = found (inner.body options tag) := by
  simp [body, InnerReaders.body]

@[simp] theorem call_lookups (tag : String) (d : Datum) :
    inner.lookups.call tag d = found (inner.call tag d) := by
  simp only [call, InnerReaders.call, deeper_lookups, expr_lookups, found_bind]
  congr 1
  funext x
  cases x <;> rfl

end InnerLookups

section

variable (inner : InnerReaders)

@[simp] theorem ident_eq (form : Form) :
    ident inner.lookups form.datum = found (readIdent inner form) := by
  refine bind_operands2 ?_
  intro name pos rest hargs
  simp [hargs]

theorem leafForm_eq (form : Form) :
    leafForm inner.lookups form.tag form.datum = found (readLeaf inner form) := by
  obtain ⟨tag, args⟩ := form
  unfold leafForm readLeaf
  dsimp only
  split
  · simp
  · refine bind_operands3 ?_
    rintro kind value pos rest rfl
    simp
  · refine bind_operand ?_
    rintro lbrace rest rfl
    simp
  · refine bind_operands2 ?_
    rintro pos body rest rfl
    simp
  · refine bind_operands2 ?_
    rintro lparen x rest rfl
    simp
  · refine bind_operands2 ?_
    rintro pos x rest rfl
    simp
  · refine bind_operands3 ?_
    rintro op pos x rest rfl
    simp
  · refine bind_operands2 ?_
    rintro key value rest rfl
    simp
  · refine bind_operands2 ?_
    rintro pos t rest rfl
    simp
  · simp

@[simp] theorem selection_eq (sel : Ident) :
    selection inner.lookups sel = fun items => found (readSelection inner sel items) := by
  funext items
  unfold selection readSelection
  rcases items with _ | ⟨kind, _ | ⟨recv, _ | ⟨d, rest⟩⟩⟩
  · rfl
  · rfl
  · cases sel.obj <;> simp
  · have hlength : ¬rest.length + 1 + 1 + 1 < 2 := by omega
    cases sel.obj <;> simp [hlength]

/-- The tags of left-anchored forms. -/
theorem tag_of_leading {tag : String} (h : (leading? tag).isSome) :
    tag = "selector" ∨ tag = "index" ∨ tag = "slice" ∨ tag = "assert" ∨ tag = "call" ∨
      tag = "binary" := by
  unfold leading? at h
  split at h
  · simp at *
    tauto
  · split at h
    · simp at *
      tauto
    · simp at h

theorem chainForm_eq (form : Form) (x : Expr) (h : (leading? form.tag).isSome) :
    chainForm inner.lookups form.tag form.datum x = found (readChain inner form x) := by
  obtain ⟨tag, args⟩ := form
  unfold chainForm readChain
  dsimp only
  split
  · refine bind_operands2 ?_
    rintro _ sel rest rfl
    simp only [place_datum, List.getElem?_cons_succ, List.getElem?_cons_zero, liftM_some_lookup,
      pure_bind, InnerLookups.expr_lookups, found_bind]
    congr 1
    funext x
    cases x <;> simp [Expr.ident?]
  · refine bind_operands3 ?_
    rintro _ lbrack first rest rfl
    simp
  · refine bind_operands2 ?_
    rintro _ lbrack rest rfl
    simp
  · refine bind_operands2 ?_
    rintro _ lparen rest rfl
    simp
  · refine bind_operands3 ?_
    rintro _ lparen rparen rest rfl
    simp
  · refine bind_operands4 ?_
    rintro op opPos _ y rest rfl
    simp
  · rename_i hselector hindex hslice hassert hcall hbinary
    rcases tag_of_leading h with rfl | rfl | rfl | rfl | rfl | rfl
    · exact absurd rfl hselector
    · exact absurd rfl hindex
    · exact absurd rfl hslice
    · exact absurd rfl hassert
    · exact absurd rfl hcall
    · exact absurd rfl hbinary

end

/-! ## Spines -/

theorem spine_leaf (form : Form) (h : leading? form.tag = none) :
    spine form.datum = pure ([], form.datum) := by
  rw [spine, expect_datum, head_datum, atLeast_eq_pure (by omega)]
  simp [h]

/-- A left-anchored form that is too short to have a leading operand. -/
theorem spine_short (form : Form) {leading : Leading} (h : leading? form.tag = some leading)
    (hlength : form.args.length < leading.place) :
    spine form.datum = throw (form.tooShort (leading.place + 1)) := by
  rw [spine, expect_datum, head_datum, atLeast_eq_pure (by omega)]
  simp [h, Form.atLeast, hlength]

/-- A left-anchored form with a leading operand. -/
theorem spine_datum (form : Form) {leading : Leading} (h : leading? form.tag = some leading)
    {i : Nat} (hi : leading.place = i + 1) {x : Datum} (hx : form.args[i]? = some x) :
    spine form.datum = spine x >>= fun (outer, leaf) => return (form.datum :: outer, leaf) := by
  obtain ⟨hlength, rfl⟩ := List.getElem?_eq_some_iff.mp hx
  have hpart : ∃ part, part.1 = form.args[i] ∧ form.datum.part? (i + 1) = some part :=
    ⟨_, rfl, dif_pos (Nat.succ_lt_succ hlength)⟩
  obtain ⟨⟨x, hlt⟩, rfl, hpart⟩ := hpart
  rw [spine, expect_datum, head_datum, atLeast_eq_pure (by omega)]
  simp only [liftM_pure_lookup, pure_bind, h, expect_datum, hi]
  rw [atLeast_eq_pure (by omega), hpart]
  rfl

/-- Following the leading operands finds the forms along them. -/
theorem spine_eq (d : Datum) :
    spine d = liftM (UncheckedErrors.spine d) >>= fun (outer, leaf) =>
      return (outer.map Form.datum, leaf.datum) := by
  fun_induction UncheckedErrors.spine d with
  | case1 tag args h => exact spine_leaf ⟨tag, args⟩ h
  | case2 tag x rest h ih =>
    have hspine := spine_datum ⟨tag, x :: rest⟩ h rfl rfl
    rw [ih] at hspine
    exact hspine.trans (by simp)
  | case3 tag op pos x rest h ih =>
    have hspine := spine_datum ⟨tag, op :: pos :: x :: rest⟩ h rfl rfl
    rw [ih] at hspine
    exact hspine.trans (by simp)
  | case4 tag h => exact spine_short ⟨tag, []⟩ h Nat.zero_lt_one
  | case5 tag args hargs h =>
    have hlength : args.length < 3 := by
      rcases args with _ | ⟨op, _ | ⟨pos, _ | ⟨x, rest⟩⟩⟩
      · simp
      · simp
      · simp
      · exact (hargs op pos x rest rfl).elim
    exact spine_short ⟨tag, args⟩ h hlength
  | case6 =>
    rw [spine]
    rfl
  | case7 x args hx =>
    rcases form_or_notSymbol x args with ⟨form, hform⟩ | hx'
    · cases hform
      exact (hx form.tag rfl).elim
    · rw [spine, head_of_notSymbol hx']
      rfl
  | case8 d hform hnil hcons =>
    cases d with
    | list items =>
      cases items with
      | nil => exact (hnil rfl).elim
      | cons x args => exact (hcons x args rfl).elim
    | symbol | string | int | real | brackets | quoted =>
      rw [spine]
      rfl

/-- Reading the forms of a spine, one around the other. -/
theorem foldlM_chainForm (inner : InnerReaders) {outer : List Form}
    (h : ∀ form ∈ outer, (leading? form.tag).isSome) (x : Expr) :
    (outer.map Form.datum).foldlM
        (fun x form => head form >>= fun tag => chainForm inner.lookups tag form x) x =
      found (outer.foldlM (fun x form => readChain inner form x) x) := by
  induction outer generalizing x with
  | nil => rfl
  | cons form outer ih =>
    obtain ⟨hform, houter⟩ := List.forall_mem_cons.mp h
    simp only [List.map_cons, List.foldlM_cons, found_bind, head_datum, pure_bind,
      chainForm_eq inner form x hform, ih houter]

theorem exprWith_eq (inner : InnerReaders) (d : Datum) :
    exprWith inner.lookups d = found (readExprWith inner d) := by
  unfold exprWith readExprWith
  rw [spine_eq, found_bind, found_liftM]
  cases h : UncheckedErrors.spine d with
  | error e => rfl
  | ok p =>
    obtain ⟨outer, leaf⟩ := p
    have houter : ∀ form ∈ outer.reverse, (leading? form.tag).isSome := by
      simpa using leading_of_spine h
    simp only [liftM_ok_lookup, pure_bind, head_datum, leafForm_eq, ← List.map_reverse,
      foldlM_chainForm inner houter, found_bind]

end Places

end UncheckedErrors
