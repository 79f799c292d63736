import UncheckedErrors.Proofs.Places.Expressions

/-!
# Statements and declarations by places

The readers of statements and declarations, written with lookups by number
(`Places.stmtForm_eq`, `Places.decl_eq`). The names of a variable declaration are checked to be
identifiers before the first of them is looked up (`Places.valueSpec_eq`).

`Places.lookupsWithin_eq` closes the circle of expressions, statements and declarations by
induction on the steps at hand.
-/

namespace UncheckedErrors

namespace Places

/-- One declaration of variables or constants. -/
def valueSpec (inner : InnerLookups) (d : Datum) : Lookup ShapeError ValueSpec := do
  expectTag "value-spec" 0 d
  let options ← optionsOf ["names", "values", "type"] (← placesFrom d 1)
  let names ← inner.exprs (options.getAll "names")
  if names.isEmpty || names.any (·.ident?.isNone) then throw .namesRequired
  let name ← (← names[0]?).ident?
  let others ← (names.drop 1).mapM (·.ident?)
  let values ← inner.exprs (options.getAll "values")
  return .mk name others values (← inner.typeOption options "type")

/-- A group of declarations. -/
def genDecl (inner : InnerLookups) (d : Datum) : Lookup ShapeError GenDecl := do
  expectTag "gen-decl" 3 d
  let tok ← (← place d 1).asString
  let specs ← (← placesFrom d 3).mapM (valueSpec (inner.deeper 2))
  return .mk tok specs (← (← place d 2).asInt)

/-- A form of a statement. -/
def stmtForm (inner : InnerLookups) (tag : String) (d : Datum) : Lookup ShapeError Stmt := do
  match tag with
  | "block" => return .block (← inner.block d)
  | "expr-stmt" => do
    expect 2 d
    return .expr (← inner.expr (← place d 1))
  | "go" => do
    expect 3 d
    let c ← inner.call "go" (← place d 2)
    return .goStmt c (← (← place d 1).asInt)
  | "defer" => do
    expect 3 d
    let c ← inner.call "defer" (← place d 2)
    return .deferStmt c (← (← place d 1).asInt)
  | "return" => do
    expect 2 d
    let results ← inner.exprs (← placesFrom d 2)
    return .returnStmt results (← (← place d 1).asInt)
  | "assign" => do
    expect 5 d
    let lhs ← place d 3
    expectTag "lhs" 0 lhs
    let rhs ← place d 4
    expectTag "rhs" 0 rhs
    let lhs ← inner.exprs (← placesFrom lhs 1)
    let tok ← (← place d 1).asString
    let tokPos ← (← place d 2).asInt
    return .assign lhs tok tokPos (← inner.exprs (← placesFrom rhs 1))
  | "empty" => do
    expect 2 d
    return .empty (← (← place d 1).asInt)
  | "labeled" => do
    expect 4 d
    let label ← readLabel (← place d 1) (← place d 2)
    return .labeled label (← inner.stmt (← place d 3))
  | "send" => do
    expect 4 d
    let chan ← inner.expr (← place d 2)
    let value ← inner.expr (← place d 3)
    return .send chan value (← (← place d 1).asInt)
  | "incdec" => do
    expect 4 d
    let x ← inner.expr (← place d 3)
    let tok ← (← place d 1).asString
    return .incDec x tok (← (← place d 2).asInt)
  | "branch" => do
    expect 3 d
    let pos ← place d 2
    let label ← (← placeIfAny d 3).mapM fun name => (readLabel name pos : Shape Ident)
    let tok ← (← place d 1).asString
    return .branch tok (← (← place d 2).asInt) label
  | "if" => do
    expect 2 d
    let options ← optionsOf ["init", "cond", "body", "else"] (← placesFrom d 2)
    let cond ← inner.expr (← required options "if" "cond")
    let body ← inner.body options "if"
    let pos ← (← place d 1).asInt
    let init ← inner.stmtOption options "init"
    return .ifStmt cond body pos init (← inner.stmtOption options "else")
  | "for" => do
    expect 2 d
    let options ← optionsOf ["init", "cond", "post", "body"] (← placesFrom d 2)
    let body ← inner.body options "for"
    let pos ← (← place d 1).asInt
    let init ← inner.stmtOption options "init"
    let cond ← inner.exprOption options "cond"
    return .forStmt body pos init cond (← inner.stmtOption options "post")
  | "range" => do
    expect 3 d
    let options ← optionsOf ["key", "value", "x", "body"] (← placesFrom d 3)
    let x ← inner.expr (← required options "range" "x")
    let body ← inner.body options "range"
    let pos ← (← place d 1).asInt
    let key ← inner.exprOption options "key"
    let value ← inner.exprOption options "value"
    return .rangeStmt x body pos key value (← (← place d 2).asString)
  | "switch" => do
    expect 2 d
    let options ← optionsOf ["init", "tag", "body"] (← placesFrom d 2)
    let body ← inner.body options "switch"
    let pos ← (← place d 1).asInt
    let init ← inner.stmtOption options "init"
    return .switchStmt body pos init (← inner.exprOption options "tag")
  | "type-switch" => do
    expect 2 d
    let options ← optionsOf ["init", "assign", "body"] (← placesFrom d 2)
    let assign ← inner.stmt (← required options "type-switch" "assign")
    let body ← inner.body options "type-switch"
    let pos ← (← place d 1).asInt
    return .typeSwitch assign body pos (← inner.stmtOption options "init")
  | "select" => do
    expect 2 d
    let options ← optionsOf ["body"] (← placesFrom d 2)
    let body ← inner.body options "select"
    return .selectStmt body (← (← place d 1).asInt)
  | "case" => do
    expect 2 d
    let (body, options) ← splitOptions ["list"] (← placesFrom d 2)
    let exprs ← (options.get? "list").mapM inner.exprs
    let body ← inner.stmts body
    return .caseClause exprs body (← (← place d 1).asInt)
  | "comm" => do
    expect 2 d
    let (body, options) ← splitOptions ["on"] (← placesFrom d 2)
    let comm ← inner.stmtOption options "on"
    let body ← inner.stmts body
    return .commClause comm body (← (← place d 1).asInt)
  | "decl-stmt" => do
    expect 2 d
    return .decl (← genDecl (inner.deeper 1) (← place d 1))
  | tag => throw (.unknownForm .statement tag)

/-- A statement. -/
def stmtWith (inner : InnerLookups) (d : Datum) : Lookup ShapeError Stmt := do
  expect 1 d
  stmtForm inner (← head d) d

/-- What is nested in forms, with `steps` steps at hand. -/
def lookupsWithin : Nat → Nat → InnerLookups
  | 0, _ => ⟨fun _ _ => throw .tooDeep, fun _ _ => throw .tooDeep, fun _ _ => throw .tooDeep⟩
  | depth + 1, steps => {
      exprAt cost d :=
        Lookup.within (steps - cost) (exprWith (lookupsWithin depth (steps - cost)) d)
      stmtAt cost d :=
        Lookup.within (steps - cost) (stmtWith (lookupsWithin depth (steps - cost)) d)
      typeAt := typesWithin steps }

/-- What is nested in a declaration at the top of a file. -/
def topLookups : InnerLookups := (lookupsWithin stepLimit stepLimit).deeper 5

/-- The declaration of a function. -/
def funcDecl (inner : InnerLookups) (d : Datum) : Lookup ShapeError FuncDecl := do
  expect 3 d
  let options ← optionsOf ["recv", "body"] (← placesFrom d 3)
  let recv ← single? options "recv"
  let body ← single? options "body"
  let name ← (← place d 1).asString
  let pos ← (← place d 2).asInt
  let body ← body.mapM inner.block
  return ⟨⟨name, pos, none, none⟩, pos, body, ← recv.mapM inner.type⟩

/-- A declaration at the top of a file. -/
def decl (d : Datum) : Lookup ShapeError Decl := do
  expect 1 d
  match ← head d with
  | "func-decl" => return .func (← funcDecl topLookups d)
  | "gen-decl" => return .gen (← genDecl topLookups d)
  | tag => throw (.unknownForm .declaration tag)

/-! ## Every place is found -/

section

variable (inner : InnerReaders)

theorem exists_of_identsOf?_eq_none {xs : List Expr} (h : identsOf? xs = none) :
    ∃ x ∈ xs, x.ident? = none := by
  fun_induction identsOf? xs with
  | case1 => cases h
  | case2 id xs ih =>
    obtain ⟨x, hx, hnone⟩ := ih (Option.map_eq_none_iff.mp h)
    exact ⟨x, List.mem_cons_of_mem _ hx, hnone⟩
  | case3 x xs hx =>
    cases x with
    | ident id => exact (hx id rfl).elim
    | _ => exact ⟨_, List.mem_cons_self, rfl⟩

@[simp] theorem valueSpec_eq :
    valueSpec inner.lookups = fun d => found (readValueSpec inner d) := by
  funext d
  refine bind_tagged ?_
  rintro form rfl -
  simp only [placesFrom_datum, List.drop_zero, pure_bind, optionsOf_eq, found_bind, found_liftM,
    InnerLookups.exprs_lookups]
  congr 1
  funext options
  congr 1
  funext names
  cases h : identsOf? names with
  | none => simp [exists_of_identsOf?_eq_none h]
  | some ids =>
    rw [eq_map_of_identsOf? h]
    cases ids with
    | nil => simp
    | cons name others =>
      have hothers : others.mapM (fun id => (pure id : Lookup ShapeError Ident)) = pure others :=
        (List.mapM_pure (f := id)).trans (by rw [List.map_id])
      simp [Function.comp_def, hothers]

@[simp] theorem genDecl_eq (d : Datum) :
    genDecl inner.lookups d = found (readGenDecl inner d) := by
  refine bind_tagged ?_
  rintro ⟨tag, args⟩ rfl hlength
  obtain ⟨tok, pos, specs, rfl⟩ := exists_operands2 hlength
  simp [Form.operands2]

theorem stmtForm_eq (form : Form) :
    stmtForm inner.lookups form.tag form.datum = found (readStmtForm inner form) := by
  obtain ⟨tag, args⟩ := form
  unfold stmtForm readStmtForm
  dsimp only
  split
  · simp [readBlockStmt, Form.datum]
  · refine bind_operand ?_
    rintro x rest rfl
    simp
  · refine bind_operands2 ?_
    rintro pos c rest rfl
    simp
  · refine bind_operands2 ?_
    rintro pos c rest rfl
    simp
  · refine bind_operand ?_
    rintro pos results rfl
    simp
  · refine bind_operands4 ?_
    rintro tok tokPos lhs rhs rest rfl
    simp only [place_datum, List.getElem?_cons_succ, List.getElem?_cons_zero, liftM_some_lookup,
      pure_bind]
    refine bind_tagged ?_
    rintro lhs rfl -
    refine bind_tagged ?_
    rintro rhs rfl -
    simp
  · refine bind_operand ?_
    rintro pos rest rfl
    simp
  · refine bind_operands3 ?_
    rintro name pos s rest rfl
    simp
  · refine bind_operands3 ?_
    rintro arrow chan value rest rfl
    simp
  · refine bind_operands3 ?_
    rintro tok tokPos x rest rfl
    simp
  · refine bind_operands2 ?_
    rintro tok pos rest rfl
    simp [List.head?_eq_getElem?]
  · refine bind_operand ?_
    rintro pos rest rfl
    simp
  · refine bind_operand ?_
    rintro pos rest rfl
    simp
  · refine bind_operands2 ?_
    rintro pos tok rest rfl
    simp
  · refine bind_operand ?_
    rintro pos rest rfl
    simp
  · refine bind_operand ?_
    rintro pos rest rfl
    simp
  · refine bind_operand ?_
    rintro pos rest rfl
    simp
  · refine bind_operand ?_
    rintro pos rest rfl
    simp
  · refine bind_operand ?_
    rintro pos rest rfl
    simp
  · refine bind_operand ?_
    rintro d rest rfl
    simp
  · simp

theorem stmtWith_eq (d : Datum) :
    stmtWith inner.lookups d = found (readStmtWith inner d) := by
  refine bind_ofDatum (by decide) ?_
  rintro form rfl -
  exact stmtForm_eq inner form

@[simp] theorem funcDecl_eq (form : Form) :
    funcDecl inner.lookups form.datum = found (readFuncDecl inner form) := by
  refine bind_operands2 ?_
  intro name pos rest hargs
  simp [hargs]

end

theorem lookupsWithin_eq (depth steps : Nat) :
    lookupsWithin depth steps = (readersWithin depth steps).lookups := by
  induction depth generalizing steps with
  | zero => rfl
  | succ depth ih =>
    simp only [lookupsWithin, readersWithin, ih, exprWith_eq, stmtWith_eq, found_within,
      typesWithin_eq]
    rfl

theorem topLookups_eq : topLookups = topReaders.lookups := by
  rw [topLookups, lookupsWithin_eq, InnerLookups.deeper_lookups]
  rfl

@[simp] theorem decl_eq : decl = fun d => found (readDecl d) := by
  funext d
  refine bind_ofDatum (by decide) ?_
  rintro ⟨tag, args⟩ rfl -
  dsimp only
  rw [topLookups_eq]
  split
  · simp
  · simp [Form.datum]
  · simp

end Places

end UncheckedErrors
