import UncheckedErrors.Dump.Types
import UncheckedErrors.Tree.Basic

/-!
# Reading trees

Readers for expressions, statements and declarations. What is nested inside a form is read by
readers with fewer steps at hand; `readersWithin` ties them together.

A left-anchored expression (a selector, index, slice, assertion, call or binary operation) nests
along its leading operand. `spine` follows these operands down to the innermost form; the
expression is then built from the innermost operand outwards, so the length of the spine takes no
steps.
-/

namespace UncheckedErrors

/-- Readers for what is nested inside a form, by the number of steps that the nesting takes. -/
structure InnerReaders where
  exprAt : Nat → Datum → Reader Expr
  stmtAt : Nat → Datum → Reader Stmt
  typeAt : TypeReader

namespace InnerReaders

/-- The readers for what is nested `n` steps deeper. -/
def deeper (inner : InnerReaders) (n : Nat) : InnerReaders where
  exprAt cost := inner.exprAt (cost + n)
  stmtAt cost := inner.stmtAt (cost + n)
  typeAt cost := inner.typeAt (cost + n)

/-- An expression. -/
def expr (inner : InnerReaders) (d : Datum) : Reader Expr := inner.exprAt 2 d

/-- A statement. -/
def stmt (inner : InnerReaders) (d : Datum) : Reader Stmt := inner.stmtAt 2 d

/-- A type. -/
def type (inner : InnerReaders) (d : Datum) : Reader GoType := inner.typeAt 2 d

/-- An object. -/
def object (inner : InnerReaders) (d : Datum) : Reader Object := readObject inner.typeAt d

/-- Expressions, first to last. -/
def exprs (inner : InnerReaders) (items : List Datum) : Reader (List Expr) :=
  items.mapM (inner.deeper 2).expr

/-- Statements, first to last. -/
def stmts (inner : InnerReaders) (items : List Datum) : Reader (List Stmt) :=
  items.mapM (inner.deeper 2).stmt

/-- The expression of an option that may be absent. -/
def exprOption (inner : InnerReaders) (options : Options) (key : String) :
    Reader (Option Expr) := do
  (← options.single? key).mapM (inner.deeper 1).expr

/-- The statement of an option that may be absent. -/
def stmtOption (inner : InnerReaders) (options : Options) (key : String) :
    Reader (Option Stmt) := do
  (← options.single? key).mapM (inner.deeper 1).stmt

/-- The type of an option that may be absent. -/
def typeOption (inner : InnerReaders) (options : Options) (key : String) :
    Reader (Option GoType) :=
  readTypeOption inner.typeAt options key

/-- A block. -/
def block (inner : InnerReaders) (d : Datum) : Reader Block := do
  let form ← Form.tagged "block" 2 d
  let (lbrace, rest) ← form.operand
  let stmts ← (inner.deeper 1).stmts rest
  return .mk stmts (← lbrace.asInt)

/-- The block under the option `body` that the form `tag` has to have. -/
def body (inner : InnerReaders) (options : Options) (tag : String) : Reader Block := do
  inner.block (← options.required tag "body")

/-- A call that the form `tag` has to hold. -/
def call (inner : InnerReaders) (tag : String) (d : Datum) : Reader Call := do
  match ← (inner.deeper 1).expr d with
  | .call c => return c
  | _ => throw (.notCall tag)

end InnerReaders

/-! ## Expressions -/

/-- Where the leading operand of a left-anchored form stands. -/
inductive Leading where
  /-- It follows the tag. -/
  | first
  /-- It follows an operator and a position. -/
  | third
  deriving DecidableEq, Repr

/-- The left-anchored forms. -/
def leading? (tag : String) : Option Leading :=
  if ["selector", "index", "slice", "assert", "call"].contains tag then some .first
  else if tag == "binary" then some .third
  else none

/-- The left-anchored forms along the leading operands of an expression, outermost first, and the
form at the end. -/
def spine : Datum → Shape (List Form × Form)
  | .list (.symbol tag :: args) =>
    match leading? tag, args with
    | none, args => return ([], ⟨tag, args⟩)
    | some .first, x :: rest => do
      let (outer, leaf) ← spine x
      return (⟨tag, x :: rest⟩ :: outer, leaf)
    | some .third, op :: pos :: x :: rest => do
      let (outer, leaf) ← spine x
      return (⟨tag, op :: pos :: x :: rest⟩ :: outer, leaf)
    | some .first, [] => throw (.tooShort tag 2 1)
    | some .third, args => throw (.tooShort tag 4 (args.length + 1))
  | .list [] => throw (.tooShort "" 1 0)
  | .list (head :: _) => throw (.notSymbol head)
  | d => throw (.notList none d)

/-- The form of an identifier. -/
def readIdent (inner : InnerReaders) (form : Form) : Reader Ident := do
  let (name, pos, rest) ← form.operands2
  let options ← optionsOf ["obj", "type"] rest
  let obj ← options.single? "obj"
  let name ← name.asString
  let pos ← pos.asInt
  let obj ← obj.mapM inner.object
  return ⟨name, pos, obj, ← inner.typeOption options "type"⟩

/-- An expression that is not left-anchored. -/
def readLeaf (inner : InnerReaders) (form : Form) : Reader Expr := do
  match form.tag with
  | "ident" => return .ident (← readIdent inner form)
  | "lit" => do
    let (kind, value, pos, rest) ← form.operands3
    let options ← optionsOf ["type"] rest
    let kind ← kind.asString
    let value ← value.asString
    let pos ← pos.asInt
    return .basicLit kind value pos (← inner.typeOption options "type")
  | "composite" => do
    let (lbrace, rest) ← form.operand
    let options ← optionsOf ["elts", "type"] rest
    let elts ← inner.exprs (options.getAll "elts")
    let lbrace ← lbrace.asInt
    return .compositeLit elts lbrace (← inner.typeOption options "type")
  | "func-lit" => do
    let (pos, body, rest) ← form.operands2
    let options ← optionsOf ["type"] rest
    let body ← inner.block body
    let pos ← pos.asInt
    return .funcLit body pos (← inner.typeOption options "type")
  | "paren" => do
    let (lparen, x, rest) ← form.operands2
    let options ← optionsOf ["type"] rest
    let x ← inner.expr x
    let lparen ← lparen.asInt
    return .paren x lparen (← inner.typeOption options "type")
  | "star" => do
    let (pos, x, rest) ← form.operands2
    let options ← optionsOf ["type"] rest
    let x ← inner.expr x
    let pos ← pos.asInt
    return .star x pos (← inner.typeOption options "type")
  | "unary" => do
    let (op, pos, x, rest) ← form.operands3
    let options ← optionsOf ["type"] rest
    let op ← op.asString
    let x ← inner.expr x
    let pos ← pos.asInt
    return .unary op x pos (← inner.typeOption options "type")
  | "kv" => do
    let (key, value, _) ← form.operands2
    let key ← inner.expr key
    return .keyValue key (← inner.expr value)
  | "type-expr" => do
    let (pos, t, _) ← form.operands2
    let t ← inner.type t
    return .typeExpr t (← pos.asInt)
  | tag => throw (.unknownForm .expression tag)

/-- The kind of a selection. -/
def readSelectionKind (d : Datum) : Shape SelectionKind := do
  match ← d.asString with
  | "field-val" => return .fieldVal
  | "method-val" => return .methodVal
  | "method-expr" => return .methodExpr
  | kind => throw (.unknownSelectionKind kind)

/-- The selection of a selector that ends in `sel`. -/
def readSelection (inner : InnerReaders) (sel : Ident) (items : List Datum) :
    Reader Selection := do
  match items with
  | kind :: recv :: rest => do
    let kind ← readSelectionKind kind
    let index ←
      match rest with
      | [] => pure []
      | d :: _ => do (← Form.tagged "index" 0 d).args.mapM fun i => (i.asInt : Shape Int)
    match sel.obj with
    | none => throw (.selectionWithoutObject sel.name)
    | some obj => return ⟨kind, ← inner.type recv, obj, index⟩
  | _ => throw .selectionShape

/-- A left-anchored expression whose leading operand `x` is already read. -/
def readChain (inner : InnerReaders) (form : Form) (x : Expr) : Reader Expr := do
  match form.tag with
  | "selector" => do
    let (_, sel, rest) ← form.operands2
    match ← inner.expr sel with
    | .ident sel => do
      let options ← optionsOf ["selection", "type"] rest
      let selection ← (options.get? "selection").mapM (readSelection inner sel)
      return .selector x sel selection (← inner.typeOption options "type")
    | _ => throw .selectorName
  | "index" => do
    let (_, lbrack, first, rest) ← form.operands3
    let (indices, options) ← splitOptions ["type"] (first :: rest)
    let indices ← inner.exprs indices
    let lbrack ← lbrack.asInt
    return .index x indices lbrack (← inner.typeOption options "type")
  | "slice" => do
    let (_, lbrack, rest) ← form.operands2
    let options ← optionsOf ["low", "high", "max", "type"] rest
    let lbrack ← lbrack.asInt
    let low ← inner.exprOption options "low"
    let high ← inner.exprOption options "high"
    let max ← inner.exprOption options "max"
    return .slice x lbrack low high max (← inner.typeOption options "type")
  | "assert" => do
    let (_, lparen, rest) ← form.operands2
    let options ← optionsOf ["asserted", "type"] rest
    let asserted ← options.single? "asserted"
    let lparen ← lparen.asInt
    let asserted ← asserted.mapM inner.type
    return .typeAssert x lparen asserted (← inner.typeOption options "type")
  | "call" => do
    let (_, lparen, rparen, rest) ← form.operands3
    let (args, options) ← splitOptions ["type", "ellipsis"] rest
    let ellipsis ← options.single? "ellipsis"
    let args ← inner.exprs args
    let lparen ← lparen.asInt
    let rparen ← rparen.asInt
    let type ← inner.typeOption options "type"
    let ellipsis ← ellipsis.mapM fun d => (d.asInt : Shape Int)
    return .call (.mk x args lparen rparen type ellipsis)
  | "binary" => do
    let (op, opPos, _, y, rest) ← form.operands4
    let options ← optionsOf ["type"] rest
    let op ← op.asString
    let opPos ← opPos.asInt
    let y ← inner.expr y
    return .binary op x y opPos (← inner.typeOption options "type")
  | tag => throw (.unknownForm .expression tag)

/-- An expression whose nested parts are read by `inner`. -/
def readExprWith (inner : InnerReaders) (d : Datum) : Reader Expr := do
  let (outer, leaf) ← spine d
  let x ← readLeaf inner leaf
  outer.reverse.foldlM (fun x form => readChain inner form x) x

/-! ## Declarations inside functions -/

/-- The identifiers that expressions are, if all of them are. -/
def identsOf? : List Expr → Option (List Ident)
  | [] => some []
  | .ident id :: xs => (identsOf? xs).map (id :: ·)
  | _ :: _ => none

/-- One declaration of variables or constants. -/
def readValueSpec (inner : InnerReaders) (d : Datum) : Reader ValueSpec := do
  let form ← Form.tagged "value-spec" 0 d
  let options ← optionsOf ["names", "values", "type"] form.args
  match identsOf? (← inner.exprs (options.getAll "names")) with
  | some (name :: others) => do
    let values ← inner.exprs (options.getAll "values")
    return .mk name others values (← inner.typeOption options "type")
  | _ => throw .namesRequired

/-- A group of declarations. -/
def readGenDecl (inner : InnerReaders) (d : Datum) : Reader GenDecl := do
  let form ← Form.tagged "gen-decl" 3 d
  let (tok, pos, specs) ← form.operands2
  let tok ← tok.asString
  let specs ← specs.mapM (readValueSpec (inner.deeper 2))
  return .mk tok specs (← pos.asInt)

/-! ## Statements -/

/-- The label of a branch statement. -/
def readLabel (name pos : Datum) : Shape Ident := do
  let name ← name.asString
  return ⟨name, ← pos.asInt, none, none⟩

section

variable (inner : InnerReaders) (form : Form)

def readBlockStmt : Reader Stmt := do
  return .block (← inner.block (.list (.symbol form.tag :: form.args)))

def readExprStmt : Reader Stmt := do
  let (x, _) ← form.operand
  return .expr (← inner.expr x)

/-- A statement headed `tag` that starts a call, and is made by `make`. -/
def readStart (tag : String) (make : Call → Int → Stmt) : Reader Stmt := do
  let (pos, c, _) ← form.operands2
  let c ← inner.call tag c
  return make c (← pos.asInt)

def readReturn : Reader Stmt := do
  let (pos, results) ← form.operand
  let results ← inner.exprs results
  return .returnStmt results (← pos.asInt)

def readAssign : Reader Stmt := do
  let (tok, tokPos, lhs, rhs, _) ← form.operands4
  let lhs ← Form.tagged "lhs" 0 lhs
  let rhs ← Form.tagged "rhs" 0 rhs
  let lhs ← inner.exprs lhs.args
  let tok ← tok.asString
  let tokPos ← tokPos.asInt
  return .assign lhs tok tokPos (← inner.exprs rhs.args)

def readEmpty : Reader Stmt := do
  let (pos, _) ← form.operand
  return .empty (← pos.asInt)

def readLabeled : Reader Stmt := do
  let (name, pos, s, _) ← form.operands3
  let label ← readLabel name pos
  return .labeled label (← inner.stmt s)

def readSend : Reader Stmt := do
  let (arrow, chan, value, _) ← form.operands3
  let chan ← inner.expr chan
  let value ← inner.expr value
  return .send chan value (← arrow.asInt)

def readIncDec : Reader Stmt := do
  let (tok, tokPos, x, _) ← form.operands3
  let x ← inner.expr x
  let tok ← tok.asString
  return .incDec x tok (← tokPos.asInt)

def readBranch : Reader Stmt := do
  let (tok, pos, rest) ← form.operands2
  let label ← rest.head?.mapM fun name => (readLabel name pos : Shape Ident)
  let tok ← tok.asString
  return .branch tok (← pos.asInt) label

def readIf : Reader Stmt := do
  let (pos, rest) ← form.operand
  let options ← optionsOf ["init", "cond", "body", "else"] rest
  let cond ← inner.expr (← options.required "if" "cond")
  let body ← inner.body options "if"
  let pos ← pos.asInt
  let init ← inner.stmtOption options "init"
  return .ifStmt cond body pos init (← inner.stmtOption options "else")

def readFor : Reader Stmt := do
  let (pos, rest) ← form.operand
  let options ← optionsOf ["init", "cond", "post", "body"] rest
  let body ← inner.body options "for"
  let pos ← pos.asInt
  let init ← inner.stmtOption options "init"
  let cond ← inner.exprOption options "cond"
  return .forStmt body pos init cond (← inner.stmtOption options "post")

def readRange : Reader Stmt := do
  let (pos, tok, rest) ← form.operands2
  let options ← optionsOf ["key", "value", "x", "body"] rest
  let x ← inner.expr (← options.required "range" "x")
  let body ← inner.body options "range"
  let pos ← pos.asInt
  let key ← inner.exprOption options "key"
  let value ← inner.exprOption options "value"
  return .rangeStmt x body pos key value (← tok.asString)

def readSwitch : Reader Stmt := do
  let (pos, rest) ← form.operand
  let options ← optionsOf ["init", "tag", "body"] rest
  let body ← inner.body options "switch"
  let pos ← pos.asInt
  let init ← inner.stmtOption options "init"
  return .switchStmt body pos init (← inner.exprOption options "tag")

def readTypeSwitch : Reader Stmt := do
  let (pos, rest) ← form.operand
  let options ← optionsOf ["init", "assign", "body"] rest
  let assign ← inner.stmt (← options.required "type-switch" "assign")
  let body ← inner.body options "type-switch"
  let pos ← pos.asInt
  return .typeSwitch assign body pos (← inner.stmtOption options "init")

def readSelect : Reader Stmt := do
  let (pos, rest) ← form.operand
  let options ← optionsOf ["body"] rest
  let body ← inner.body options "select"
  return .selectStmt body (← pos.asInt)

/-- A case of a switch. -/
def readCase : Reader Stmt := do
  let (pos, rest) ← form.operand
  let (body, options) ← splitOptions ["list"] rest
  let exprs ← (options.get? "list").mapM inner.exprs
  let body ← inner.stmts body
  return .caseClause exprs body (← pos.asInt)

/-- A case of a select statement. -/
def readComm : Reader Stmt := do
  let (pos, rest) ← form.operand
  let (body, options) ← splitOptions ["on"] rest
  let comm ← inner.stmtOption options "on"
  let body ← inner.stmts body
  return .commClause comm body (← pos.asInt)

def readDeclStmt : Reader Stmt := do
  let (d, _) ← form.operand
  return .decl (← readGenDecl (inner.deeper 1) d)

/-- A form of a statement whose nested parts are read by `inner`. -/
def readStmtForm : Reader Stmt :=
  match form.tag with
  | "block" => readBlockStmt inner form
  | "expr-stmt" => readExprStmt inner form
  | "go" => readStart inner form "go" .goStmt
  | "defer" => readStart inner form "defer" .deferStmt
  | "return" => readReturn inner form
  | "assign" => readAssign inner form
  | "empty" => readEmpty form
  | "labeled" => readLabeled inner form
  | "send" => readSend inner form
  | "incdec" => readIncDec inner form
  | "branch" => readBranch form
  | "if" => readIf inner form
  | "for" => readFor inner form
  | "range" => readRange inner form
  | "switch" => readSwitch inner form
  | "type-switch" => readTypeSwitch inner form
  | "select" => readSelect inner form
  | "case" => readCase inner form
  | "comm" => readComm inner form
  | "decl-stmt" => readDeclStmt inner form
  | tag => throw (.unknownForm .statement tag)

end

/-- A statement whose nested parts are read by `inner`. -/
def readStmtWith (inner : InnerReaders) (d : Datum) : Reader Stmt := do
  readStmtForm inner (← Form.ofDatum 1 d)

/-- The readers with `steps` steps at hand. The first argument bounds the depth of the forms; a form
takes a step at least, so the number of steps will do for it. -/
def readersWithin : Nat → Nat → InnerReaders
  | 0, _ => ⟨fun _ _ => throw .tooDeep, fun _ _ => throw .tooDeep, fun _ _ => throw .tooDeep⟩
  | depth + 1, steps => {
      exprAt cost d :=
        Reader.within (steps - cost) (readExprWith (readersWithin depth (steps - cost)) d)
      stmtAt cost d :=
        Reader.within (steps - cost) (readStmtWith (readersWithin depth (steps - cost)) d)
      typeAt := typesWithin steps }

/-- An expression. -/
def readExpr (d : Datum) : Reader Expr := (readersWithin stepLimit stepLimit).expr d

/-- A statement. -/
def readStmt (d : Datum) : Reader Stmt := (readersWithin stepLimit stepLimit).stmt d

/-! ## Declarations at the top of a file -/

/-- The readers for the parts of a declaration at the top of a file, five steps below the
program. -/
def topReaders : InnerReaders := (readersWithin stepLimit stepLimit).deeper 5

/-- The declaration of a function. -/
def readFuncDecl (inner : InnerReaders) (form : Form) : Reader FuncDecl := do
  let (name, pos, rest) ← form.operands2
  let options ← optionsOf ["recv", "body"] rest
  let recv ← options.single? "recv"
  let body ← options.single? "body"
  let name ← name.asString
  let pos ← pos.asInt
  let body ← body.mapM inner.block
  return ⟨⟨name, pos, none, none⟩, pos, body, ← recv.mapM inner.type⟩

/-- A declaration at the top of a file. -/
def readDecl (d : Datum) : Reader Decl := do
  let form ← Form.ofDatum 1 d
  match form.tag with
  | "func-decl" => return .func (← readFuncDecl topReaders form)
  | "gen-decl" => return .gen (← readGenDecl topReaders d)
  | tag => throw (.unknownForm .declaration tag)

end UncheckedErrors
