import UncheckedErrors.Proofs.TypeForms
import UncheckedErrors.Tree.Walk

/-!
# The forms of trees

`Expr.form`, `Stmt.form` and `Decl.form` write trees as the grammar of dumps has them, and
`Expr.effort`, `Stmt.effort` and `Decl.effort` say what reading them takes, in the order in which
the parts of a form are read. Not every tree has a form: `Node.Expressible` is what the grammar asks
of a node.
-/

namespace UncheckedErrors

/-! ## Identifiers and selections -/

/-- The form of an identifier. -/
def Ident.form (id : Ident) : Datum :=
  .list (.symbol "ident" :: .string id.name :: .int id.pos ::
    OptionalParts.forms [("obj", id.obj.map fun o => [o.form]), ("type", typePart id.type)])

/-- What reading an object takes that may be absent. -/
def objectEffort : Option Object → Effort
  | none => .none
  | some o => o.effort

/-- What reading the parts of an identifier takes. -/
def Ident.effort (id : Ident) : Effort := objectEffort id.obj ++ typeEffort 3 id.type

/-- What reading identifiers takes in a list. -/
def Ident.efforts : List Ident → Effort
  | [] => .none
  | id :: ids => id.effort.nested 4 ++ efforts ids

/-- The kind of a selection in a dump. -/
def SelectionKind.text : SelectionKind → String
  | .fieldVal => "field-val"
  | .methodVal => "method-val"
  | .methodExpr => "method-expr"

/-- What the option for a selection holds. The object is that of the selector. -/
def Selection.forms (selection : Selection) : List Datum :=
  [.string selection.kind.text, selection.recv.form,
   .list (.symbol "index" :: selection.index.map .int)]

/-- What reading a selection takes that may be absent. -/
def selectionEffort : Option Selection → Effort
  | none => .none
  | some selection => selection.recv.effort.nested 2

/-! ## Trees -/

mutual

/-- The form of an expression. -/
def Expr.form : Expr → Datum
  | .ident id => id.form
  | .basicLit kind value pos type =>
    .list (.symbol "lit" :: .string kind :: .string value :: .int pos ::
      OptionalParts.forms [("type", typePart type)])
  | .compositeLit elts lbrace type =>
    .list (.symbol "composite" :: .int lbrace ::
      OptionalParts.forms [("elts", some (Expr.forms elts)), ("type", typePart type)])
  | .funcLit body pos type =>
    .list (.symbol "func-lit" :: .int pos :: body.form ::
      OptionalParts.forms [("type", typePart type)])
  | .paren x lparen type =>
    .list (.symbol "paren" :: .int lparen :: x.form ::
      OptionalParts.forms [("type", typePart type)])
  | .selector x sel selection type =>
    .list (.symbol "selector" :: x.form :: sel.form ::
      OptionalParts.forms [("selection", selection.map (·.forms)), ("type", typePart type)])
  | .index x indices lbrack type =>
    .list (.symbol "index" :: x.form :: .int lbrack ::
      (Expr.forms indices ++ OptionalParts.forms [("type", typePart type)]))
  | .slice x lbrack low high max type =>
    .list (.symbol "slice" :: x.form :: .int lbrack ::
      OptionalParts.forms [("low", Expr.part low), ("high", Expr.part high), ("max", Expr.part max),
        ("type", typePart type)])
  | .typeAssert x lparen asserted type =>
    .list (.symbol "assert" :: x.form :: .int lparen ::
      OptionalParts.forms [("asserted", typePart asserted), ("type", typePart type)])
  | .call c => c.form
  | .star x pos type =>
    .list (.symbol "star" :: .int pos :: x.form :: OptionalParts.forms [("type", typePart type)])
  | .unary op x pos type =>
    .list (.symbol "unary" :: .string op :: .int pos :: x.form ::
      OptionalParts.forms [("type", typePart type)])
  | .binary op x y opPos type =>
    .list (.symbol "binary" :: .string op :: .int opPos :: x.form :: y.form ::
      OptionalParts.forms [("type", typePart type)])
  | .keyValue key value => .list [.symbol "kv", key.form, value.form]
  | .typeExpr type pos => .list [.symbol "type-expr", .int pos, type.form]

/-- The form of a call. -/
def Call.form : Call → Datum
  | .mk fn args lparen rparen type ellipsis =>
    .list (.symbol "call" :: fn.form :: .int lparen :: .int rparen ::
      (Expr.forms args ++ OptionalParts.forms
        [("ellipsis", ellipsis.map fun pos => [.int pos]), ("type", typePart type)]))

/-- The forms of expressions. -/
def Expr.forms : List Expr → List Datum
  | [] => []
  | x :: xs => x.form :: Expr.forms xs

/-- What an option holds that is an expression. -/
def Expr.part : Option Expr → Option (List Datum)
  | none => none
  | some x => some [x.form]

/-- What the option holds that lists the expressions of a case. -/
def Expr.listPart : Option (List Expr) → Option (List Datum)
  | none => none
  | some xs => some (Expr.forms xs)

/-- The form of a block. -/
def Block.form : Block → Datum
  | .mk stmts lbrace => .list (.symbol "block" :: .int lbrace :: Stmt.forms stmts)

/-- The form of a statement. -/
def Stmt.form : Stmt → Datum
  | .decl decl => .list [.symbol "decl-stmt", decl.form]
  | .empty pos => .list [.symbol "empty", .int pos]
  | .labeled label s =>
    .list [.symbol "labeled", .string label.name, .int label.pos, s.form]
  | .expr x => .list [.symbol "expr-stmt", x.form]
  | .send chan value arrow => .list [.symbol "send", .int arrow, chan.form, value.form]
  | .incDec x tok tokPos => .list [.symbol "incdec", .string tok, .int tokPos, x.form]
  | .assign lhs tok tokPos rhs =>
    .list [.symbol "assign", .string tok, .int tokPos, .list (.symbol "lhs" :: Expr.forms lhs),
      .list (.symbol "rhs" :: Expr.forms rhs)]
  | .goStmt c pos => .list [.symbol "go", .int pos, c.form]
  | .deferStmt c pos => .list [.symbol "defer", .int pos, c.form]
  | .returnStmt results pos => .list (.symbol "return" :: .int pos :: Expr.forms results)
  | .branch tok pos label =>
    .list (.symbol "branch" :: .string tok :: .int pos ::
      (label.map fun label => .string label.name).toList)
  | .block b => b.form
  | .ifStmt cond body pos init orElse =>
    .list (.symbol "if" :: .int pos ::
      OptionalParts.forms [("init", Stmt.part init), ("cond", some [cond.form]),
        ("body", some [body.form]), ("else", Stmt.part orElse)])
  | .caseClause exprs body pos =>
    .list (.symbol "case" :: .int pos ::
      (OptionalParts.forms [("list", Expr.listPart exprs)] ++ Stmt.forms body))
  | .switchStmt body pos init tag =>
    .list (.symbol "switch" :: .int pos ::
      OptionalParts.forms [("init", Stmt.part init), ("tag", Expr.part tag),
        ("body", some [body.form])])
  | .typeSwitch assign body pos init =>
    .list (.symbol "type-switch" :: .int pos ::
      OptionalParts.forms [("init", Stmt.part init), ("assign", some [assign.form]),
        ("body", some [body.form])])
  | .commClause comm body pos =>
    .list (.symbol "comm" :: .int pos ::
      (OptionalParts.forms [("on", Stmt.part comm)] ++ Stmt.forms body))
  | .selectStmt body pos =>
    .list (.symbol "select" :: .int pos :: OptionalParts.forms [("body", some [body.form])])
  | .forStmt body pos init cond post =>
    .list (.symbol "for" :: .int pos ::
      OptionalParts.forms [("init", Stmt.part init), ("cond", Expr.part cond),
        ("post", Stmt.part post), ("body", some [body.form])])
  | .rangeStmt x body pos key value tok =>
    .list (.symbol "range" :: .int pos :: .string tok ::
      OptionalParts.forms [("key", Expr.part key), ("value", Expr.part value),
        ("x", some [x.form]), ("body", some [body.form])])

/-- The forms of statements. -/
def Stmt.forms : List Stmt → List Datum
  | [] => []
  | s :: ss => s.form :: Stmt.forms ss

/-- What an option holds that is a statement. -/
def Stmt.part : Option Stmt → Option (List Datum)
  | none => none
  | some s => some [s.form]

/-- The form of a declaration of variables or constants. -/
def ValueSpec.form : ValueSpec → Datum
  | .mk name others values type =>
    .list (.symbol "value-spec" :: OptionalParts.forms
      [("names", some ((name :: others).map Ident.form)),
       ("values", if values.isEmpty then none else some (Expr.forms values)),
       ("type", typePart type)])

/-- The forms of declarations of variables or constants. -/
def ValueSpec.forms : List ValueSpec → List Datum
  | [] => []
  | spec :: specs => spec.form :: ValueSpec.forms specs

/-- The form of a group of declarations. -/
def GenDecl.form : GenDecl → Datum
  | .mk tok specs pos =>
    .list (.symbol "gen-decl" :: .string tok :: .int pos :: ValueSpec.forms specs)

end

mutual

/-- What reading the parts of an expression takes. The leading operand of a left-anchored form is
not nested. -/
def Expr.effort : Expr → Effort
  | .ident id => id.effort
  | .basicLit _ _ _ type => typeEffort 3 type
  | .compositeLit elts _ type => Expr.efforts 4 elts ++ typeEffort 3 type
  | .funcLit body _ type => body.effort ++ typeEffort 3 type
  | .paren x _ type => x.effort.nested 2 ++ typeEffort 3 type
  | .selector x sel selection type =>
    x.effort ++ (sel.effort.nested 2 ++ (selectionEffort selection ++ typeEffort 3 type))
  | .index x indices _ type => x.effort ++ (Expr.efforts 4 indices ++ typeEffort 3 type)
  | .slice x _ low high max type =>
    x.effort ++ (Expr.partEffort low ++ (Expr.partEffort high ++
      (Expr.partEffort max ++ typeEffort 3 type)))
  | .typeAssert x _ asserted type => x.effort ++ (typeEffort 2 asserted ++ typeEffort 3 type)
  | .call c => c.effort
  | .star x _ type => x.effort.nested 2 ++ typeEffort 3 type
  | .unary _ x _ type => x.effort.nested 2 ++ typeEffort 3 type
  | .binary _ x y _ type => x.effort ++ (y.effort.nested 2 ++ typeEffort 3 type)
  | .keyValue key value => key.effort.nested 2 ++ value.effort.nested 2
  | .typeExpr type _ => type.effort.nested 2

/-- What reading the parts of a call takes. -/
def Call.effort : Call → Effort
  | .mk fn args _ _ type _ => fn.effort ++ (Expr.efforts 4 args ++ typeEffort 3 type)

/-- What reading expressions takes that are nested `n` steps deep. -/
def Expr.efforts (n : Nat) : List Expr → Effort
  | [] => .none
  | x :: xs => x.effort.nested n ++ Expr.efforts n xs

/-- What reading an expression takes that may be absent. -/
def Expr.partEffort : Option Expr → Effort
  | none => .none
  | some x => x.effort.nested 3

/-- What reading the expressions of a case takes. -/
def Expr.listEffort : Option (List Expr) → Effort
  | none => .none
  | some xs => Expr.efforts 4 xs

/-- What reading a block takes. -/
def Block.effort : Block → Effort
  | .mk stmts _ => Stmt.efforts 5 stmts

/-- What reading the parts of a statement takes. -/
def Stmt.effort : Stmt → Effort
  | .decl decl => decl.effort.under 1
  | .empty _ | .branch _ _ _ => .none
  | .labeled _ s => s.effort.nested 2
  | .expr x | .incDec x _ _ => x.effort.nested 2
  | .send chan value _ => chan.effort.nested 2 ++ value.effort.nested 2
  | .assign lhs _ _ rhs => Expr.efforts 4 lhs ++ Expr.efforts 4 rhs
  | .goStmt c _ | .deferStmt c _ => c.effort.nested 3
  | .returnStmt results _ => Expr.efforts 4 results
  | .block b => b.effort
  | .ifStmt cond body _ init orElse =>
    cond.effort.nested 2 ++ (body.effort ++ (Stmt.partEffort init ++ Stmt.partEffort orElse))
  | .caseClause exprs body _ => Expr.listEffort exprs ++ Stmt.efforts 4 body
  | .switchStmt body _ init tag => body.effort ++ (Stmt.partEffort init ++ Expr.partEffort tag)
  | .typeSwitch assign body _ init =>
    assign.effort.nested 2 ++ (body.effort ++ Stmt.partEffort init)
  | .commClause comm body _ => Stmt.partEffort comm ++ Stmt.efforts 4 body
  | .selectStmt body _ => body.effort
  | .forStmt body _ init cond post =>
    body.effort ++ (Stmt.partEffort init ++ (Expr.partEffort cond ++ Stmt.partEffort post))
  | .rangeStmt x body _ key value _ =>
    x.effort.nested 2 ++ (body.effort ++ (Expr.partEffort key ++ Expr.partEffort value))

/-- What reading statements takes that are nested `n` steps deep. -/
def Stmt.efforts (n : Nat) : List Stmt → Effort
  | [] => .none
  | s :: ss => s.effort.nested n ++ Stmt.efforts n ss

/-- What reading a statement takes that may be absent. -/
def Stmt.partEffort : Option Stmt → Effort
  | none => .none
  | some s => s.effort.nested 3

/-- What reading a declaration of variables or constants takes. -/
def ValueSpec.effort : ValueSpec → Effort
  | .mk name others values type =>
    Ident.efforts (name :: others) ++ (Expr.efforts 4 values ++ typeEffort 3 type)

/-- What reading declarations of variables or constants takes. -/
def ValueSpec.efforts : List ValueSpec → Effort
  | [] => .none
  | spec :: specs => spec.effort ++ ValueSpec.efforts specs

/-- What reading a group of declarations takes. -/
def GenDecl.effort : GenDecl → Effort
  | .mk _ specs _ => (ValueSpec.efforts specs).under 2

end

/-- What an option holds that is a block. -/
def Block.part (b : Option Block) : Option (List Datum) := b.map fun b => [b.form]

/-- What reading a block takes that may be absent. -/
def Block.partEffort : Option Block → Effort
  | none => .none
  | some b => b.effort

/-- The form of the declaration of a function. -/
def FuncDecl.form (decl : FuncDecl) : Datum :=
  .list (.symbol "func-decl" :: .string decl.name.name :: .int decl.pos ::
    OptionalParts.forms [("recv", typePart decl.recv), ("body", Block.part decl.body)])

/-- What reading the declaration of a function takes. -/
def FuncDecl.effort (decl : FuncDecl) : Effort :=
  Block.partEffort decl.body ++ typeEffort 2 decl.recv

/-- The form of a declaration at the top of a file. -/
def Decl.form : Decl → Datum
  | .func decl => decl.form
  | .gen decl => decl.form

/-- What reading a declaration at the top of a file takes. -/
def Decl.effort : Decl → Effort
  | .func decl => decl.effort
  | .gen decl => decl.effort

/-! ## What the grammar asks of a node -/

/-- An identifier without annotations, as a label or the name of a function is read. -/
def Ident.Bare (id : Ident) : Prop := id.obj = none ∧ id.type = none

/-- An expression whose own annotations have forms. There is at least one index, and the object of
a selection is that of its selector. -/
def Expr.Expressible (x : Expr) : Prop :=
  (∀ t ∈ x.type?, t.Written) ∧
    match x with
    | .ident id => ∀ o ∈ id.obj, o.Written
    | .selector _ sel selection _ =>
      ∀ selection' ∈ selection, selection'.recv.Written ∧ sel.obj = some selection'.obj
    | .index _ indices _ _ => indices ≠ []
    | .typeAssert _ _ asserted _ => ∀ t ∈ asserted, t.Written
    | _ => True

/-- A node that the grammar has a form for, if it has one for the nodes below. Labels and names of
functions are bare; the label of a branch and the name of a function stand where the branch and the
function do. -/
def Node.Expressible : Node → Prop
  | .expr x => x.Expressible
  | .stmt (.labeled label _) => label.Bare
  | .stmt (.branch _ pos label) => ∀ label' ∈ label, label'.Bare ∧ label'.pos = pos
  | .stmt _ => True
  | .valueSpec spec => ∀ t ∈ spec.type, t.Written
  | .genDecl _ => True
  | .funcDecl decl => decl.name.Bare ∧ decl.name.pos = decl.pos ∧ ∀ t ∈ decl.recv, t.Written
  | .file _ => True

end UncheckedErrors
