import UncheckedErrors.Object

/-!
# Typed Go trees

The shapes of Go source that matter for unchecked errors, with what the type checker found out:
the type of an expression, the object of an identifier, the selection of a selector. Positions are
byte offsets into the file.

The start of an expression (`Expr.pos`) is that of its leftmost operand.
-/

namespace UncheckedErrors

structure Ident where
  name : String
  pos : Int
  obj : Option Object
  type : Option GoType

mutual

inductive Expr where
  | ident (id : Ident)
  | basicLit (kind value : String) (pos : Int) (type : Option GoType)
  | compositeLit (elts : List Expr) (lbrace : Int) (type : Option GoType)
  | funcLit (body : Block) (pos : Int) (type : Option GoType)
  | paren (x : Expr) (lparen : Int) (type : Option GoType)
  /-- As in `x.sel`; an identifier qualified by a package has no selection. -/
  | selector (x : Expr) (sel : Ident) (selection : Option Selection) (type : Option GoType)
  | index (x : Expr) (indices : List Expr) (lbrack : Int) (type : Option GoType)
  | slice (x : Expr) (lbrack : Int) (low high max : Option Expr) (type : Option GoType)
  /-- As in `x.(T)`; the `x.(type)` of a type switch asserts no type. -/
  | typeAssert (x : Expr) (lparen : Int) (asserted type : Option GoType)
  | call (call : Call)
  | star (x : Expr) (pos : Int) (type : Option GoType)
  | unary (op : String) (x : Expr) (pos : Int) (type : Option GoType)
  | binary (op : String) (x y : Expr) (opPos : Int) (type : Option GoType)
  | keyValue (key value : Expr)
  /-- A type in the place of an expression. -/
  | typeExpr (type : GoType) (pos : Int)

/-- A call. Its type is that of its one result, or a tuple. -/
inductive Call where
  | mk (fn : Expr) (args : List Expr) (lparen rparen : Int) (type : Option GoType)
      (ellipsis : Option Int)

/-- A block of statements. -/
inductive Block where
  | mk (stmts : List Stmt) (lbrace : Int)

inductive Stmt where
  | decl (decl : GenDecl)
  | empty (pos : Int)
  | labeled (label : Ident) (stmt : Stmt)
  | expr (x : Expr)
  | send (chan value : Expr) (arrow : Int)
  | incDec (x : Expr) (tok : String) (tokPos : Int)
  | assign (lhs : List Expr) (tok : String) (tokPos : Int) (rhs : List Expr)
  | goStmt (call : Call) (pos : Int)
  | deferStmt (call : Call) (pos : Int)
  | returnStmt (results : List Expr) (pos : Int)
  | branch (tok : String) (pos : Int) (label : Option Ident)
  | block (block : Block)
  | ifStmt (cond : Expr) (body : Block) (pos : Int) (init orElse : Option Stmt)
  /-- A case of a switch; the default case has no list of expressions. -/
  | caseClause (exprs : Option (List Expr)) (body : List Stmt) (pos : Int)
  | switchStmt (body : Block) (pos : Int) (init : Option Stmt) (tag : Option Expr)
  | typeSwitch (assign : Stmt) (body : Block) (pos : Int) (init : Option Stmt)
  /-- A case of a select; the default case has no communication. -/
  | commClause (comm : Option Stmt) (body : List Stmt) (pos : Int)
  | selectStmt (body : Block) (pos : Int)
  | forStmt (body : Block) (pos : Int) (init : Option Stmt) (cond : Option Expr)
      (post : Option Stmt)
  | rangeStmt (x : Expr) (body : Block) (pos : Int) (key value : Option Expr) (tok : String)

/-- The declaration of one or more variables or constants, with or without values. -/
inductive ValueSpec where
  | mk (name : Ident) (others : List Ident) (values : List Expr) (type : Option GoType)

/-- A group of declarations under one keyword. -/
inductive GenDecl where
  | mk (tok : String) (specs : List ValueSpec) (pos : Int)

end

/-- The declaration of a function or method. -/
structure FuncDecl where
  name : Ident
  pos : Int
  body : Option Block
  recv : Option GoType

/-- A declaration at the top of a file. -/
inductive Decl where
  | func (decl : FuncDecl)
  | gen (decl : GenDecl)

/-- A file: its package clause and its declarations. -/
structure File where
  packageName : String
  packagePos : Nat
  decls : List Decl

namespace Call

def fn : Call → Expr
  | .mk fn _ _ _ _ _ => fn

def args : Call → List Expr
  | .mk _ args _ _ _ _ => args

/-- Where the arguments open. -/
def lparen : Call → Int
  | .mk _ _ lparen _ _ _ => lparen

/-- Where the arguments close. -/
def rparen : Call → Int
  | .mk _ _ _ rparen _ _ => rparen

def type : Call → Option GoType
  | .mk _ _ _ _ type _ => type

/-- Where the last argument is spread, if it is. -/
def ellipsis : Call → Option Int
  | .mk _ _ _ _ _ ellipsis => ellipsis

end Call

namespace Block

def stmts : Block → List Stmt
  | .mk stmts _ => stmts

/-- Where a block opens. -/
def lbrace : Block → Int
  | .mk _ lbrace => lbrace

end Block

namespace ValueSpec

/-- The names declared, of which there is at least one. -/
def names : ValueSpec → List Ident
  | .mk name others _ _ => name :: others

def values : ValueSpec → List Expr
  | .mk _ _ values _ => values

def type : ValueSpec → Option GoType
  | .mk _ _ _ type => type

/-- Where the first name stands. -/
def pos : ValueSpec → Int
  | .mk name _ _ _ => name.pos

end ValueSpec

namespace GenDecl

def tok : GenDecl → String
  | .mk tok _ _ => tok

def specs : GenDecl → List ValueSpec
  | .mk _ specs _ => specs

/-- Where the keyword stands. -/
def pos : GenDecl → Int
  | .mk _ _ pos => pos

end GenDecl

mutual

/-- Where an expression starts. -/
def Expr.pos : Expr → Int
  | .ident id => id.pos
  | .basicLit _ _ pos _ => pos
  | .compositeLit _ lbrace _ => lbrace
  | .funcLit _ pos _ => pos
  | .paren _ lparen _ => lparen
  | .selector x _ _ _ => x.pos
  | .index x _ _ _ => x.pos
  | .slice x _ _ _ _ _ => x.pos
  | .typeAssert x _ _ _ => x.pos
  | .call c => c.pos
  | .star _ pos _ => pos
  | .unary _ _ pos _ => pos
  | .binary _ x _ _ _ => x.pos
  | .keyValue key _ => key.pos
  | .typeExpr _ pos => pos

/-- Where a call starts. -/
def Call.pos : Call → Int
  | .mk fn _ _ _ _ _ => fn.pos

end

/-- The static type of an expression; a key with a value has none. -/
def Expr.type? : Expr → Option GoType
  | .ident id => id.type
  | .basicLit _ _ _ type | .compositeLit _ _ type | .funcLit _ _ type | .paren _ _ type
  | .selector _ _ _ type | .index _ _ _ type | .slice _ _ _ _ _ type | .typeAssert _ _ _ type
  | .star _ _ type | .unary _ _ _ type | .binary _ _ _ _ type => type
  | .call c => c.type
  | .keyValue _ _ => none
  | .typeExpr type _ => some type

/-- Where a statement starts. -/
def Stmt.pos : Stmt → Int
  | .decl d => d.pos
  | .empty pos => pos
  | .labeled label _ => label.pos
  | .expr x => x.pos
  | .send chan _ _ => chan.pos
  | .incDec x _ _ => x.pos
  | .assign lhs _ tokPos _ =>
    match lhs with
    | x :: _ => x.pos
    | [] => tokPos
  | .goStmt _ pos | .deferStmt _ pos | .returnStmt _ pos | .branch _ pos _ => pos
  | .block b => b.lbrace
  | .ifStmt _ _ pos _ _ | .caseClause _ _ pos | .switchStmt _ pos _ _ | .typeSwitch _ _ pos _
  | .commClause _ _ pos | .selectStmt _ pos | .forStmt _ pos _ _ _ | .rangeStmt _ _ pos _ _ _ => pos

/-- Whether an expression is the blank identifier `_`. -/
def Expr.isBlank : Expr → Bool
  | .ident id => id.name == "_"
  | _ => false

end UncheckedErrors
