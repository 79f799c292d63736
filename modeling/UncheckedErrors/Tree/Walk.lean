import UncheckedErrors.Tree.Basic

/-!
# Walking trees

A node is any part of a tree that can be visited. `Node.walk` lists a node and everything below
it, parents before children and children in source order. It works off a list of nodes that are
still to be visited; `Node.preorder` is the recursive description of the same order, and
`walkAll_eq` says that they agree.
-/

namespace UncheckedErrors

/-- A part of a tree that is visited. -/
inductive Node where
  | expr (x : Expr)
  | stmt (s : Stmt)
  | valueSpec (spec : ValueSpec)
  | genDecl (decl : GenDecl)
  | funcDecl (decl : FuncDecl)
  | file (file : File)

namespace Node

/-- An identifier as a node. -/
def ident (id : Ident) : Node := .expr (.ident id)

/-- A call as a node. -/
def call (c : Call) : Node := .expr (.call c)

/-- A block as a node. -/
def block (b : Block) : Node := .stmt (.block b)

/-- A declaration at the top of a file as a node. -/
def decl : Decl → Node
  | .func decl => .funcDecl decl
  | .gen decl => .genDecl decl

/-- Expressions as nodes. -/
def exprs (xs : List Expr) : List Node := xs.map .expr

/-- Statements as nodes. -/
def stmts (ss : List Stmt) : List Node := ss.map .stmt

/-- An optional expression as a list of nodes. -/
def optExpr (x : Option Expr) : List Node := exprs x.toList

/-- An optional statement as a list of nodes. -/
def optStmt (s : Option Stmt) : List Node := stmts s.toList

/-- The nodes directly below an expression. -/
def ofExpr : Expr → List Node
  | .ident _ => []
  | .basicLit _ _ _ _ => []
  | .compositeLit elts _ _ => exprs elts
  | .funcLit body _ _ => [block body]
  | .paren x _ _ => [.expr x]
  | .selector x sel _ _ => [.expr x, ident sel]
  | .index x indices _ _ => .expr x :: exprs indices
  | .slice x _ low high max _ => .expr x :: (optExpr low ++ optExpr high ++ optExpr max)
  | .typeAssert x _ _ _ => [.expr x]
  | .call (.mk fn args _ _ _ _) => .expr fn :: exprs args
  | .star x _ _ => [.expr x]
  | .unary _ x _ _ => [.expr x]
  | .binary _ x y _ _ => [.expr x, .expr y]
  | .keyValue key value => [.expr key, .expr value]
  | .typeExpr _ _ => []

/-- The nodes directly below a statement. -/
def ofStmt : Stmt → List Node
  | .decl decl => [.genDecl decl]
  | .empty _ => []
  | .labeled label s => [ident label, .stmt s]
  | .expr x => [.expr x]
  | .send chan value _ => [.expr chan, .expr value]
  | .incDec x _ _ => [.expr x]
  | .assign lhs _ _ rhs => exprs lhs ++ exprs rhs
  | .goStmt c _ => [call c]
  | .deferStmt c _ => [call c]
  | .returnStmt results _ => exprs results
  | .branch _ _ label => label.toList.map ident
  | .block (.mk ss _) => stmts ss
  | .ifStmt cond body _ init orElse => optStmt init ++ [.expr cond, block body] ++ optStmt orElse
  | .caseClause xs body _ => exprs (xs.getD []) ++ stmts body
  | .switchStmt body _ init tag => optStmt init ++ optExpr tag ++ [block body]
  | .typeSwitch assign body _ init => optStmt init ++ [.stmt assign, block body]
  | .commClause comm body _ => optStmt comm ++ stmts body
  | .selectStmt body _ => [block body]
  | .forStmt body _ init cond post => optStmt init ++ optExpr cond ++ optStmt post ++ [block body]
  | .rangeStmt x body _ key value _ => optExpr key ++ optExpr value ++ [.expr x, block body]

/-- The nodes directly below a node, in source order. -/
def children : Node → List Node
  | .expr x => ofExpr x
  | .stmt s => ofStmt s
  | .valueSpec (.mk name others values _) => ident name :: (others.map ident ++ exprs values)
  | .genDecl (.mk _ specs _) => specs.map .valueSpec
  | .funcDecl decl => ident decl.name :: decl.body.toList.map block
  | .file f => f.decls.map decl

/-- Where a node starts. -/
def pos : Node → Int
  | .expr x => x.pos
  | .stmt s => s.pos
  | .valueSpec spec => spec.pos
  | .genDecl decl => decl.pos
  | .funcDecl decl => decl.pos
  | .file f => f.packagePos

/-! ## Children are smaller -/

/-- A size of nodes under which the children of a node together are smaller than the node. -/
noncomputable def weight : Node → Nat
  | .expr (.ident id) => sizeOf id
  | .expr x => sizeOf x
  | .stmt s => sizeOf s
  | .valueSpec spec => sizeOf spec
  | .genDecl decl => sizeOf decl
  | .funcDecl decl => 1 + sizeOf decl
  | .file f => 1 + sizeOf f

/-- Weights added up. -/
noncomputable def total : List Node → Nat
  | [] => 0
  | n :: ns => n.weight + total ns

@[simp] theorem total_nil : total [] = 0 := rfl

@[simp] theorem total_cons (n : Node) (ns : List Node) :
    total (n :: ns) = n.weight + total ns := rfl

@[simp] theorem total_append (ns ms : List Node) : total (ns ++ ms) = total ns + total ms := by
  induction ns with
  | nil => rw [List.nil_append, total_nil, Nat.zero_add]
  | cons n ns ih => rw [List.cons_append, total_cons, total_cons, ih, Nat.add_assoc]

theorem weight_expr_le (x : Expr) : weight (.expr x) ≤ sizeOf x := by
  cases x <;> simp [weight]

@[simp] theorem weight_stmt (s : Stmt) : weight (.stmt s) = sizeOf s := rfl

@[simp] theorem weight_valueSpec (spec : ValueSpec) : weight (.valueSpec spec) = sizeOf spec := rfl

@[simp] theorem weight_genDecl (decl : GenDecl) : weight (.genDecl decl) = sizeOf decl := rfl

@[simp] theorem weight_funcDecl (decl : FuncDecl) : weight (.funcDecl decl) = 1 + sizeOf decl := rfl

@[simp] theorem weight_file (f : File) : weight (.file f) = 1 + sizeOf f := rfl

@[simp] theorem weight_ident (id : Ident) : weight (ident id) = sizeOf id := rfl

@[simp] theorem weight_call (c : Call) : weight (call c) = 1 + sizeOf c := by
  simp [call, weight]

@[simp] theorem weight_block (b : Block) : weight (block b) = 1 + sizeOf b := by
  simp [block, weight]

theorem total_exprs_lt (xs : List Expr) : total (exprs xs) < sizeOf xs := by
  induction xs with
  | nil => simp [exprs]
  | cons x xs ih =>
    have := weight_expr_le x
    simp only [exprs, List.map_cons, total_cons, List.cons.sizeOf_spec] at *
    omega

theorem total_stmts_lt (ss : List Stmt) : total (stmts ss) < sizeOf ss := by
  induction ss with
  | nil => simp [stmts]
  | cons s ss ih =>
    simp only [stmts, List.map_cons, total_cons, List.cons.sizeOf_spec, weight] at *
    omega

theorem total_optExpr_lt (x : Option Expr) : total (optExpr x) < sizeOf x := by
  cases x with
  | none => simp [optExpr, exprs]
  | some x =>
    have := weight_expr_le x
    simp [optExpr, exprs]
    omega

theorem total_optStmt_lt (s : Option Stmt) : total (optStmt s) < sizeOf s := by
  cases s with
  | none => simp [optStmt, stmts]
  | some s => simp [optStmt, stmts, weight]

theorem total_idents_lt (ids : List Ident) : total (ids.map ident) < sizeOf ids := by
  induction ids with
  | nil => simp
  | cons id ids ih =>
    simp only [List.map_cons, total_cons, weight_ident, List.cons.sizeOf_spec]
    omega

theorem total_specs_lt (specs : List ValueSpec) :
    total (specs.map .valueSpec) < sizeOf specs := by
  induction specs with
  | nil => simp
  | cons spec specs ih =>
    simp only [List.map_cons, total_cons, List.cons.sizeOf_spec, weight]
    omega

theorem weight_decl (d : Decl) : weight (decl d) ≤ sizeOf d := by
  cases d <;> simp [decl, weight]

theorem total_decls_lt (ds : List Decl) : total (ds.map decl) < sizeOf ds := by
  induction ds with
  | nil => simp
  | cons d ds ih =>
    have := weight_decl d
    simp only [List.map_cons, total_cons, List.cons.sizeOf_spec]
    omega

theorem one_le_sizeOf_int (i : Int) : 1 ≤ sizeOf i := by
  cases i with
  | ofNat n => exact Nat.le_add_right 1 _
  | negSucc n => exact Nat.le_add_right 1 _

theorem total_ofExpr_lt (x : Expr) : total (ofExpr x) < weight (.expr x) := by
  cases x with
  | ident id =>
    cases id
    show total [] < sizeOf _
    rw [total_nil, Ident.mk.sizeOf_spec]
    omega
  | basicLit =>
    show total [] < sizeOf _
    rw [total_nil, Expr.basicLit.sizeOf_spec]
    omega
  | compositeLit elts => have := total_exprs_lt elts; show total _ < sizeOf _; simp [ofExpr]; omega
  | funcLit body pos =>
    have := one_le_sizeOf_int pos
    show total _ < sizeOf _; simp [ofExpr]; omega
  | paren x => have := weight_expr_le x; show total _ < sizeOf _; simp [ofExpr]; omega
  | selector x sel => have := weight_expr_le x; show total _ < sizeOf _; simp [ofExpr]; omega
  | index x indices =>
    have := weight_expr_le x
    have := total_exprs_lt indices
    show total _ < sizeOf _; simp [ofExpr]; omega
  | slice x lbrack low high max =>
    have := weight_expr_le x
    have := total_optExpr_lt low
    have := total_optExpr_lt high
    have := total_optExpr_lt max
    show total _ < sizeOf _; simp [ofExpr]; omega
  | typeAssert x => have := weight_expr_le x; show total _ < sizeOf _; simp [ofExpr]; omega
  | call c =>
    obtain ⟨fn, args, _, _, _, _⟩ := c
    have := weight_expr_le fn
    have := total_exprs_lt args
    show total _ < sizeOf _; simp [ofExpr]; omega
  | star x => have := weight_expr_le x; show total _ < sizeOf _; simp [ofExpr]; omega
  | unary op x => have := weight_expr_le x; show total _ < sizeOf _; simp [ofExpr]; omega
  | binary op x y =>
    have := weight_expr_le x
    have := weight_expr_le y
    show total _ < sizeOf _; simp [ofExpr]; omega
  | keyValue key value =>
    have := weight_expr_le key
    have := weight_expr_le value
    show total _ < sizeOf _; simp [ofExpr]; omega
  | typeExpr =>
    show total [] < sizeOf _
    rw [total_nil, Expr.typeExpr.sizeOf_spec]
    omega

theorem total_ofStmt_lt (s : Stmt) : total (ofStmt s) < weight (.stmt s) := by
  cases s with
  | decl d => simp [ofStmt]
  | empty =>
    show total [] < sizeOf _
    rw [total_nil, Stmt.empty.sizeOf_spec]
    omega
  | labeled label s => simp [ofStmt]
  | expr x => have := weight_expr_le x; simp [ofStmt]; omega
  | send chan value =>
    have := weight_expr_le chan
    have := weight_expr_le value
    simp [ofStmt]; omega
  | incDec x => have := weight_expr_le x; simp [ofStmt]; omega
  | assign lhs tok tokPos rhs =>
    have := total_exprs_lt lhs
    have := total_exprs_lt rhs
    simp [ofStmt]; omega
  | goStmt c pos => have := one_le_sizeOf_int pos; simp [ofStmt]; omega
  | deferStmt c pos => have := one_le_sizeOf_int pos; simp [ofStmt]; omega
  | returnStmt results => have := total_exprs_lt results; simp [ofStmt]; omega
  | branch tok pos label =>
    cases label with
    | none => simp [ofStmt]
    | some id => simp [ofStmt]; omega
  | block b =>
    obtain ⟨ss, _⟩ := b
    have := total_stmts_lt ss
    simp [ofStmt]; omega
  | ifStmt cond body pos init orElse =>
    have := weight_expr_le cond
    have := total_optStmt_lt init
    have := total_optStmt_lt orElse
    simp [ofStmt]; omega
  | caseClause xs body =>
    have := total_stmts_lt body
    cases xs with
    | none => simp [ofStmt, exprs]; omega
    | some xs => have := total_exprs_lt xs; simp [ofStmt]; omega
  | switchStmt body pos init tag =>
    have := total_optStmt_lt init
    have := total_optExpr_lt tag
    simp [ofStmt]; omega
  | typeSwitch assign body pos init =>
    have := total_optStmt_lt init
    have := one_le_sizeOf_int pos
    simp [ofStmt]; omega
  | commClause comm body =>
    have := total_optStmt_lt comm
    have := total_stmts_lt body
    simp [ofStmt]; omega
  | selectStmt body pos => have := one_le_sizeOf_int pos; simp [ofStmt]; omega
  | forStmt body pos init cond post =>
    have := total_optStmt_lt init
    have := total_optExpr_lt cond
    have := total_optStmt_lt post
    simp [ofStmt]; omega
  | rangeStmt x body pos key value =>
    have := weight_expr_le x
    have := total_optExpr_lt key
    have := total_optExpr_lt value
    simp [ofStmt]; omega

/-- The children of a node together are smaller than the node. -/
theorem total_children_lt (n : Node) : total n.children < n.weight := by
  cases n with
  | expr x => exact total_ofExpr_lt x
  | stmt s => exact total_ofStmt_lt s
  | valueSpec spec =>
    obtain ⟨name, others, values, _⟩ := spec
    have := total_idents_lt others
    have := total_exprs_lt values
    simp [children]; omega
  | genDecl decl =>
    obtain ⟨_, specs, _⟩ := decl
    have := total_specs_lt specs
    simp [children]; omega
  | funcDecl d =>
    obtain ⟨name, pos, body, recv⟩ := d
    cases body with
    | none => simp [children]; omega
    | some b =>
      have := one_le_sizeOf_int pos
      simp [children]; omega
  | file f =>
    have := total_decls_lt f.decls
    cases f
    simp [children] at *; omega

/-! ## The order of visits -/

theorem weight_lt_of_mem {n : Node} {ns : List Node} (h : n ∈ ns) : n.weight ≤ total ns := by
  induction ns with
  | nil => cases h
  | cons m ns ih =>
    rcases List.mem_cons.mp h with rfl | h
    · simp
    · have := ih h
      simp only [total_cons]
      omega

/-- A node, then everything below its children, one child after the other. -/
def preorder (n : Node) : List Node :=
  n :: n.children.attach.flatMap fun ⟨child, _⟩ => preorder child
termination_by n.weight
decreasing_by
  exact Nat.lt_of_le_of_lt (weight_lt_of_mem (by assumption)) (total_children_lt n)

theorem preorder_eq (n : Node) : n.preorder = n :: n.children.flatMap preorder := by
  rw [preorder]
  simp [List.flatMap]

/-- Visits the nodes that are waiting, putting the children of each in front of the rest. -/
def walkAll : List Node → List Node
  | [] => []
  | n :: waiting => n :: walkAll (n.children ++ waiting)
termination_by waiting => total waiting
decreasing_by
  have := total_children_lt n
  simp only [total_append, total_cons]
  omega

/-- A node and everything below it, in order of visit. -/
def walk (n : Node) : List Node := walkAll [n]

/-- Visiting the waiting nodes lists each of them in pre-order. -/
theorem walkAll_eq (waiting : List Node) : walkAll waiting = waiting.flatMap preorder := by
  fun_induction walkAll waiting with
  | case1 => rfl
  | case2 n waiting ih =>
    rw [ih, List.flatMap_append, List.flatMap_cons, preorder_eq]
    simp

theorem walk_eq (n : Node) : n.walk = n.preorder := by
  rw [walk, walkAll_eq, List.flatMap_singleton]

theorem mem_preorder_self (n : Node) : n ∈ n.preorder := by
  rw [preorder_eq]
  exact List.mem_cons_self

theorem mem_preorder_of_child {n c m : Node} (hc : c ∈ n.children) (hm : m ∈ c.preorder) :
    m ∈ n.preorder := by
  rw [preorder_eq]
  exact List.mem_cons_of_mem _ (List.mem_flatMap.mpr ⟨c, hc, hm⟩)

/-- What is below a node of a tree is in the tree. -/
theorem mem_preorder_trans {n m l : Node} (hm : m ∈ n.preorder) (hl : l ∈ m.preorder) :
    l ∈ n.preorder := by
  fun_induction preorder n with
  | case1 n ih =>
    rw [← preorder, preorder_eq, List.mem_cons, List.mem_flatMap] at hm
    rcases hm with rfl | ⟨c, hc, hm⟩
    · rwa [← preorder]
    · rw [← preorder]
      exact mem_preorder_of_child hc (ih c hc hm)

/-- Every node of a tree has a property if the root has it and every node below each child does. -/
theorem forall_preorder {n : Node} {p : Node → Prop} :
    (∀ m ∈ n.preorder, p m) ↔ p n ∧ ∀ c ∈ n.children, ∀ m ∈ c.preorder, p m := by
  rw [preorder_eq, List.forall_mem_cons, List.forall_mem_flatMap]

end Node

end UncheckedErrors
