import Mathlib.Data.List.Forall2
import UncheckedErrors.Exclusion.Index
import UncheckedErrors.Proofs.Scan

/-!
# Outlines

The outline of a node is what it holds itself, with what is below it left open. What a node is
reported for depends on its outline and on the expressions directly below it (`Node.operands`), and
of those again on no more than their outlines, the outlines of their own operands, and where they
start (`Expr.Alike`). So nodes with the same outline and alike operands are reported for the same
(`Node.Resembles.keys`).

A call can be excluded on account of its outline and those of its operands alone
(`ExclusionIndex.excludes_shape`).
-/

namespace UncheckedErrors

/-! ## Nodes without what is below them

A part that is left open has a default in its place; which one it is does not matter. -/

instance : Inhabited Ident := ⟨⟨"", 0, none, none⟩⟩

instance : Inhabited Expr := ⟨.ident default⟩

instance : Inhabited Call := ⟨.mk default [] 0 0 none none⟩

instance : Inhabited Block := ⟨.mk [] 0⟩

instance : Inhabited Stmt := ⟨.empty 0⟩

instance : Inhabited ValueSpec := ⟨.mk default [] [] none⟩

instance : Inhabited GenDecl := ⟨.mk "" [] 0⟩

instance : Inhabited Decl := ⟨.gen default⟩

/-- What stands for anything that is left open. -/
def hole {α : Type} [Inhabited α] (_ : α) : α := default

/-- An expression with what is below it left open. -/
def Expr.outline : Expr → Expr
  | .ident id => .ident id
  | .basicLit kind value pos type => .basicLit kind value pos type
  | .compositeLit elts lbrace type => .compositeLit (elts.map hole) lbrace type
  | .funcLit body pos type => .funcLit (hole body) pos type
  | .paren x lparen type => .paren (hole x) lparen type
  | .selector x sel selection type => .selector (hole x) sel selection type
  | .index x indices lbrack type => .index (hole x) (indices.map hole) lbrack type
  | .slice x lbrack low high max type =>
    .slice (hole x) lbrack (low.map hole) (high.map hole) (max.map hole) type
  | .typeAssert x lparen asserted type => .typeAssert (hole x) lparen asserted type
  | .call (.mk fn args lparen rparen type ellipsis) =>
    .call (.mk (hole fn) (args.map hole) lparen rparen type ellipsis)
  | .star x pos type => .star (hole x) pos type
  | .unary op x pos type => .unary op (hole x) pos type
  | .binary op x y opPos type => .binary op (hole x) (hole y) opPos type
  | .keyValue key value => .keyValue (hole key) (hole value)
  | .typeExpr type pos => .typeExpr type pos

/-- A statement with what is below it left open. -/
def Stmt.outline : Stmt → Stmt
  | .decl d => .decl (hole d)
  | .empty pos => .empty pos
  | .labeled label s => .labeled label (hole s)
  | .expr x => .expr (hole x)
  | .send chan value arrow => .send (hole chan) (hole value) arrow
  | .incDec x tok tokPos => .incDec (hole x) tok tokPos
  | .assign lhs tok tokPos rhs => .assign (lhs.map hole) tok tokPos (rhs.map hole)
  | .goStmt c pos => .goStmt (hole c) pos
  | .deferStmt c pos => .deferStmt (hole c) pos
  | .returnStmt results pos => .returnStmt (results.map hole) pos
  | .branch tok pos label => .branch tok pos label
  | .block (.mk ss lbrace) => .block (.mk (ss.map hole) lbrace)
  | .ifStmt cond body pos init orElse =>
    .ifStmt (hole cond) (hole body) pos (init.map hole) (orElse.map hole)
  | .caseClause xs body pos => .caseClause (xs.map (·.map hole)) (body.map hole) pos
  | .switchStmt body pos init tag => .switchStmt (hole body) pos (init.map hole) (tag.map hole)
  | .typeSwitch tested body pos init =>
    .typeSwitch (hole tested) (hole body) pos (init.map hole)
  | .commClause comm body pos => .commClause (comm.map hole) (body.map hole) pos
  | .selectStmt body pos => .selectStmt (hole body) pos
  | .forStmt body pos init cond post =>
    .forStmt (hole body) pos (init.map hole) (cond.map hole) (post.map hole)
  | .rangeStmt x body pos key value tok =>
    .rangeStmt (hole x) (hole body) pos (key.map hole) (value.map hole) tok

namespace Node

/-- A node with what is below it left open. -/
def outline : Node → Node
  | .expr x => .expr x.outline
  | .stmt s => .stmt s.outline
  | .valueSpec (.mk name others values type) => .valueSpec (.mk name others (values.map hole) type)
  | .genDecl (.mk tok specs pos) => .genDecl (.mk tok (specs.map hole) pos)
  | .funcDecl decl => .funcDecl { decl with body := decl.body.map hole }
  | .file f => .file { f with decls := f.decls.map hole }

/-- The expression that a node is. -/
def asExpr? : Node → Option Expr
  | .expr x => some x
  | _ => none

/-- The expressions directly below a node. -/
def operands (n : Node) : List Expr := n.children.filterMap asExpr?

theorem filterMap_exprs (xs : List Expr) : (exprs xs).filterMap asExpr? = xs := by
  rw [exprs, List.filterMap_map]
  exact List.filterMap_some

end Node

/-! ## What an outline tells -/

/-- A call whose parts are outlines. -/
def Call.shape (c : Call) : Call :=
  .mk c.fn.outline (c.args.map (·.outline)) c.lparen c.rparen c.type c.ellipsis

namespace Expr

/-- The expressions directly below an expression. -/
def operands (x : Expr) : List Expr := (Node.expr x).operands

/-- The call that an expression is. -/
def asCall? : Expr → Option Call
  | .call c => some c
  | _ => none

/-- Whether an expression starts where its first operand does. -/
def leansLeft : Expr → Bool
  | .selector .. | .index .. | .slice .. | .typeAssert .. | .call _ => true
  | .binary .. | .keyValue .. => true
  | _ => false

variable (x : Expr)

@[simp] theorem isBlank_outline : x.outline.isBlank = x.isBlank := by
  cases x with
  | call c => cases c; rfl
  | _ => rfl

@[simp] theorem isAssertion_outline : x.outline.isAssertion = x.isAssertion := by
  cases x with
  | call c => cases c; rfl
  | typeAssert x lparen asserted type => cases asserted <;> rfl
  | _ => rfl

@[simp] theorem leansLeft_outline : x.outline.leansLeft = x.leansLeft := by
  cases x with
  | call c => cases c; rfl
  | _ => rfl

@[simp] theorem argumentName?_outline : x.outline.argumentName? = x.argumentName? := by
  cases x with
  | call c => cases c; rfl
  | _ => rfl

/-- A call is told by its outline and its operands, as far as they show. -/
theorem shape_asCall? :
    x.asCall?.map Call.shape = x.outline.asCall?.map fun c =>
      .mk ((x.operands.map outline).headD default) (x.operands.map outline).tail c.lparen c.rparen
        c.type c.ellipsis := by
  cases x with
  | call c =>
    obtain ⟨fn, args, lparen, rparen, type, ellipsis⟩ := c
    have hoperands : (Expr.call (.mk fn args lparen rparen type ellipsis)).operands = fn :: args :=
      congrArg (fn :: ·) (Node.filterMap_exprs args)
    rw [hoperands]
    rfl
  | _ => rfl

theorem pos_eq :
    x.pos = if x.leansLeft then (x.operands.head?.map pos).getD 0 else x.outline.pos := by
  cases x with
  | call c => cases c; rfl
  | _ => rfl

end Expr

namespace Call

variable (c : Call)

@[simp] theorem errorSlots_shape : c.shape.errorSlots = c.errorSlots := rfl

@[simp] theorem isRecover_shape : c.shape.isRecover = c.isRecover := by
  obtain ⟨fn, args, lparen, rparen, type, ellipsis⟩ := c
  cases fn with
  | call c => cases c; rfl
  | _ => rfl

@[simp] theorem returnsError_shape : c.shape.returnsError = c.returnsError := by
  rw [returnsError, returnsError, isRecover_shape, errorSlots_shape]

@[simp] theorem calleeIdent?_shape : c.shape.calleeIdent? = c.calleeIdent? := by
  obtain ⟨fn, args, lparen, rparen, type, ellipsis⟩ := c
  cases fn with
  | call c => cases c; rfl
  | _ => rfl

@[simp] theorem callee?_shape : c.shape.callee? = c.callee? := by
  rw [callee?, callee?, calleeIdent?_shape]

@[simp] theorem argumentName?_shape : c.shape.argumentName? = c.argumentName? := by
  obtain ⟨fn, args, lparen, rparen, type, ellipsis⟩ := c
  cases args with
  | nil => rfl
  | cons x args => exact x.argumentName?_outline

end Call

namespace ExclusionIndex

theorem namesOf_shape (types : TypeTable) (c : Call) : namesOf types c.shape = namesOf types c := by
  unfold namesOf
  rw [Call.callee?_shape]
  obtain ⟨fn, args, lparen, rparen, type, ellipsis⟩ := c
  cases fn with
  | call c => cases c; rfl
  | selector x sel selection type => cases selection <;> rfl
  | _ => rfl

/-- Exclusions go by the outlines of the parts of a call. -/
theorem excludes_shape (index : ExclusionIndex) (types : TypeTable) (c : Call) :
    index.excludes types c.shape = index.excludes types c := by
  simp only [excludes, Call.callee?_shape, Call.calleeIdent?_shape, Call.argumentName?_shape,
    namesOf_shape]

end ExclusionIndex

/-! ## Nodes by outline and operands -/

namespace Node

/-- Whether a node is a statement that may drop the results of a call. -/
def mayDrop : Node → Bool
  | .stmt (.expr _) | .stmt (.goStmt _ _) | .stmt (.deferStmt _ _) => true
  | _ => false

variable (n : Node)

theorem mayDrop_outline : n.outline.mayDrop = n.mayDrop := by
  cases n with
  | stmt s =>
    cases s with
    | block b => cases b; rfl
    | _ => rfl
  | valueSpec spec => cases spec; rfl
  | genDecl decl => cases decl; rfl
  | _ => rfl

theorem droppedCall?_eq :
    n.droppedCall? = if n.mayDrop then n.operands.head?.bind Expr.asCall? else none := by
  cases n with
  | stmt s =>
    cases s with
    | expr x => cases x <;> rfl
    | _ => rfl
  | _ => rfl

/-- The values of an assignment follow its targets. -/
theorem assignment?_eq :
    n.assignment? =
      n.outline.assignment?.map fun (targets, _) => n.operands.splitAt targets.length := by
  cases n with
  | stmt s =>
    cases s with
    | assign lhs tok tokPos rhs =>
      simp [assignment?, outline, Stmt.outline, operands, children, ofStmt, filterMap_exprs]
    | block b => cases b; rfl
    | _ => rfl
  | valueSpec spec =>
    obtain ⟨name, others, values, type⟩ := spec
    have hnames : (others.map ident).filterMap asExpr? = others.map Expr.ident := by
      rw [show others.map ident = exprs (others.map .ident) from (List.map_map ..).symm,
        filterMap_exprs]
    have hoperands : (valueSpec (.mk name others values type)).operands =
        (name :: others).map Expr.ident ++ values := by
      show Expr.ident name :: (others.map ident ++ exprs values).filterMap asExpr? = _
      rw [List.filterMap_append, hnames, filterMap_exprs]
      rfl
    cases values with
    | nil => rfl
    | cons value values =>
      rw [hoperands]
      simp [assignment?, outline, ValueSpec.values, ValueSpec.names]
  | genDecl decl => cases decl; rfl
  | _ => rfl

end Node

/-! ## Alike expressions -/

/-- Two expressions are alike as operands of a node: nothing that matters to what the node is
reported for tells them apart. -/
structure Expr.Alike (x x' : Expr) : Prop where
  outline : x.outline = x'.outline
  operands : x.operands.map Expr.outline = x'.operands.map Expr.outline
  pos : x.pos = x'.pos

namespace Expr.Alike

theorem refl (x : Expr) : x.Alike x := ⟨rfl, rfl, rfl⟩

variable {x x' : Expr} (h : x.Alike x')

include h

theorem isBlank : x.isBlank = x'.isBlank := by
  rw [← isBlank_outline, h.outline, isBlank_outline]

theorem isAssertion : x.isAssertion = x'.isAssertion := by
  rw [← isAssertion_outline, h.outline, isAssertion_outline]

/-- Both are calls of the same shape, or none is a call. -/
theorem calls :
    x.asCall? = none ∧ x'.asCall? = none ∨
      ∃ c c', x.asCall? = some c ∧ x'.asCall? = some c' ∧ c.shape = c'.shape := by
  have hshape : x.asCall?.map Call.shape = x'.asCall?.map Call.shape := by
    rw [shape_asCall?, shape_asCall?, h.outline, h.operands]
  cases hx : x.asCall? with
  | none =>
    rw [hx] at hshape
    exact .inl ⟨rfl, Option.map_eq_none_iff.mp hshape.symm⟩
  | some c =>
    rw [hx] at hshape
    obtain ⟨c', hx', hc⟩ := Option.map_eq_some_iff.mp hshape.symm
    exact .inr ⟨c, c', rfl, hx', hc.symm⟩

end Expr.Alike

/-! ## What a node is reported for -/

/-- What a site is told by. -/
def Site.key (site : Site) : DiagnosticKind × Int := (site.kind, site.offset)

namespace Occurrence

open List (Forall₂)

variable {modes : Modes} {excluded : Call → Bool} (hexcluded : ∀ c, excluded c.shape = excluded c)

include hexcluded in
theorem keys_callSites {c c' : Call} (hc : c.shape = c'.shape) :
    (callSites excluded c).map Site.key = (callSites excluded c').map Site.key := by
  have hshape (c : Call) :
      (callSites excluded c).map Site.key = (callSites excluded c.shape).map Site.key := by
    rw [callSites, callSites, Call.returnsError_shape, hexcluded]
    split <;> rfl
  rw [hshape c, hc, ← hshape c']

theorem keys_blankTargets {c c' : Call} (hc : c.shape = c'.shape) {targets targets' : List Expr}
    (htargets : Forall₂ Expr.Alike targets targets') (slots : List Bool) :
    (blankTargets c slots targets).map Site.key =
      (blankTargets c' slots targets').map Site.key := by
  have hrecover : c.isRecover = c'.isRecover := by
    rw [← Call.isRecover_shape, hc, Call.isRecover_shape]
  induction htargets generalizing slots with
  | nil => rfl
  | cons htarget _ ih =>
    rw [blankTargets, blankTargets, List.map_append, List.map_append, ih, htarget.isBlank,
      htarget.pos, hrecover]
    split <;> rfl

include hexcluded in
theorem keys_spreadSites {c c' : Call} (hc : c.shape = c'.shape) {targets targets' : List Expr}
    (htargets : Forall₂ Expr.Alike targets targets') :
    (spreadSites modes excluded targets c).map Site.key =
      (spreadSites modes excluded targets' c').map Site.key := by
  have hslots : c.errorSlots = c'.errorSlots := by
    rw [← Call.errorSlots_shape, hc, Call.errorSlots_shape]
  have hboth : excluded c = excluded c' := by rw [← hexcluded, hc, hexcluded]
  rw [spreadSites, spreadSites, ← blankTargets_eq, ← blankTargets_eq, hboth, hslots]
  split
  · exact keys_blankTargets hc htargets _
  · rfl

theorem keys_okSites {targets targets' : List Expr}
    (htargets : Forall₂ Expr.Alike targets targets') :
    (okSites modes targets).map Site.key = (okSites modes targets').map Site.key := by
  rcases htargets with _ | ⟨-, _ | ⟨hok, -⟩⟩
  · rfl
  · rfl
  · simp only [okSites, List.getElem?_cons_succ, List.getElem?_cons_zero, hok.isBlank, hok.pos]

theorem pairSite?_eq (target value : Expr) :
    pairSite? modes excluded target value =
      match value.asCall? with
      | some c =>
        if target.isBlank && modes.blank && c.returnsError && !excluded c then
          some ⟨.uncheckedBlank, target.pos, some c⟩ else none
      | none =>
        if value.isAssertion && target.isBlank && modes.blank && modes.asserts then
          some ⟨.uncheckedAssert, target.pos, none⟩ else none := by
  cases value <;> rfl

include hexcluded in
theorem key_pairSite? {target target' value value' : Expr} (htarget : target.Alike target')
    (hvalue : value.Alike value') :
    (pairSite? modes excluded target value).map Site.key =
      (pairSite? modes excluded target' value').map Site.key := by
  rw [pairSite?_eq, pairSite?_eq, htarget.isBlank, htarget.pos, hvalue.isAssertion]
  obtain ⟨hnone, hnone'⟩ | ⟨c, c', hsome, hsome', hc⟩ := hvalue.calls
  · rw [hnone, hnone']
  · have hreturns : c.returnsError = c'.returnsError := by
      rw [← Call.returnsError_shape, hc, Call.returnsError_shape]
    have hboth : excluded c = excluded c' := by rw [← hexcluded, hc, hexcluded]
    simp only [hsome, hsome', hreturns, hboth]
    split <;> rfl

theorem assignedSites_singleton (targets : List Expr) (value : Expr) :
    assignedSites modes excluded targets [value] =
      match value.asCall? with
      | some c => spreadSites modes excluded targets c
      | none => if value.isAssertion then okSites modes targets else [] := by
  cases value <;> rfl

/-- The sites of several values, each assigned to its own target. -/
def pairedSites (modes : Modes) (excluded : Call → Bool) (targets values : List Expr) : List Site :=
  (targets.zip values).filterMap fun (target, value) => pairSite? modes excluded target value

theorem assignedSites_cons_cons (targets : List Expr) (value next : Expr) (rest : List Expr) :
    assignedSites modes excluded targets (value :: next :: rest) =
      if targets.length = (value :: next :: rest).length then
        pairedSites modes excluded targets (value :: next :: rest) else [] := by
  cases value <;> rfl

include hexcluded in
theorem keys_pairedSites {targets targets' values values' : List Expr}
    (htargets : Forall₂ Expr.Alike targets targets')
    (hvalues : Forall₂ Expr.Alike values values') :
    (pairedSites modes excluded targets values).map Site.key =
      (pairedSites modes excluded targets' values').map Site.key := by
  rw [pairedSites, pairedSites, List.map_filterMap, List.map_filterMap]
  induction htargets generalizing values values' with
  | nil => rfl
  | cons htarget _ ih =>
    cases hvalues with
    | nil => rfl
    | cons hvalue hvalues =>
      simp only [List.zip_cons_cons, List.filterMap_cons,
        key_pairSite? hexcluded htarget hvalue, ih hvalues]

include hexcluded in
theorem keys_assignedSites {targets targets' values values' : List Expr}
    (htargets : Forall₂ Expr.Alike targets targets')
    (hvalues : Forall₂ Expr.Alike values values') :
    (assignedSites modes excluded targets values).map Site.key =
      (assignedSites modes excluded targets' values').map Site.key := by
  cases hvalues with
  | nil => cases htargets <;> rfl
  | cons hvalue hrest =>
    cases hrest with
    | nil =>
      rw [assignedSites_singleton, assignedSites_singleton, hvalue.isAssertion]
      obtain ⟨hnone, hnone'⟩ | ⟨c, c', hsome, hsome', hc⟩ := hvalue.calls
      · rw [hnone, hnone']
        dsimp only
        split
        · exact keys_okSites htargets
        · rfl
      · rw [hsome, hsome']
        exact keys_spreadSites hexcluded hc htargets
    | cons hnext hrest =>
      have hvalues := Forall₂.cons hvalue (.cons hnext hrest)
      rw [assignedSites_cons_cons, assignedSites_cons_cons, htargets.length_eq, hvalues.length_eq]
      split
      · exact keys_pairedSites hexcluded htargets hvalues
      · rfl

end Occurrence

/-! ## Nodes that resemble each other -/

/-- Two nodes resemble each other if they have the same outline and alike operands. -/
structure Node.Resembles (n n' : Node) : Prop where
  outline : n.outline = n'.outline
  operands : List.Forall₂ Expr.Alike n.operands n'.operands

/-- Two nodes are alike below another node if both are expressions, and alike, or none is one. -/
inductive Node.Alike : Node → Node → Prop
  | exprs {x x' : Expr} (hx : x.Alike x') : Alike (.expr x) (.expr x')
  | others {n n' : Node} (hn : ∀ x, n ≠ .expr x) (hn' : ∀ x, n' ≠ .expr x) : Alike n n'

/-- Expressions that resemble each other are alike. -/
theorem Expr.Alike.of_resembles {x x' : Expr} (houtline : x.outline = x'.outline)
    (hoperands : List.Forall₂ Expr.Alike x.operands x'.operands) : x.Alike x' where
  outline := houtline
  operands := by
    generalize x.operands = xs, x'.operands = xs' at hoperands
    induction hoperands with
    | nil => rfl
    | cons hx _ ih => rw [List.map_cons, List.map_cons, hx.outline, ih]
  pos := by
    have hleans : x.leansLeft = x'.leansLeft := by
      rw [← leansLeft_outline, houtline, leansLeft_outline]
    rw [pos_eq x, pos_eq x', hleans, houtline]
    generalize x.operands = xs, x'.operands = xs' at hoperands
    rcases hoperands with _ | ⟨hx, -⟩
    · rfl
    · simp only [List.head?_cons, Option.map_some, hx.pos]

namespace Node

open List (Forall₂)

/-- A node with the outline of an expression is one. -/
theorem eq_expr_of_outline {x : Expr} {n' : Node} (h : (Node.expr x).outline = n'.outline) :
    ∃ x', n' = .expr x' ∧ x.outline = x'.outline := by
  cases n' with
  | expr x' => exact ⟨x', rfl, Node.expr.inj h⟩
  | valueSpec spec => cases spec; cases h
  | genDecl decl => cases decl; cases h
  | _ => cases h

/-- One child is exchanged for one that is alike. -/
theorem Resembles.of_children {n n' c c' : Node} {before after : List Node}
    (houtline : n.outline = n'.outline) (hchildren : n.children = before ++ c :: after)
    (hchildren' : n'.children = before ++ c' :: after) (hc : c.Alike c') : n.Resembles n' where
  outline := houtline
  operands := by
    have hrefl (xs : List Expr) : Forall₂ Expr.Alike xs xs :=
      List.forall₂_same.mpr fun x _ => .refl x
    rw [Node.operands, Node.operands, hchildren, hchildren', List.filterMap_append,
      List.filterMap_append]
    refine List.rel_append (hrefl _) ?_
    cases hc with
    | exprs hx => exact .cons hx (hrefl _)
    | others hc hc' =>
      have hnone {c : Node} (hc : ∀ x, c ≠ .expr x) : c.asExpr? = none := by
        cases c with
        | expr x => exact absurd rfl (hc x)
        | _ => rfl
      rw [List.filterMap_cons_none (hnone hc), List.filterMap_cons_none (hnone hc')]
      exact hrefl _

namespace Resembles

variable {n n' : Node} (h : n.Resembles n')

include h

theorem alike : n.Alike n' := by
  obtain ⟨houtline, hoperands⟩ := h
  by_cases hexpr : ∃ x, n = .expr x
  · obtain ⟨x, rfl⟩ := hexpr
    obtain ⟨x', rfl, hx⟩ := eq_expr_of_outline houtline
    exact .exprs (.of_resembles hx hoperands)
  · refine .others (fun x hx => hexpr ⟨x, hx⟩) ?_
    rintro x' rfl
    obtain ⟨x, hx, -⟩ := eq_expr_of_outline houtline.symm
    exact hexpr ⟨x, hx⟩

theorem droppedCalls :
    n.droppedCall? = none ∧ n'.droppedCall? = none ∨
      ∃ c c', n.droppedCall? = some c ∧ n'.droppedCall? = some c' ∧ c.shape = c'.shape := by
  have hdrop : n.mayDrop = n'.mayDrop := by rw [← mayDrop_outline, h.outline, mayDrop_outline]
  have hoperands := h.operands
  rw [droppedCall?_eq, droppedCall?_eq, hdrop]
  generalize n.operands = xs, n'.operands = xs' at hoperands
  cases n'.mayDrop with
  | false => exact .inl ⟨rfl, rfl⟩
  | true =>
    cases hoperands with
    | nil => exact .inl ⟨rfl, rfl⟩
    | cons hx _ => exact hx.calls

theorem assignments :
    n.assignment? = none ∧ n'.assignment? = none ∨
      ∃ targets values targets' values',
        n.assignment? = some (targets, values) ∧ n'.assignment? = some (targets', values') ∧
          Forall₂ Expr.Alike targets targets' ∧ Forall₂ Expr.Alike values values' := by
  rw [assignment?_eq n, assignment?_eq n', h.outline]
  cases n'.outline.assignment? with
  | none => exact .inl ⟨rfl, rfl⟩
  | some assignment =>
    simp only [Option.map_some, List.splitAt_eq]
    exact .inr ⟨_, _, _, _, rfl, rfl, List.forall₂_take _ h.operands,
      List.forall₂_drop _ h.operands⟩

/-- If such nodes check an assertion, it is at the same place. -/
theorem checkedPlace? : n.checkedPlace? = n'.checkedPlace? := by
  obtain ⟨hnone, hnone'⟩ | ⟨targets, values, targets', values', hsome, hsome', htargets, hvalues⟩ :=
    h.assignments
  · rw [Node.checkedPlace?, Node.checkedPlace?, hnone, hnone']
  · rw [Node.checkedPlace?, Node.checkedPlace?, hsome, hsome']
    rcases hvalues with _ | ⟨hvalue, _ | _⟩
    · rfl
    · simp only [hvalue.isAssertion, htargets.length_eq]
    · rfl

/-- They are reported for the same, if they are checked alike. -/
theorem keys {modes : Modes} {excluded : Call → Bool}
    (hexcluded : ∀ c, excluded c.shape = excluded c) {parent parent' : Option (Node × Nat)}
    (hchecked : (Occurrence.mk n parent).isChecked = (Occurrence.mk n' parent').isChecked) :
    ((Occurrence.mk n parent).sites modes excluded).map Site.key =
      ((Occurrence.mk n' parent').sites modes excluded).map Site.key := by
  simp only [Occurrence.sites, List.map_append]
  congr 1
  · congr 1
    · obtain ⟨hnone, hnone'⟩ | ⟨c, c', hsome, hsome', hc⟩ := h.droppedCalls
      · rw [hnone, hnone']
      · rw [hsome, hsome']
        exact Occurrence.keys_callSites hexcluded hc
    · obtain ⟨hnone, hnone'⟩ | ⟨_, _, _, _, hsome, hsome', htargets, hvalues⟩ := h.assignments
      · rw [hnone, hnone']
      · rw [hsome, hsome']
        exact Occurrence.keys_assignedSites hexcluded htargets hvalues
  · cases h.alike with
    | exprs hx => simp only [Occurrence.assertionSites, hx.isAssertion, hx.pos, hchecked]
    | others hn hn' =>
      split
      · exact absurd rfl (hn _)
      · rfl

end Resembles

end Node

end UncheckedErrors
