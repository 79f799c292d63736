import UncheckedErrors.Proofs.Grammar
import UncheckedErrors.Proofs.ProgramForms
import UncheckedErrors.Tree.Walk

/-!
# Calls of a dump and calls of its trees

A reader that gives a tree gives one with as many calls as its form has in the places of
expressions: this holds of the readers of single forms (`yields_leaf`, `yields_chain_first`,
`yields_chain_third`, `yields_stmtForm`) if it holds of the readers of what is nested inside
(`InnerReaders.Counts`), hence of all (`counts_readersWithin`).

What stands outside the places of trees is passed over. So a walk of a file visits the calls of its
declarations less those outside (`readProgram_calls`), and a call is lost exactly if it stands
there, as in the second element of an expression statement (`readProgram_drops_surplus`).
-/

namespace UncheckedErrors

/-! ## Calls of a tree -/

namespace Node

/-- Whether a node is a call. -/
def isCall : Node → Bool
  | .expr (.call _) => true
  | _ => false

/-- The number of calls that a walk visits. -/
def calls (n : Node) : Nat := n.walk.countP isCall

/-- The number of calls that walks from several nodes visit. -/
def callsOfAll (ns : List Node) : Nat := (ns.map calls).sum

@[simp] theorem callsOfAll_nil : callsOfAll [] = 0 := rfl

@[simp] theorem callsOfAll_cons (n : Node) (ns : List Node) :
    callsOfAll (n :: ns) = n.calls + callsOfAll ns := rfl

@[simp] theorem callsOfAll_append (ns ms : List Node) :
    callsOfAll (ns ++ ms) = callsOfAll ns + callsOfAll ms := by
  simp [callsOfAll]

theorem calls_eq (n : Node) :
    n.calls = callsOfAll n.children + if n.isCall then 1 else 0 := by
  have hwalk (n : Node) : n.calls = n.preorder.countP isCall := by
    rw [calls, walk_eq]
  rw [hwalk, preorder_eq, List.countP_cons, List.countP_flatMap, callsOfAll]
  congr 3
  exact (funext hwalk).symm

@[simp] theorem calls_ident (id : Ident) : (ident id).calls = 0 := by
  rw [calls_eq]
  rfl

theorem callsOfAll_idents (ids : List Ident) : callsOfAll (ids.map ident) = 0 := by
  refine List.sum_eq_zero fun n hn => ?_
  obtain ⟨_, hmem, rfl⟩ := List.mem_map.mp hn
  obtain ⟨id, -, rfl⟩ := List.mem_map.mp hmem
  exact calls_ident id

end Node

/-- As many calls below the trees as in the places of the data, one by one and altogether. -/
theorem callsOfAll_eq_placed {α : Type} {node : α → Node} {place : Place} {ds : List Datum}
    {as : List α}
    (h : List.Forall₂ (fun d a => (node a).calls = d.placed (.each (some place))) ds as) :
    Node.callsOfAll (as.map node) = Datum.placedOfAll (.each (some place)) ds := by
  induction h with
  | nil => rfl
  | cons hd _ ih =>
    rw [List.map_cons, Node.callsOfAll_cons, Datum.placedOfAll_each_cons, hd, ih]

/-! ## Readers of parts -/

namespace InnerReaders

/-- The readers give trees with as many calls as the data have in places of expressions. -/
structure Counts (inner : InnerReaders) : Prop where
  exprAt : ∀ cost d, Yields (inner.exprAt cost d)
    fun x => (Node.expr x).calls = d.placed (.each (some .expr))
  stmtAt : ∀ cost d, Yields (inner.stmtAt cost d)
    fun s => (Node.stmt s).calls = d.placed (.each (some .stmt))

namespace Counts

variable {inner : InnerReaders} (h : inner.Counts)

include h

theorem deeper (n : Nat) : (inner.deeper n).Counts :=
  ⟨fun _ d => h.exprAt _ d, fun _ d => h.stmtAt _ d⟩

theorem expr (d : Datum) :
    Yields (inner.expr d) fun x => (Node.expr x).calls = d.placed (.each (some .expr)) :=
  h.exprAt 2 d

theorem stmt (d : Datum) :
    Yields (inner.stmt d) fun s => (Node.stmt s).calls = d.placed (.each (some .stmt)) :=
  h.stmtAt 2 d

theorem exprs (ds : List Datum) :
    Yields (inner.exprs ds) fun xs =>
      Node.callsOfAll (Node.exprs xs) = Datum.placedOfAll (.each (some .expr)) ds :=
  (Yields.mapM (h.deeper 2).expr ds).imp fun _ => callsOfAll_eq_placed

theorem stmts (ds : List Datum) :
    Yields (inner.stmts ds) fun ss =>
      Node.callsOfAll (Node.stmts ss) = Datum.placedOfAll (.each (some .stmt)) ds :=
  (Yields.mapM (h.deeper 2).stmt ds).imp fun _ => callsOfAll_eq_placed

theorem exprOption (options : Options) (key : String) :
    Yields (inner.exprOption options key) fun x =>
      Node.callsOfAll (Node.optExpr x) =
        Datum.placedOfAll (.each (some .expr)) (options.getAll key) := by
  intro table x table' hx
  simp only [InnerReaders.exprOption, bind_eq_ok, liftM_eq_ok, and_assoc, exists_and_left,
    exists_eq_left'] at hx
  obtain ⟨d, hd, hx⟩ := hx
  rw [Options.getAll_of_single? hd]
  exact callsOfAll_eq_placed (Yields.optionMapM (h.deeper 1).expr d _ _ _ hx)

theorem stmtOption (options : Options) (key : String) :
    Yields (inner.stmtOption options key) fun s =>
      Node.callsOfAll (Node.optStmt s) =
        Datum.placedOfAll (.each (some .stmt)) (options.getAll key) := by
  intro table s table' hs
  simp only [InnerReaders.stmtOption, bind_eq_ok, liftM_eq_ok, and_assoc, exists_and_left,
    exists_eq_left'] at hs
  obtain ⟨d, hd, hs⟩ := hs
  rw [Options.getAll_of_single? hd]
  exact callsOfAll_eq_placed (Yields.optionMapM (h.deeper 1).stmt d _ _ _ hs)

/-- The expressions of a case, if it has any. -/
theorem caseList (options : Options) (key : String) :
    Yields ((options.get? key).mapM inner.exprs) fun xs =>
      Node.callsOfAll (Node.exprs (xs.getD [])) =
        Datum.placedOfAll (.each (some .expr)) (options.getAll key) := by
  intro table xs table' hxs
  rw [Options.getAll]
  generalize options.get? key = found at hxs ⊢
  cases found with
  | none =>
    cases pure_eq_ok.mp hxs |>.1
    rfl
  | some ds =>
    rw [Option.mapM_some, map_eq_pure_bind, bind_eq_ok] at hxs
    obtain ⟨ys, _, hys, hsome⟩ := hxs
    cases pure_eq_ok.mp hsome |>.1
    exact h.exprs ds _ _ _ hys

theorem block (d : Datum) :
    Yields (inner.block d) fun b => (Node.block b).calls = d.placed (.each (some .block)) := by
  intro table b table' hb
  simp only [InnerReaders.block, bind_eq_ok, liftM_eq_ok, pure_eq_ok, and_assoc, exists_and_left,
    exists_eq_left', Prod.exists, Form.tagged_eq_ok, Form.operand_eq_ok] at hb
  obtain ⟨form, rfl, -, -, lbrace, rest, hargs, stmts, _, hstmts, pos, -, rfl, -⟩ := hb
  rw [hargs, Datum.placed_list _ _ rfl, Node.calls_eq]
  have := (h.deeper 1).stmts rest _ _ _ hstmts
  simpa [Node.block, Node.children, Node.ofStmt, Node.isCall, blockLayout] using this

theorem body (options : Options) (tag : String) :
    Yields (inner.body options tag) fun b =>
      (Node.block b).calls = Datum.placedOfAll (.each (some .block)) (options.getAll "body") := by
  intro table b table' hb
  simp only [InnerReaders.body, bind_eq_ok, liftM_eq_ok, and_assoc, exists_and_left,
    exists_eq_left'] at hb
  obtain ⟨d, hd, hb⟩ := hb
  rw [Options.getAll_of_required hd, h.block d _ _ _ hb]
  simp

theorem call (tag : String) (d : Datum) :
    Yields (inner.call tag d) fun c => (Node.call c).calls = d.placed (.each (some .expr)) := by
  refine ((h.deeper 1).expr d).bind fun x hx => ?_
  intro table c table' hc
  split at hc
  · rw [pure_eq_ok] at hc
    rw [← hc.1]
    exact hx
  · exact absurd hc throw_eq_ok.mp

end Counts

end InnerReaders

/-! ## Readers of expressions -/

section

variable {inner : InnerReaders} (h : inner.Counts)

include h

theorem yields_leaf (tag : String) (args : List Datum) :
    Yields (readLeaf inner ⟨tag, args⟩) fun x =>
      (Node.expr x).calls = (Datum.list (.symbol tag :: args)).placed (.each (some .expr)) := by
  unfold readLeaf
  dsimp only
  split
  all_goals
    intro table x table' hx
    simp only [bind_eq_ok, liftM_eq_ok, pure_eq_ok, throw_eq_ok, and_assoc, exists_and_left,
      exists_eq_left', Prod.exists, Form.operand_eq_ok, Form.operands2_eq_ok,
      Form.operands3_eq_ok] at hx
  · obtain ⟨id, _, -, rfl, -⟩ := hx
    rw [Datum.placed_list _ _ rfl, Node.calls_eq, Datum.placedOfAll_bare rfl]
    rfl
  · obtain ⟨_, _, _, _, -, _, -, _, -, _, -, _, -, _, _, -, rfl, -⟩ := hx
    rw [Datum.placed_list _ _ rfl, Node.calls_eq, Datum.placedOfAll_bare rfl]
    rfl
  · obtain ⟨_, _, rfl, options, hoptions, elts, _, helts, _, -, _, _, -, rfl, -⟩ := hx
    rw [Datum.placed_list _ _ rfl, Node.calls_eq]
    simp [Datum.placedOfAll_options hoptions, h.exprs _ _ _ _ helts, Node.children, Node.ofExpr,
      Node.isCall]
  · obtain ⟨_, _, _, rfl, _, -, body, _, hbody, _, -, _, _, -, rfl, -⟩ := hx
    rw [Datum.placed_list _ _ rfl, Node.calls_eq]
    simp [Datum.placedOfAll_bare, h.block _ _ _ _ hbody, Node.children, Node.ofExpr, Node.isCall,
      Layout.isBare]
  · obtain ⟨_, _, _, rfl, _, -, y, _, hy, _, -, _, _, -, rfl, -⟩ := hx
    rw [Datum.placed_list _ _ rfl, Node.calls_eq]
    simp [Datum.placedOfAll_bare, h.expr _ _ _ _ hy, Node.children, Node.ofExpr, Node.isCall,
      Layout.isBare]
  · obtain ⟨_, _, _, rfl, _, -, y, _, hy, _, -, _, _, -, rfl, -⟩ := hx
    rw [Datum.placed_list _ _ rfl, Node.calls_eq]
    simp [Datum.placedOfAll_bare, h.expr _ _ _ _ hy, Node.children, Node.ofExpr, Node.isCall,
      Layout.isBare]
  · obtain ⟨_, _, _, _, rfl, _, -, _, -, y, _, hy, _, -, _, _, -, rfl, -⟩ := hx
    rw [Datum.placed_list _ _ rfl, Node.calls_eq]
    simp [Datum.placedOfAll_bare, h.expr _ _ _ _ hy, Node.children, Node.ofExpr, Node.isCall,
      Layout.isBare]
  · obtain ⟨_, _, _, rfl, key, _, hkey, value, _, hvalue, rfl, -⟩ := hx
    rw [Datum.placed_list _ _ rfl, Node.calls_eq]
    simp [h.expr _ _ _ _ hkey, h.expr _ _ _ _ hvalue, Node.children, Node.ofExpr, Node.isCall]
  · obtain ⟨_, _, _, -, _, _, -, _, -, rfl, -⟩ := hx
    rw [Datum.placed_list _ _ rfl, Node.calls_eq, Datum.placedOfAll_bare rfl]
    rfl

/-- A left-anchored form around a leading operand that follows its tag. -/
theorem yields_chain_first {tag : String} (htag : leading? tag = some .first) {d : Datum}
    (rest : List Datum) {x : Expr} (hx : (Node.expr x).calls = d.placed (.each (some .expr))) :
    Yields (readChain inner ⟨tag, d :: rest⟩ x) fun y =>
      (Node.expr y).calls =
        (Datum.list (.symbol tag :: d :: rest)).placed (.each (some .expr)) := by
  unfold readChain
  dsimp only
  split
  case h_6 => exact absurd htag (by decide)
  all_goals
    intro table y table' hy
    simp only [bind_eq_ok, liftM_eq_ok, pure_eq_ok, throw_eq_ok, and_assoc, exists_and_left,
      exists_eq_left', Prod.exists, Form.operands2_eq_ok, Form.operands3_eq_ok, List.cons.injEq]
      at hy
  · obtain ⟨_, _, rfl, sel, _, hsel, hy⟩ := hy
    have hsel := h.expr _ _ _ _ hsel
    split at hy
    · simp only [bind_eq_ok, liftM_eq_ok, pure_eq_ok, and_assoc, exists_and_left,
        exists_eq_left'] at hy
      obtain ⟨_, -, _, _, -, _, _, -, rfl, -⟩ := hy
      rw [Datum.placed_list _ _ rfl, Node.calls_eq]
      simp [Datum.placedOfAll_bare, hx, ← hsel, Node.children, Node.ofExpr, Node.isCall,
        Layout.isBare, Node.ident]
    · exact absurd hy throw_eq_ok.mp
  · obtain ⟨_, _, _, rfl, items, options, hsplit, xs, _, hxs, _, -, _, _, -, rfl, -⟩ := hy
    rw [Datum.placed_list _ _ rfl, Node.calls_eq]
    simp [Datum.placedOfAll_split hsplit, hx, h.exprs _ _ _ _ hxs, Node.children, Node.ofExpr,
      Node.isCall]
  · obtain ⟨_, _, rfl, options, hoptions, _, -, low, _, hlow, high, _, hhigh, max, _, hmax,
      _, _, -, rfl, -⟩ := hy
    rw [Datum.placed_list _ _ rfl, Node.calls_eq]
    simp [Datum.placedOfAll_options hoptions, hx, h.exprOption _ _ _ _ _ hlow,
      h.exprOption _ _ _ _ _ hhigh, h.exprOption _ _ _ _ _ hmax, Node.children, Node.ofExpr,
      Node.isCall]
  · obtain ⟨_, _, rfl, _, -, _, -, _, -, _, _, -, _, _, -, rfl, -⟩ := hy
    rw [Datum.placed_list _ _ rfl, Node.calls_eq]
    simp [Datum.placedOfAll_bare, hx, Node.children, Node.ofExpr, Node.isCall, Layout.isBare]
  · obtain ⟨_, _, _, rfl, items, options, hsplit, _, -, xs, _, hxs, _, -, _, -, _, _, -, _, _, -,
      rfl, -⟩ := hy
    rw [Datum.placed_list _ _ rfl, Node.calls_eq]
    simp [Datum.placedOfAll_split hsplit, hx, h.exprs _ _ _ _ hxs, Node.children, Node.ofExpr,
      Node.isCall]

/-- A left-anchored form around a leading operand that follows an operator and a position. -/
theorem yields_chain_third {tag : String} (htag : leading? tag = some .third) {op pos d : Datum}
    (rest : List Datum) {x : Expr} (hx : (Node.expr x).calls = d.placed (.each (some .expr))) :
    Yields (readChain inner ⟨tag, op :: pos :: d :: rest⟩ x) fun y =>
      (Node.expr y).calls =
        (Datum.list (.symbol tag :: op :: pos :: d :: rest)).placed (.each (some .expr)) := by
  unfold readChain
  dsimp only
  split
  case h_6 =>
    intro table y table' hy
    simp only [bind_eq_ok, liftM_eq_ok, pure_eq_ok, and_assoc, exists_and_left, exists_eq_left',
      Prod.exists, Form.operands4_eq_ok, List.cons.injEq] at hy
    obtain ⟨_, _, rfl, _, -, _, -, _, -, z, _, hz, _, _, -, rfl, -⟩ := hy
    rw [Datum.placed_list _ _ rfl, Node.calls_eq]
    simp [Datum.placedOfAll_bare, hx, h.expr _ _ _ _ hz, Node.children, Node.ofExpr, Node.isCall,
      Layout.isBare]
  case h_7 => exact fun _ _ _ hy => absurd hy throw_eq_ok.mp
  all_goals exact absurd htag (by decide)

theorem yields_expr (d : Datum) :
    Yields (readExprWith inner d) fun x =>
      (Node.expr x).calls = d.placed (.each (some .expr)) := by
  fun_induction spine d with
  | case1 tag args htag =>
    rw [readExprWith_leaf inner htag]
    exact yields_leaf h tag args
  | case2 tag x rest htag ih =>
    rw [readExprWith_first inner htag]
    exact ih.bind fun y hy => yields_chain_first h htag rest hy
  | case3 tag op pos x rest htag ih =>
    rw [readExprWith_third inner htag]
    exact ih.bind fun y hy => yields_chain_third h htag rest hy
  | case4 tag htag =>
    exact yields_of_spine_error (e := .tooShort tag 2 1) (by simp only [spine, htag]; rfl)
  | case5 tag args _ htag =>
    exact yields_of_spine_error (e := .tooShort tag 4 (args.length + 1))
      (by simp [spine, htag]; rfl)
  | case6 => exact yields_of_spine_error (e := .tooShort "" 1 0) (by rw [spine]; rfl)
  | case7 head tail hhead =>
    exact yields_of_spine_error (e := .notSymbol head) (by rw [spine]; rfl; exact hhead)
  | case8 d hform hnil hlist =>
    exact yields_of_spine_error (e := .notList none d)
      (by rw [spine]; rfl; exact hform; exact hnil; exact hlist)

/-! ## Readers of declarations and statements -/

theorem yields_valueSpec (d : Datum) :
    Yields (readValueSpec inner d) fun spec =>
      (Node.valueSpec spec).calls = d.placed (.each (some .valueSpec)) := by
  intro table spec table' hspec
  simp only [readValueSpec, bind_eq_ok, liftM_eq_ok, and_assoc, exists_and_left, exists_eq_left',
    Form.tagged_eq_ok] at hspec
  obtain ⟨form, rfl, -, -, options, hoptions, names, _, hnames, hspec⟩ := hspec
  have hnames := h.exprs _ _ _ _ hnames
  generalize hidents : identsOf? names = ids at hspec
  split at hspec
  · rename_i name others
    simp only [bind_eq_ok, pure_eq_ok] at hspec
    obtain ⟨values, _, hvalues, _, _, -, rfl, -⟩ := hspec
    rw [eq_map_of_identsOf? hidents, Node.exprs, List.map_map,
      show Node.expr ∘ Expr.ident = Node.ident from rfl, Node.callsOfAll_idents] at hnames
    rw [Datum.placed_list _ _ rfl, Node.calls_eq]
    simp [Datum.placedOfAll_options hoptions, ← hnames, h.exprs _ _ _ _ hvalues,
      Node.callsOfAll_idents, Node.children, Node.isCall]
  · exact absurd hspec throw_eq_ok.mp

theorem yields_genDecl (d : Datum) :
    Yields (readGenDecl inner d) fun decl => (Node.genDecl decl).calls =
      d.placed (.each (some .genDecl)) := by
  intro table decl table' hdecl
  simp only [readGenDecl, bind_eq_ok, liftM_eq_ok, pure_eq_ok, and_assoc, exists_and_left,
    exists_eq_left', Prod.exists, Form.tagged_eq_ok, Form.operands2_eq_ok] at hdecl
  obtain ⟨form, rfl, -, -, _, _, rest, hargs, _, -, specs, _, hspecs, _, -, rfl, -⟩ := hdecl
  have hspecs := Yields.mapM (yields_valueSpec (h.deeper 2)) rest _ _ _ hspecs
  rw [hargs, Datum.placed_list _ _ rfl, Node.calls_eq]
  simp [genDeclLayout, callsOfAll_eq_placed hspecs, Node.children, Node.isCall]

/-! ### Statements, one form each -/

theorem yields_blockStmt (args : List Datum) :
    Yields (readBlockStmt inner ⟨"block", args⟩) fun s =>
      (Node.stmt s).calls =
        (Datum.list (.symbol "block" :: args)).placed (.each (some .stmt)) := by
  intro table s table' hs
  simp only [readBlockStmt, bind_eq_ok, pure_eq_ok] at hs
  obtain ⟨b, _, hb, rfl, -⟩ := hs
  exact h.block _ _ _ _ hb

theorem yields_exprStmt (args : List Datum) :
    Yields (readExprStmt inner ⟨"expr-stmt", args⟩) fun s =>
      (Node.stmt s).calls =
        (Datum.list (.symbol "expr-stmt" :: args)).placed (.each (some .stmt)) := by
  intro table s table' hs
  simp only [readExprStmt, bind_eq_ok, liftM_eq_ok, pure_eq_ok, and_assoc, exists_and_left,
    exists_eq_left', Prod.exists, Form.operand_eq_ok] at hs
  obtain ⟨_, _, rfl, x, _, hx, rfl, -⟩ := hs
  rw [Datum.placed_list _ _ rfl, Node.calls_eq]
  simp [h.expr _ _ _ _ hx, Node.children, Node.ofStmt, Node.isCall]

theorem yields_start {tag : String} (args : List Datum)
    (htag : stmtLayout? tag = some { operands := [none, some .expr] })
    {make : Call → Int → Stmt} (hmake : ∀ c pos, Node.ofStmt (make c pos) = [.call c]) :
    Yields (readStart inner ⟨tag, args⟩ tag make) fun s =>
      (Node.stmt s).calls = (Datum.list (.symbol tag :: args)).placed (.each (some .stmt)) := by
  intro table s table' hs
  simp only [readStart, bind_eq_ok, liftM_eq_ok, pure_eq_ok, and_assoc, exists_and_left,
    exists_eq_left', Prod.exists, Form.operands2_eq_ok] at hs
  obtain ⟨_, _, _, rfl, c, _, hc, _, -, rfl, -⟩ := hs
  have hcall : tag ≠ "call" := by
    rintro rfl
    cases htag
  rw [Datum.placed_list (.each (some .stmt)) _ htag, Node.calls_eq]
  simp [h.call _ _ _ _ _ hc, Node.children, hmake, Node.isCall, hcall]

theorem yields_return (args : List Datum) :
    Yields (readReturn inner ⟨"return", args⟩) fun s =>
      (Node.stmt s).calls =
        (Datum.list (.symbol "return" :: args)).placed (.each (some .stmt)) := by
  intro table s table' hs
  simp only [readReturn, bind_eq_ok, liftM_eq_ok, pure_eq_ok, and_assoc, exists_and_left,
    exists_eq_left', Prod.exists, Form.operand_eq_ok] at hs
  obtain ⟨_, _, rfl, results, _, hresults, _, -, rfl, -⟩ := hs
  rw [Datum.placed_list _ _ rfl, Node.calls_eq]
  simp [h.exprs _ _ _ _ hresults, Node.children, Node.ofStmt, Node.isCall]

theorem yields_assign (args : List Datum) :
    Yields (readAssign inner ⟨"assign", args⟩) fun s =>
      (Node.stmt s).calls =
        (Datum.list (.symbol "assign" :: args)).placed (.each (some .stmt)) := by
  intro table s table' hs
  simp only [readAssign, bind_eq_ok, liftM_eq_ok, pure_eq_ok, and_assoc, exists_and_left,
    exists_eq_left', Prod.exists, Form.operands4_eq_ok, Form.tagged_eq_ok] at hs
  obtain ⟨_, _, _, _, _, rfl, ⟨_, left⟩, rfl, rfl, -, ⟨_, right⟩, rfl, rfl, -, lhs, _, hlhs, _, -,
    _, -, rhs, _, hrhs, rfl, -⟩ := hs
  rw [Datum.placed_list _ _ rfl, Node.calls_eq]
  simp [h.exprs _ _ _ _ hlhs, h.exprs _ _ _ _ hrhs, Node.children, Node.ofStmt, Node.isCall]

omit h in
theorem yields_empty (args : List Datum) :
    Yields (readEmpty ⟨"empty", args⟩) fun s =>
      (Node.stmt s).calls =
        (Datum.list (.symbol "empty" :: args)).placed (.each (some .stmt)) := by
  intro table s table' hs
  simp only [readEmpty, bind_eq_ok, liftM_eq_ok, pure_eq_ok, and_assoc, exists_and_left,
    exists_eq_left', Prod.exists, Form.operand_eq_ok] at hs
  obtain ⟨_, _, rfl, _, -, rfl, -⟩ := hs
  rw [Datum.placed_list _ _ rfl, Node.calls_eq, Datum.placedOfAll_bare rfl]
  rfl

theorem yields_labeled (args : List Datum) :
    Yields (readLabeled inner ⟨"labeled", args⟩) fun s =>
      (Node.stmt s).calls =
        (Datum.list (.symbol "labeled" :: args)).placed (.each (some .stmt)) := by
  intro table s table' hs
  simp only [readLabeled, bind_eq_ok, liftM_eq_ok, pure_eq_ok, and_assoc, exists_and_left,
    exists_eq_left', Prod.exists, Form.operands3_eq_ok] at hs
  obtain ⟨_, _, _, _, rfl, _, -, t, _, ht, rfl, -⟩ := hs
  rw [Datum.placed_list _ _ rfl, Node.calls_eq]
  simp [h.stmt _ _ _ _ ht, Node.children, Node.ofStmt, Node.isCall]

theorem yields_send (args : List Datum) :
    Yields (readSend inner ⟨"send", args⟩) fun s =>
      (Node.stmt s).calls =
        (Datum.list (.symbol "send" :: args)).placed (.each (some .stmt)) := by
  intro table s table' hs
  simp only [readSend, bind_eq_ok, liftM_eq_ok, pure_eq_ok, and_assoc, exists_and_left,
    exists_eq_left', Prod.exists, Form.operands3_eq_ok] at hs
  obtain ⟨_, _, _, _, rfl, chan, _, hchan, value, _, hvalue, _, -, rfl, -⟩ := hs
  rw [Datum.placed_list _ _ rfl, Node.calls_eq]
  simp [h.expr _ _ _ _ hchan, h.expr _ _ _ _ hvalue, Node.children, Node.ofStmt, Node.isCall]

theorem yields_incDec (args : List Datum) :
    Yields (readIncDec inner ⟨"incdec", args⟩) fun s =>
      (Node.stmt s).calls =
        (Datum.list (.symbol "incdec" :: args)).placed (.each (some .stmt)) := by
  intro table s table' hs
  simp only [readIncDec, bind_eq_ok, liftM_eq_ok, pure_eq_ok, and_assoc, exists_and_left,
    exists_eq_left', Prod.exists, Form.operands3_eq_ok] at hs
  obtain ⟨_, _, _, _, rfl, x, _, hx, _, -, _, -, rfl, -⟩ := hs
  rw [Datum.placed_list _ _ rfl, Node.calls_eq]
  simp [h.expr _ _ _ _ hx, Node.children, Node.ofStmt, Node.isCall]

omit h in
theorem yields_branch (args : List Datum) :
    Yields (readBranch ⟨"branch", args⟩) fun s =>
      (Node.stmt s).calls =
        (Datum.list (.symbol "branch" :: args)).placed (.each (some .stmt)) := by
  intro table s table' hs
  simp only [readBranch, bind_eq_ok, liftM_eq_ok, pure_eq_ok, and_assoc, exists_and_left,
    exists_eq_left', Prod.exists, Form.operands2_eq_ok] at hs
  obtain ⟨_, _, _, -, label, _, -, _, -, _, -, rfl, -⟩ := hs
  rw [Datum.placed_list _ _ rfl, Node.calls_eq, Datum.placedOfAll_bare rfl]
  exact Node.callsOfAll_idents label.toList

theorem yields_if (args : List Datum) :
    Yields (readIf inner ⟨"if", args⟩) fun s =>
      (Node.stmt s).calls =
        (Datum.list (.symbol "if" :: args)).placed (.each (some .stmt)) := by
  intro table s table' hs
  simp only [readIf, bind_eq_ok, liftM_eq_ok, pure_eq_ok, and_assoc, exists_and_left,
    exists_eq_left', Prod.exists, Form.operand_eq_ok] at hs
  obtain ⟨_, _, rfl, options, hoptions, d, hd, cond, _, hcond, body, _, hbody, _, -, init, _,
    hinit, orElse, _, horElse, rfl, -⟩ := hs
  rw [Datum.placed_list _ _ rfl, Node.calls_eq]
  simp [Datum.placedOfAll_options hoptions, Options.getAll_of_required hd, h.expr _ _ _ _ hcond,
    h.body _ _ _ _ _ hbody, h.stmtOption _ _ _ _ _ hinit, h.stmtOption _ _ _ _ _ horElse,
    Node.children, Node.ofStmt, Node.isCall]

theorem yields_for (args : List Datum) :
    Yields (readFor inner ⟨"for", args⟩) fun s =>
      (Node.stmt s).calls =
        (Datum.list (.symbol "for" :: args)).placed (.each (some .stmt)) := by
  intro table s table' hs
  simp only [readFor, bind_eq_ok, liftM_eq_ok, pure_eq_ok, and_assoc, exists_and_left,
    exists_eq_left', Prod.exists, Form.operand_eq_ok] at hs
  obtain ⟨_, _, rfl, options, hoptions, body, _, hbody, _, -, init, _, hinit, cond, _, hcond,
    post, _, hpost, rfl, -⟩ := hs
  rw [Datum.placed_list _ _ rfl, Node.calls_eq]
  simp [Datum.placedOfAll_options hoptions, h.body _ _ _ _ _ hbody,
    h.stmtOption _ _ _ _ _ hinit, h.exprOption _ _ _ _ _ hcond, h.stmtOption _ _ _ _ _ hpost,
    Node.children, Node.ofStmt, Node.isCall]

theorem yields_range (args : List Datum) :
    Yields (readRange inner ⟨"range", args⟩) fun s =>
      (Node.stmt s).calls =
        (Datum.list (.symbol "range" :: args)).placed (.each (some .stmt)) := by
  intro table s table' hs
  simp only [readRange, bind_eq_ok, liftM_eq_ok, pure_eq_ok, and_assoc, exists_and_left,
    exists_eq_left', Prod.exists, Form.operands2_eq_ok] at hs
  obtain ⟨_, _, _, rfl, options, hoptions, d, hd, x, _, hx, body, _, hbody, _, -, key, _, hkey,
    value, _, hvalue, _, -, rfl, -⟩ := hs
  rw [Datum.placed_list _ _ rfl, Node.calls_eq]
  simp [Datum.placedOfAll_options hoptions, Options.getAll_of_required hd, h.expr _ _ _ _ hx,
    h.body _ _ _ _ _ hbody, h.exprOption _ _ _ _ _ hkey, h.exprOption _ _ _ _ _ hvalue,
    Node.children, Node.ofStmt, Node.isCall]

theorem yields_switch (args : List Datum) :
    Yields (readSwitch inner ⟨"switch", args⟩) fun s =>
      (Node.stmt s).calls =
        (Datum.list (.symbol "switch" :: args)).placed (.each (some .stmt)) := by
  intro table s table' hs
  simp only [readSwitch, bind_eq_ok, liftM_eq_ok, pure_eq_ok, and_assoc, exists_and_left,
    exists_eq_left', Prod.exists, Form.operand_eq_ok] at hs
  obtain ⟨_, _, rfl, options, hoptions, body, _, hbody, _, -, init, _, hinit, tag, _, htag, rfl,
    -⟩ := hs
  rw [Datum.placed_list _ _ rfl, Node.calls_eq]
  simp [Datum.placedOfAll_options hoptions, h.body _ _ _ _ _ hbody,
    h.stmtOption _ _ _ _ _ hinit, h.exprOption _ _ _ _ _ htag, Node.children, Node.ofStmt,
    Node.isCall]

theorem yields_typeSwitch (args : List Datum) :
    Yields (readTypeSwitch inner ⟨"type-switch", args⟩) fun s =>
      (Node.stmt s).calls =
        (Datum.list (.symbol "type-switch" :: args)).placed (.each (some .stmt)) := by
  intro table s table' hs
  simp only [readTypeSwitch, bind_eq_ok, liftM_eq_ok, pure_eq_ok, and_assoc, exists_and_left,
    exists_eq_left', Prod.exists, Form.operand_eq_ok] at hs
  obtain ⟨_, _, rfl, options, hoptions, d, hd, assign, _, hassign, body, _, hbody, _, -, init, _,
    hinit, rfl, -⟩ := hs
  rw [Datum.placed_list _ _ rfl, Node.calls_eq]
  simp [Datum.placedOfAll_options hoptions, Options.getAll_of_required hd,
    h.stmt _ _ _ _ hassign, h.body _ _ _ _ _ hbody, h.stmtOption _ _ _ _ _ hinit,
    Node.children, Node.ofStmt, Node.isCall]

theorem yields_select (args : List Datum) :
    Yields (readSelect inner ⟨"select", args⟩) fun s =>
      (Node.stmt s).calls =
        (Datum.list (.symbol "select" :: args)).placed (.each (some .stmt)) := by
  intro table s table' hs
  simp only [readSelect, bind_eq_ok, liftM_eq_ok, pure_eq_ok, and_assoc, exists_and_left,
    exists_eq_left', Prod.exists, Form.operand_eq_ok] at hs
  obtain ⟨_, _, rfl, options, hoptions, body, _, hbody, _, -, rfl, -⟩ := hs
  rw [Datum.placed_list _ _ rfl, Node.calls_eq]
  simp [Datum.placedOfAll_options hoptions, h.body _ _ _ _ _ hbody, Node.children, Node.ofStmt,
    Node.isCall]

theorem yields_case (args : List Datum) :
    Yields (readCase inner ⟨"case", args⟩) fun s =>
      (Node.stmt s).calls =
        (Datum.list (.symbol "case" :: args)).placed (.each (some .stmt)) := by
  intro table s table' hs
  simp only [readCase, bind_eq_ok, liftM_eq_ok, pure_eq_ok, and_assoc, exists_and_left,
    exists_eq_left', Prod.exists, Form.operand_eq_ok] at hs
  obtain ⟨_, _, rfl, rest, options, hsplit, xs, _, hxs, body, _, hbody, _, -, rfl, -⟩ := hs
  rw [Datum.placed_list _ _ rfl, Node.calls_eq]
  simp [Datum.placedOfAll_split hsplit, h.caseList _ _ _ _ _ hxs, h.stmts _ _ _ _ hbody,
    Node.children, Node.ofStmt, Node.isCall, Nat.add_comm]

theorem yields_comm (args : List Datum) :
    Yields (readComm inner ⟨"comm", args⟩) fun s =>
      (Node.stmt s).calls =
        (Datum.list (.symbol "comm" :: args)).placed (.each (some .stmt)) := by
  intro table s table' hs
  simp only [readComm, bind_eq_ok, liftM_eq_ok, pure_eq_ok, and_assoc, exists_and_left,
    exists_eq_left', Prod.exists, Form.operand_eq_ok] at hs
  obtain ⟨_, _, rfl, rest, options, hsplit, comm, _, hcomm, body, _, hbody, _, -, rfl, -⟩ := hs
  rw [Datum.placed_list _ _ rfl, Node.calls_eq]
  simp [Datum.placedOfAll_split hsplit, h.stmtOption _ _ _ _ _ hcomm, h.stmts _ _ _ _ hbody,
    Node.children, Node.ofStmt, Node.isCall, Nat.add_comm]

theorem yields_declStmt (args : List Datum) :
    Yields (readDeclStmt inner ⟨"decl-stmt", args⟩) fun s =>
      (Node.stmt s).calls =
        (Datum.list (.symbol "decl-stmt" :: args)).placed (.each (some .stmt)) := by
  intro table s table' hs
  simp only [readDeclStmt, bind_eq_ok, liftM_eq_ok, pure_eq_ok, and_assoc, exists_and_left,
    exists_eq_left', Prod.exists, Form.operand_eq_ok] at hs
  obtain ⟨_, _, rfl, decl, _, hdecl, rfl, -⟩ := hs
  rw [Datum.placed_list _ _ rfl, Node.calls_eq]
  simp [yields_genDecl (h.deeper 1) _ _ _ _ hdecl, Node.children, Node.ofStmt, Node.isCall]

theorem yields_stmtForm (tag : String) (args : List Datum) :
    Yields (readStmtForm inner ⟨tag, args⟩) fun s =>
      (Node.stmt s).calls = (Datum.list (.symbol tag :: args)).placed (.each (some .stmt)) := by
  unfold readStmtForm
  dsimp only
  split
  · exact yields_blockStmt h args
  · exact yields_exprStmt h args
  · exact yields_start h args rfl fun _ _ => rfl
  · exact yields_start h args rfl fun _ _ => rfl
  · exact yields_return h args
  · exact yields_assign h args
  · exact yields_empty args
  · exact yields_labeled h args
  · exact yields_send h args
  · exact yields_incDec h args
  · exact yields_branch args
  · exact yields_if h args
  · exact yields_for h args
  · exact yields_range h args
  · exact yields_switch h args
  · exact yields_typeSwitch h args
  · exact yields_select h args
  · exact yields_case h args
  · exact yields_comm h args
  · exact yields_declStmt h args
  · exact fun _ _ _ hs => absurd hs throw_eq_ok.mp

theorem yields_stmt (d : Datum) :
    Yields (readStmtWith inner d) fun s =>
      (Node.stmt s).calls = d.placed (.each (some .stmt)) := by
  intro table s table' hs
  simp only [readStmtWith, bind_eq_ok, liftM_eq_ok, and_assoc, exists_and_left, exists_eq_left',
    Form.ofDatum_eq_ok] at hs
  obtain ⟨form, rfl, -, hs⟩ := hs
  exact yields_stmtForm h form.tag form.args _ _ _ hs

end

theorem counts_readersWithin (depth steps : Nat) : (readersWithin depth steps).Counts := by
  induction depth generalizing steps with
  | zero =>
    exact ⟨fun _ _ _ _ _ hx => absurd hx throw_eq_ok.mp,
      fun _ _ _ _ _ hs => absurd hs throw_eq_ok.mp⟩
  | succ depth ih =>
    exact ⟨fun cost d => (yields_expr (ih (steps - cost)) d).within _,
      fun cost d => (yields_stmt (ih (steps - cost)) d).within _⟩

theorem yields_decl (d : Datum) :
    Yields (readDecl d) fun decl => (Node.decl decl).calls = d.placed (.each (some .decl)) := by
  have htop : topReaders.Counts := (counts_readersWithin stepLimit stepLimit).deeper 5
  intro table decl table' hdecl
  simp only [readDecl, bind_eq_ok, liftM_eq_ok, and_assoc, exists_and_left, exists_eq_left',
    Form.ofDatum_eq_ok] at hdecl
  obtain ⟨⟨tag, args⟩, rfl, -, hdecl⟩ := hdecl
  dsimp only at hdecl
  split at hdecl
  · simp only [readFuncDecl, bind_eq_ok, liftM_eq_ok, pure_eq_ok, and_assoc, exists_and_left,
      exists_eq_left', Prod.exists, Form.operands2_eq_ok] at hdecl
    obtain ⟨_, _, ⟨_, _, _, rfl, options, hoptions, _, -, block, hblock, _, -, _, -, body, _, hbody,
      _, _, -, rfl, -⟩, rfl, -⟩ := hdecl
    have hbody := callsOfAll_eq_placed (Yields.optionMapM htop.block block _ _ _ hbody)
    rw [Datum.placed_list _ _ rfl, Node.calls_eq]
    simp [Datum.placedOfAll_options hoptions, Options.getAll_of_single? hblock, hbody, Node.decl,
      Node.children, Node.isCall]
  · simp only [bind_eq_ok, pure_eq_ok] at hdecl
    obtain ⟨gen, _, hgen, rfl, -⟩ := hdecl
    exact yields_genDecl htop _ _ _ _ hgen
  · exact absurd hdecl throw_eq_ok.mp

/-! ## Readers of files and programs -/

namespace Datum

/-- The declarations of a form `(file NAME ...)`: all elements but the options. -/
def declForms : Datum → List Datum
  | .list (_ :: _ :: rest) =>
    rest.filter fun d => (optionKey? ["build-tags", "source", "source-path"] d).isNone
  | _ => []

end Datum

/-- The walk of a file visits as many calls as the declarations of the form have in places of
expressions. -/
def CountsFile (form : Datum) (file : ParsedFile) : Prop :=
  (Node.file file.tree).calls = Datum.placedOfAll (.each (some .decl)) form.declForms

theorem yields_file (root : SourceRoot) (packageName : String) (d : Datum) :
    Yields (readFile root packageName d) (CountsFile d) := by
  intro table file table' hfile
  simp only [readFile, bind_eq_ok, Reader.lift_eq_ok, liftM_eq_ok, pure_eq_ok, and_assoc,
    exists_and_left, exists_eq_left', Prod.exists, Form.tagged_eq_ok, Form.operand_eq_ok] at hfile
  obtain ⟨form, rfl, -, -, name, rest, hargs, _, -, decls, options, hsplit, _, _, -, trees, _,
    htrees, _, _, -, rfl, -⟩ := hfile
  have htrees := callsOfAll_eq_placed (Yields.mapM yields_decl decls _ _ _ htrees)
  rw [CountsFile, Node.calls_eq, hargs, Datum.declForms, ← (splitOptions_eq_ok.mp hsplit).1]
  simpa [Node.children, Node.isCall] using htrees

theorem countsFile_of_readProgram {root : SourceRoot} {d : Datum} {program : Program}
    (h : readProgram root d = .ok program) :
    List.Forall₂ CountsFile d.fileForms (program.packages.flatMap (·.files)) :=
  forall₂_files_of_readProgram (yields_file root) h

/-- A program that is read has, file by file, a tree whose walk visits the calls of the dump, less
those that stand where the grammar has no tree. No call is lost if and only if there are none of
those. -/
theorem readProgram_calls {root : SourceRoot} {d : Datum} {program : Program}
    (h : readProgram root d = .ok program) :
    List.Forall₂
      (fun form file =>
        Datum.callsOfAll form.declForms =
            (Node.file file.tree).walk.countP Node.isCall +
              Datum.callsOfAll (Datum.outsideOfAll (.each (some .decl)) form.declForms) ∧
          (Datum.callsOfAll form.declForms = (Node.file file.tree).walk.countP Node.isCall ↔
            ∀ stray ∈ Datum.outsideOfAll (.each (some .decl)) form.declForms, stray.calls = 0))
      d.fileForms (program.packages.flatMap (·.files)) := by
  refine (countsFile_of_readProgram h).imp fun form file hfile => ?_
  have hcalls : Datum.callsOfAll form.declForms =
      (Node.file file.tree).walk.countP Node.isCall +
        Datum.callsOfAll (Datum.outsideOfAll (.each (some .decl)) form.declForms) := by
    rw [show (Node.file file.tree).walk.countP Node.isCall = _ from hfile]
    exact Datum.callsOfAll_eq _ _
  refine ⟨hcalls, ?_⟩
  rw [hcalls, Nat.add_eq_left, Datum.callsOfAll_eq_zero]

/-- The dump of one file with one function of one statement, which has these elements. -/
def dumpOfStatement (elements : List Datum) : Datum :=
  .list [.symbol "program", .list [.symbol "package", .string "p", .string "p",
    .list [.symbol "file", .string "p.go", .list [.symbol "source", .string "package p"],
      .list [.symbol "func-decl", .string "f", .int 0, .list [.symbol "body",
        .list [.symbol "block", .int 0, .list (.symbol "expr-stmt" :: elements)]]]]]]

/-- The form of an identifier without annotations. -/
def identForm (name : String) (pos : Int) : Datum :=
  .list [.symbol "ident", .string name, .int pos]

/-- The form of a call without arguments. -/
def callForm (fn : Datum) (lparen rparen : Int) : Datum :=
  .list [.symbol "call", fn, .int lparen, .int rparen]

/-- A root without sources. -/
def noSources : SourceRoot := ⟨⟨[], []⟩, ⟨"/", []⟩⟩

/-- A statement with a call in its place: it is read, and the call is a node of the tree. -/
theorem readProgram_calls_of_statement :
    ∃ program,
      readProgram noSources (dumpOfStatement [callForm (identForm "g" 2) 3 4]) = .ok program ∧
      List.Forall₂
        (fun form file => Datum.callsOfAll form.declForms = 1 ∧
          (Node.file file.tree).walk.countP Node.isCall = 1)
        (dumpOfStatement [callForm (identForm "g" 2) 3 4]).fileForms
        (program.packages.flatMap (·.files)) := by
  obtain ⟨program, hread⟩ : ∃ program,
      readProgram noSources (dumpOfStatement [callForm (identForm "g" 2) 3 4]) = .ok program :=
    ⟨_, rfl⟩
  refine ⟨program, hread, ?_⟩
  obtain ⟨file, files, hfile, hfiles, heq⟩ :=
    List.forall₂_cons_left_iff.mp (readProgram_calls hread)
  have hcalls := hfile.2.mpr (by decide)
  rw [heq, List.forall₂_nil_left_iff.mp hfiles]
  exact .cons ⟨rfl, hcalls.symm⟩ .nil

/-- A second element of an expression statement is passed over, and a call in it with it. -/
theorem readProgram_drops_surplus :
    ∃ program,
      readProgram noSources (dumpOfStatement [identForm "x" 1, callForm (identForm "g" 2) 3 4]) =
        .ok program ∧
      List.Forall₂
        (fun form file => Datum.callsOfAll form.declForms = 1 ∧
          (Node.file file.tree).walk.countP Node.isCall = 0)
        (dumpOfStatement [identForm "x" 1, callForm (identForm "g" 2) 3 4]).fileForms
        (program.packages.flatMap (·.files)) := by
  obtain ⟨program, hread⟩ : ∃ program,
      readProgram noSources (dumpOfStatement [identForm "x" 1, callForm (identForm "g" 2) 3 4]) =
        .ok program :=
    ⟨_, rfl⟩
  refine ⟨program, hread, ?_⟩
  obtain ⟨file, files, hfile, hfiles, heq⟩ :=
    List.forall₂_cons_left_iff.mp (countsFile_of_readProgram hread)
  rw [heq, List.forall₂_nil_left_iff.mp hfiles]
  exact .cons ⟨rfl, hfile⟩ .nil

end UncheckedErrors
