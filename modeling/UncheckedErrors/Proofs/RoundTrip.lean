import UncheckedErrors.Proofs.Nesting

/-!
# Written trees are read back

The readers of single forms give a written tree back if the readers of what is nested inside give
its parts back. There is one lemma for each form (`Expr.ReadsBack.paren`, `Stmt.ReadsBack.send` and
so on), and `Expr.readsBack_of_parts`, `Stmt.readsBack_of_parts`, `ValueSpec.readsBack_of_parts` and
`GenDecl.readsBack_of_parts` collect them. By induction on the tree, all its nodes are read back
(`Node.readsBack`).

A reader has no more than `stepLimit` steps at hand, so a tree is read back if its effort stays
within them, and reported as nested too deeply if not: `written_trees_read_back` says which of the
two happens, for expressions, statements and declarations alike. Five steps for each list are
enough; seven hundred parentheses are too many (`parens_not_read_back`).
-/

namespace UncheckedErrors

/-! ## Lists and options -/

@[simp] theorem Expr.part_eq (x : Option Expr) : Expr.part x = x.map fun x => [x.form] := by
  cases x <;> rw [Expr.part] <;> rfl

@[simp] theorem Stmt.part_eq (s : Option Stmt) : Stmt.part s = s.map fun s => [s.form] := by
  cases s <;> rw [Stmt.part] <;> rfl

namespace InnerReaders

/-- The readers give an expression back that is nested any number of steps deep. -/
def ReadsExpr (inner : InnerReaders) (s : Nat) (x : Expr) : Prop :=
  ∀ cost, 1 ≤ cost → inner.exprAt cost x.form = reads s (x.effort.nested cost) x

/-- The readers give a statement back that is nested any number of steps deep. -/
def ReadsStmt (inner : InnerReaders) (s : Nat) (stmt : Stmt) : Prop :=
  ∀ cost, 1 ≤ cost → inner.stmtAt cost stmt.form = reads s (stmt.effort.nested cost) stmt

variable {inner : InnerReaders} {s : Nat}

theorem ReadsExpr.deeper {x : Expr} (h : inner.ReadsExpr s x) (n : Nat) :
    (inner.deeper n).ReadsExpr (s - n) x := by
  intro cost hcost
  rw [reads_sub, Effort.nested_under]
  exact h (cost + n) (Nat.le_add_right_of_le hcost)

theorem ReadsStmt.deeper {stmt : Stmt} (h : inner.ReadsStmt s stmt) (n : Nat) :
    (inner.deeper n).ReadsStmt (s - n) stmt := by
  intro cost hcost
  rw [reads_sub, Effort.nested_under]
  exact h (cost + n) (Nat.le_add_right_of_le hcost)

theorem faithful_deeper (h : inner.typeAt.Faithful s) (n : Nat) :
    (inner.deeper n).typeAt.Faithful (s - n) := by
  intro t ht cost hcost
  rw [reads_sub, Effort.nested_under]
  exact h t ht (cost + n) (Nat.le_add_right_of_le hcost)

theorem exprs_forms {xs : List Expr} (h : ∀ x ∈ xs, inner.ReadsExpr s x) :
    inner.exprs (Expr.forms xs) = reads s (Expr.efforts 4 xs) xs := by
  unfold exprs
  induction xs with
  | nil => simp [Expr.forms, Expr.efforts]
  | cons x xs ih =>
    rw [List.forall_mem_cons] at h
    have hx : (inner.deeper 2).expr x.form = _ := h.1 4 (by decide)
    simp [Expr.forms, Expr.efforts, hx, ih h.2]

theorem stmts_forms {ss : List Stmt} (h : ∀ stmt ∈ ss, inner.ReadsStmt s stmt) :
    inner.stmts (Stmt.forms ss) = reads s (Stmt.efforts 4 ss) ss := by
  unfold stmts
  induction ss with
  | nil => simp [Stmt.forms, Stmt.efforts]
  | cons stmt ss ih =>
    rw [List.forall_mem_cons] at h
    have hstmt : (inner.deeper 2).stmt stmt.form = _ := h.1 4 (by decide)
    simp [Stmt.forms, Stmt.efforts, hstmt, ih h.2]

theorem exprOption_form (x : Option Expr) (h : ∀ x' ∈ x, inner.ReadsExpr s x') :
    (x.map Expr.form).mapM (inner.deeper 1).expr = reads s (Expr.partEffort x) x := by
  cases x with
  | none => simp [Expr.partEffort]
  | some x =>
    have hx : (inner.deeper 1).expr x.form = _ := h x rfl 3 (by decide)
    simp [Expr.partEffort, hx]

theorem stmtOption_form (stmt : Option Stmt) (h : ∀ stmt' ∈ stmt, inner.ReadsStmt s stmt') :
    (stmt.map Stmt.form).mapM (inner.deeper 1).stmt = reads s (Stmt.partEffort stmt) stmt := by
  cases stmt with
  | none => simp [Stmt.partEffort]
  | some stmt =>
    have hstmt : (inner.deeper 1).stmt stmt.form = _ := h stmt rfl 3 (by decide)
    simp [Stmt.partEffort, hstmt]

/-- The expressions of a case, if it has any. -/
theorem caseList_form (xs : Option (List Expr)) (h : ∀ x ∈ xs.getD [], inner.ReadsExpr s x) :
    (Expr.listPart xs).mapM inner.exprs = reads s (Expr.listEffort xs) xs := by
  cases xs with
  | none => simp [Expr.listPart, Expr.listEffort]
  | some xs =>
    have hxs : inner.exprs (Expr.forms xs) = _ := exprs_forms h
    simp [Expr.listPart, Expr.listEffort, hxs]

theorem Stmt.efforts_under (m n : Nat) (ss : List Stmt) :
    (Stmt.efforts m ss).under n = Stmt.efforts (m + n) ss := by
  induction ss with
  | nil => rw [Stmt.efforts, Stmt.efforts, Effort.under_none]
  | cons stmt ss ih =>
    rw [Stmt.efforts, Stmt.efforts, Effort.under_append, Effort.nested_under, ih]

/-- The readers give a block back if they do so with its statements. -/
theorem block_form {b : Block} (h : ∀ stmt ∈ b.stmts, inner.ReadsStmt s stmt) :
    inner.block b.form = reads s b.effort b := by
  obtain ⟨ss, lbrace⟩ := b
  replace h : ∀ stmt ∈ ss, inner.ReadsStmt s stmt := h
  have hss : (inner.deeper 1).stmts (Stmt.forms ss) = reads s (Stmt.efforts 5 ss) ss := by
    rw [stmts_forms fun stmt hstmt => (h stmt hstmt).deeper 1, reads_sub, Stmt.efforts_under]
  simp [block, Block.form, Block.effort, Form.tagged_list, Form.operand, hss]

/-- The type among the options of a form. -/
theorem typeOption_present (htypes : inner.typeAt.Faithful s) {t : Option GoType}
    (ht : ∀ t' ∈ t, t'.Written) {parts : OptionalParts} (hparts : (parts.map (·.1)).Nodup)
    (htype : (parts.lookup "type").join = typePart t) :
    inner.typeOption parts.present "type" = reads s (typeEffort 3 t) t := by
  unfold typeOption readTypeOption
  rw [single?_present hparts, htype]
  simp [mapM_typeForm htypes ht]

theorem call_form {c : Call} (h : inner.ReadsExpr s (.call c)) (tag : String) :
    inner.call tag c.form = reads s (c.effort.nested 3) c := by
  have hc : (inner.deeper 1).expr c.form = _ := h 3 (by decide)
  simp [call, hc, Expr.effort]

end InnerReaders

/-! ## Expressions -/

theorem mapM_asInt (index : List Int) :
    (index.map Datum.int).mapM (fun i => (liftM i.asInt : Reader Int)) = pure index := by
  induction index with
  | nil => rfl
  | cons i index ih =>
    rw [List.map_cons, List.mapM_cons, ih]
    rfl

/-- A written expression is read back. -/
def Expr.ReadsBack (x : Expr) : Prop :=
  ∀ depth s, s ≤ depth → readExprWith (readersWithin depth s) x.form = reads s x.effort x

/-- A written statement is read back. -/
def Stmt.ReadsBack (stmt : Stmt) : Prop :=
  ∀ depth s, s ≤ depth → readStmtWith (readersWithin depth s) stmt.form = reads s stmt.effort stmt

theorem Expr.ReadsBack.nested {x : Expr} (h : x.ReadsBack) {depth s : Nat} (hs : s ≤ depth) :
    (readersWithin depth s).ReadsExpr s x := by
  intro cost hcost
  cases depth with
  | zero =>
    cases Nat.le_zero.mp hs
    rw [Effort.nested, ← reads_sub, Nat.zero_sub, reads_leaf_zero]
    rfl
  | succ depth =>
    show Reader.within _ _ = _
    rw [h depth (s - cost) (by omega), within_reads, reads_sub]
    rfl

theorem Stmt.ReadsBack.nested {stmt : Stmt} (h : stmt.ReadsBack) {depth s : Nat} (hs : s ≤ depth) :
    (readersWithin depth s).ReadsStmt s stmt := by
  intro cost hcost
  cases depth with
  | zero =>
    cases Nat.le_zero.mp hs
    rw [Effort.nested, ← reads_sub, Nat.zero_sub, reads_leaf_zero]
    rfl
  | succ depth =>
    show Reader.within _ _ = _
    rw [h depth (s - cost) (by omega), within_reads, reads_sub]
    rfl

theorem readersWithin_faithful {depth s : Nat} (hs : s ≤ depth) :
    (readersWithin depth s).typeAt.Faithful s := by
  cases depth with
  | zero =>
    cases Nat.le_zero.mp hs
    intro t _ cost _
    rw [Effort.nested, ← reads_sub, Nat.zero_sub, reads_leaf_zero]
    rfl
  | succ depth => exact typesWithin_faithful s

section

variable {inner : InnerReaders} {s : Nat} (htypes : inner.typeAt.Faithful s)

include htypes

theorem readIdent_form {id : Ident} (hobj : ∀ o ∈ id.obj, o.Written)
    (htype : ∀ t ∈ id.type, t.Written) :
    readIdent inner ⟨"ident", .string id.name :: .int id.pos ::
      OptionalParts.forms [("obj", id.obj.map fun o => [o.form]), ("type", typePart id.type)]⟩ =
      reads s id.effort id := by
  have hobject : (id.obj.map Object.form).mapM inner.object =
      reads s (objectEffort id.obj) id.obj := by
    cases hid : id.obj with
    | none => simp [objectEffort]
    | some o => simp [objectEffort, InnerReaders.object, readObject_form htypes (hobj o hid)]
  simp [readIdent, Form.operands2, optionsOf_forms, single?_present, List.lookup_cons, hobject,
    InnerReaders.typeOption_present htypes htype, Ident.effort]

theorem readSelection_form {sel : Ident} {selection : Selection} (hrecv : selection.recv.Written)
    (hobj : sel.obj = some selection.obj) :
    readSelection inner sel selection.forms =
      reads s (selection.recv.effort.nested 2) selection := by
  obtain ⟨kind, recv, obj, index⟩ := selection
  have hindex := mapM_asInt index
  have hkind : readSelectionKind (.string kind.text) = .ok kind := by
    cases kind <;> rfl
  simp [readSelection, Selection.forms, hkind, Form.tagged_list, hindex, hobj, InnerReaders.type,
    htypes recv hrecv 2]

end

/-- A form that is no option. -/
theorem optionKey?_list {keys : List String} {tag : String} (h : tag ∉ keys) (args : List Datum) :
    optionKey? keys (.list (.symbol tag :: args)) = none := by
  simp [optionKey?, h]

/-- No form of an expression is an option of a form that holds expressions. -/
theorem optionKey?_exprForm {keys : List String} (h : keys ⊆ ["type", "ellipsis"]) (x : Expr) :
    optionKey? keys x.form = none := by
  have hlist : ∀ tag args, tag ∉ ["type", "ellipsis"] →
      optionKey? keys (.list (.symbol tag :: args)) = none :=
    fun tag args htag => optionKey?_list (fun hmem => htag (h hmem)) args
  cases x with
  | call c =>
    obtain ⟨fn, args, lparen, rparen, type, ellipsis⟩ := c
    rw [Expr.form, Call.form]
    exact hlist _ _ (by decide)
  | _ =>
    rw [Expr.form]
    exact hlist _ _ (by decide)

/-- No form of a statement is an option of a form that holds statements. -/
theorem optionKey?_stmtForm {keys : List String} (h : keys ⊆ ["list", "on"]) (stmt : Stmt) :
    optionKey? keys stmt.form = none := by
  have hlist : ∀ tag args, tag ∉ ["list", "on"] →
      optionKey? keys (.list (.symbol tag :: args)) = none :=
    fun tag args htag => optionKey?_list (fun hmem => htag (h hmem)) args
  cases stmt with
  | block b =>
    obtain ⟨ss, lbrace⟩ := b
    rw [Stmt.form, Block.form]
    exact hlist _ _ (by decide)
  | _ =>
    rw [Stmt.form]
    exact hlist _ _ (by decide)

theorem mem_exprForms {d : Datum} {xs : List Expr} : d ∈ Expr.forms xs ↔ ∃ x ∈ xs, x.form = d := by
  induction xs with
  | nil => simp [Expr.forms]
  | cons x xs ih => simp [Expr.forms, ih, eq_comm]

theorem forall_exprForms {keys : List String} (h : keys ⊆ ["type", "ellipsis"]) {xs : List Expr} :
    ∀ d ∈ Expr.forms xs, optionKey? keys d = none := by
  intro d hd
  obtain ⟨x, -, rfl⟩ := mem_exprForms.mp hd
  exact optionKey?_exprForm h x

theorem mem_stmtForms {d : Datum} {ss : List Stmt} : d ∈ Stmt.forms ss ↔ ∃ s ∈ ss, s.form = d := by
  induction ss with
  | nil => simp [Stmt.forms]
  | cons s ss ih => simp [Stmt.forms, ih, eq_comm]

theorem forall_stmtForms {keys : List String} (h : keys ⊆ ["list", "on"]) {ss : List Stmt} :
    ∀ d ∈ Stmt.forms ss, optionKey? keys d = none := by
  intro d hd
  obtain ⟨stmt, -, rfl⟩ := mem_stmtForms.mp hd
  exact optionKey?_stmtForm h stmt

namespace Expr.ReadsBack

theorem ident {id : Ident} (hobj : ∀ o ∈ id.obj, o.Written) (htype : ∀ t ∈ id.type, t.Written) :
    (Expr.ident id).ReadsBack := by
  intro depth s hs
  rw [Expr.form, Ident.form, readExprWith_leaf _ rfl]
  simp [readLeaf, readIdent_form (readersWithin_faithful hs) hobj htype, Expr.effort]

section

variable {type : Option GoType} (htype : ∀ t ∈ type, t.Written)

include htype

theorem basicLit (kind value : String) (pos : Int) :
    (Expr.basicLit kind value pos type).ReadsBack := by
  intro depth s hs
  have htypes := readersWithin_faithful hs
  rw [Expr.form, readExprWith_leaf _ rfl]
  simp [readLeaf, Form.operands3, optionsOf_forms, InnerReaders.typeOption_present htypes htype,
    Expr.effort]

theorem compositeLit {elts : List Expr} (lbrace : Int) (helts : ∀ y ∈ elts, y.ReadsBack) :
    (Expr.compositeLit elts lbrace type).ReadsBack := by
  intro depth s hs
  have htypes := readersWithin_faithful hs
  have helts := InnerReaders.exprs_forms fun y hy => (helts y hy).nested hs
  rw [Expr.form, readExprWith_leaf _ rfl]
  simp [readLeaf, Form.operand, optionsOf_forms, Options.getAll, OptionalParts.get?_present,
    List.lookup_cons, helts, InnerReaders.typeOption_present htypes htype, Expr.effort]

theorem funcLit {body : Block} (pos : Int) (hbody : ∀ t ∈ body.stmts, t.ReadsBack) :
    (Expr.funcLit body pos type).ReadsBack := by
  intro depth s hs
  have htypes := readersWithin_faithful hs
  have hbody := InnerReaders.block_form fun t ht => (hbody t ht).nested hs
  rw [Expr.form, readExprWith_leaf _ rfl]
  simp [readLeaf, Form.operands2, optionsOf_forms, hbody, InnerReaders.typeOption_present htypes
    htype, Expr.effort]

theorem paren {y : Expr} (lparen : Int) (hy : y.ReadsBack) :
    (Expr.paren y lparen type).ReadsBack := by
  intro depth s hs
  have htypes := readersWithin_faithful hs
  have hy := hy.nested hs 2
  rw [Expr.form, readExprWith_leaf _ rfl]
  simp [readLeaf, Form.operands2, optionsOf_forms, InnerReaders.expr, hy,
    InnerReaders.typeOption_present htypes htype, Expr.effort]

theorem selector {y : Expr} {sel : Ident} {selection : Option Selection} (hy : y.ReadsBack)
    (hsel : (Expr.ident sel).ReadsBack)
    (hselection : ∀ selection' ∈ selection,
      selection'.recv.Written ∧ sel.obj = some selection'.obj) :
    (Expr.selector y sel selection type).ReadsBack := by
  intro depth s hs
  have htypes := readersWithin_faithful hs
  have hsel := hsel.nested hs 2
  have hselection : (selection.map (·.forms)).mapM (readSelection (readersWithin depth s) sel) =
      reads s (selectionEffort selection) selection := by
    cases selection with
    | none => simp [selectionEffort]
    | some selection =>
      obtain ⟨hrecv, hobj⟩ := hselection selection rfl
      simp [selectionEffort, readSelection_form htypes hrecv hobj]
  rw [Expr.form, readExprWith_first _ rfl, hy depth s hs, reads_bind]
  rw [Expr.form, Expr.effort] at hsel
  simp [readChain, Form.operands2, optionsOf_forms, OptionalParts.get?_present, List.lookup_cons,
    InnerReaders.expr, hsel, hselection, InnerReaders.typeOption_present htypes htype, Expr.effort]

theorem index {y : Expr} {indices : List Expr} (lbrack : Int) (hy : y.ReadsBack)
    (hindices : ∀ z ∈ indices, z.ReadsBack) (hne : indices ≠ []) :
    (Expr.index y indices lbrack type).ReadsBack := by
  intro depth s hs
  have htypes := readersWithin_faithful hs
  have hindices := InnerReaders.exprs_forms fun z hz => (hindices z hz).nested hs
  have hsplit : splitOptions ["type"]
      (Expr.forms indices ++ OptionalParts.forms [("type", typePart type)]) = .ok _ :=
    splitOptions_append_forms (forall_exprForms (by decide)) (by simp) (by simp)
  obtain ⟨first, rest, rfl⟩ := List.exists_cons_of_ne_nil hne
  rw [Expr.forms] at hindices hsplit
  rw [Expr.form, readExprWith_first _ rfl, hy depth s hs, reads_bind, Expr.forms]
  simp only [List.cons_append] at hsplit ⊢
  simp [readChain, Form.operands3, hsplit, hindices, InnerReaders.typeOption_present htypes htype,
    Expr.effort]

theorem slice {y : Expr} {low high max : Option Expr} (lbrack : Int) (hy : y.ReadsBack)
    (hlow : ∀ z ∈ low, z.ReadsBack) (hhigh : ∀ z ∈ high, z.ReadsBack)
    (hmax : ∀ z ∈ max, z.ReadsBack) : (Expr.slice y lbrack low high max type).ReadsBack := by
  intro depth s hs
  have htypes := readersWithin_faithful hs
  have hlow := InnerReaders.exprOption_form low fun z hz => (hlow z hz).nested hs
  have hhigh := InnerReaders.exprOption_form high fun z hz => (hhigh z hz).nested hs
  have hmax := InnerReaders.exprOption_form max fun z hz => (hmax z hz).nested hs
  rw [Expr.form, readExprWith_first _ rfl, hy depth s hs, reads_bind]
  simp [readChain, Form.operands2, optionsOf_forms, single?_present, List.lookup_cons,
    InnerReaders.exprOption, hlow, hhigh, hmax, InnerReaders.typeOption_present htypes htype,
    Expr.effort]

theorem typeAssert {y : Expr} {asserted : Option GoType} (lparen : Int) (hy : y.ReadsBack)
    (hasserted : ∀ t ∈ asserted, t.Written) :
    (Expr.typeAssert y lparen asserted type).ReadsBack := by
  intro depth s hs
  have htypes := readersWithin_faithful hs
  have hasserted : (asserted.map GoType.form).mapM (readersWithin depth s).type = _ :=
    mapM_typeForm htypes hasserted (n := 2) (by decide)
  rw [Expr.form, readExprWith_first _ rfl, hy depth s hs, reads_bind]
  simp [readChain, Form.operands2, optionsOf_forms, single?_present, List.lookup_cons, hasserted,
    InnerReaders.typeOption_present htypes htype, Expr.effort]

theorem call {fn : Expr} {args : List Expr} (lparen rparen : Int) (ellipsis : Option Int)
    (hfn : fn.ReadsBack) (hargs : ∀ z ∈ args, z.ReadsBack) :
    (Expr.call (.mk fn args lparen rparen type ellipsis)).ReadsBack := by
  intro depth s hs
  have htypes := readersWithin_faithful hs
  have hargs := InnerReaders.exprs_forms fun z hz => (hargs z hz).nested hs
  have hsplit : splitOptions ["type", "ellipsis"] (Expr.forms args ++ OptionalParts.forms
      [("ellipsis", ellipsis.map fun pos => [.int pos]), ("type", typePart type)]) = .ok _ :=
    splitOptions_append_forms (forall_exprForms (by decide)) (by simp) (by simp)
  have hellipsis : (ellipsis.map Datum.int).mapM (fun d => (liftM d.asInt : Reader Int)) =
      pure ellipsis := by
    cases ellipsis <;> rfl
  rw [Expr.form, Call.form, readExprWith_first _ rfl, hfn depth s hs, reads_bind]
  simp [readChain, Form.operands3, hsplit, hargs, single?_present, List.lookup_cons,
    InnerReaders.typeOption_present htypes htype, hellipsis, Expr.effort, Call.effort]

theorem star {y : Expr} (pos : Int) (hy : y.ReadsBack) : (Expr.star y pos type).ReadsBack := by
  intro depth s hs
  have htypes := readersWithin_faithful hs
  have hy := hy.nested hs 2
  rw [Expr.form, readExprWith_leaf _ rfl]
  simp [readLeaf, Form.operands2, optionsOf_forms, InnerReaders.expr, hy,
    InnerReaders.typeOption_present htypes htype, Expr.effort]

theorem unary {y : Expr} (op : String) (pos : Int) (hy : y.ReadsBack) :
    (Expr.unary op y pos type).ReadsBack := by
  intro depth s hs
  have htypes := readersWithin_faithful hs
  have hy := hy.nested hs 2
  rw [Expr.form, readExprWith_leaf _ rfl]
  simp [readLeaf, Form.operands3, optionsOf_forms, InnerReaders.expr, hy,
    InnerReaders.typeOption_present htypes htype, Expr.effort]

theorem binary {y z : Expr} (op : String) (opPos : Int) (hy : y.ReadsBack) (hz : z.ReadsBack) :
    (Expr.binary op y z opPos type).ReadsBack := by
  intro depth s hs
  have htypes := readersWithin_faithful hs
  have hz := hz.nested hs 2
  rw [Expr.form, readExprWith_third _ rfl, hy depth s hs, reads_bind]
  simp [readChain, Form.operands4, optionsOf_forms, InnerReaders.expr, hz,
    InnerReaders.typeOption_present htypes htype, Expr.effort]

end

theorem keyValue {key value : Expr} (hkey : key.ReadsBack) (hvalue : value.ReadsBack) :
    (Expr.keyValue key value).ReadsBack := by
  intro depth s hs
  have hkey := hkey.nested hs 2
  have hvalue := hvalue.nested hs 2
  rw [Expr.form, readExprWith_leaf _ rfl]
  simp [readLeaf, Form.operands2, InnerReaders.expr, hkey, hvalue, Expr.effort]

theorem typeExpr {type : GoType} (pos : Int) (htype : type.Written) :
    (Expr.typeExpr type pos).ReadsBack := by
  intro depth s hs
  have ht := readersWithin_faithful hs type htype 2
  rw [Expr.form, readExprWith_leaf _ rfl]
  simp [readLeaf, Form.operands2, InnerReaders.type, ht, Expr.effort]

end Expr.ReadsBack

theorem Expr.readsBack_of_parts {x : Expr} (hx : x.Expressible)
    (hexprs : ∀ y, .expr y ∈ Node.ofExpr x → y.ReadsBack)
    (hblocks : ∀ b, Node.block b ∈ Node.ofExpr x → ∀ stmt ∈ b.stmts, stmt.ReadsBack) :
    x.ReadsBack := by
  obtain ⟨htype, hx⟩ := hx
  cases x with
  | ident id => exact .ident hx htype
  | basicLit kind value pos type => exact .basicLit htype kind value pos
  | compositeLit elts lbrace type =>
    exact .compositeLit htype lbrace fun y hy => hexprs y (List.mem_map_of_mem hy)
  | funcLit body pos type => exact .funcLit htype pos (hblocks body List.mem_cons_self)
  | paren y lparen type => exact .paren htype lparen (hexprs y List.mem_cons_self)
  | selector y sel selection type =>
    have hsel := hexprs (.ident sel) (by simp [Node.ofExpr, Node.ident])
    exact .selector htype (hexprs y List.mem_cons_self) hsel hx
  | index y indices lbrack type =>
    refine .index htype lbrack (hexprs y List.mem_cons_self) (fun z hz => ?_) hx
    exact hexprs z (List.mem_cons_of_mem _ (List.mem_map_of_mem hz))
  | slice y lbrack low high max type =>
    have hoptions : ∀ bound ∈ [low, high, max], ∀ z ∈ bound, z.ReadsBack := by
      intro bound hbound z hz
      refine hexprs z (List.mem_cons_of_mem _ ?_)
      simp only [List.mem_cons, List.not_mem_nil, or_false] at hbound
      rcases hbound with rfl | rfl | rfl <;> simp_all [Node.optExpr, Node.exprs]
    exact .slice htype lbrack (hexprs y List.mem_cons_self) (hoptions low (by simp))
      (hoptions high (by simp)) (hoptions max (by simp))
  | typeAssert y lparen asserted type =>
    exact .typeAssert htype lparen (hexprs y List.mem_cons_self) hx
  | call c =>
    obtain ⟨fn, args, lparen, rparen, type, ellipsis⟩ := c
    refine .call htype lparen rparen ellipsis (hexprs fn List.mem_cons_self) fun z hz => ?_
    exact hexprs z (List.mem_cons_of_mem _ (List.mem_map_of_mem hz))
  | star y pos type => exact .star htype pos (hexprs y List.mem_cons_self)
  | unary op y pos type => exact .unary htype op pos (hexprs y List.mem_cons_self)
  | binary op y z opPos type =>
    exact .binary htype op opPos (hexprs y List.mem_cons_self)
      (hexprs z (by simp [Node.ofExpr]))
  | keyValue key value =>
    exact .keyValue (hexprs key List.mem_cons_self) (hexprs value (by simp [Node.ofExpr]))
  | typeExpr type pos => exact .typeExpr pos (htype type rfl)

/-! ## Declarations -/

theorem InnerReaders.deeper_deeper (inner : InnerReaders) (m n : Nat) :
    (inner.deeper m).deeper n = inner.deeper (n + m) := by
  simp only [deeper, Nat.add_assoc]

/-- A written declaration is read back, also some steps deeper. -/
def ValueSpec.ReadsBack (spec : ValueSpec) : Prop :=
  ∀ depth s n, s ≤ depth →
    readValueSpec ((readersWithin depth s).deeper n) spec.form = reads (s - n) spec.effort spec

/-- A written group of declarations is read back, also some steps deeper. -/
def GenDecl.ReadsBack (decl : GenDecl) : Prop :=
  ∀ depth s n, s ≤ depth →
    readGenDecl ((readersWithin depth s).deeper n) decl.form = reads (s - n) decl.effort decl

theorem Expr.forms_ident (ids : List Ident) :
    Expr.forms (ids.map .ident) = ids.map Ident.form := by
  induction ids with
  | nil => rw [List.map_nil, Expr.forms, List.map_nil]
  | cons id ids ih => rw [List.map_cons, Expr.forms, Expr.form, ih, List.map_cons]

theorem Expr.efforts_ident (ids : List Ident) :
    Expr.efforts 4 (ids.map .ident) = Ident.efforts ids := by
  induction ids with
  | nil => rw [List.map_nil, Expr.efforts, Ident.efforts]
  | cons id ids ih => rw [List.map_cons, Expr.efforts, Expr.effort, ih, Ident.efforts]

theorem identsOf?_map (ids : List Ident) : identsOf? (ids.map .ident) = some ids := by
  induction ids with
  | nil => rfl
  | cons id ids ih => rw [List.map_cons, identsOf?, ih, Option.map_some]

theorem ValueSpec.readsBack_of_parts {spec : ValueSpec} (htype : ∀ t ∈ spec.type, t.Written)
    (hexprs : ∀ x, .expr x ∈ (Node.valueSpec spec).children → x.ReadsBack) :
    spec.ReadsBack := by
  intro depth s n hs
  obtain ⟨name, others, values, type⟩ := spec
  have htypes := InnerReaders.faithful_deeper (readersWithin_faithful hs) n
  have hnames : ((readersWithin depth s).deeper n).exprs (name.form :: others.map Ident.form) =
      reads (s - n) (Ident.efforts (name :: others)) (.ident name :: others.map .ident) := by
    rw [← List.map_cons, ← List.map_cons, ← Expr.forms_ident, ← Expr.efforts_ident]
    refine InnerReaders.exprs_forms fun x hx => ((hexprs x ?_).nested hs).deeper n
    obtain ⟨id, hid, rfl⟩ := List.mem_map.mp hx
    exact List.mem_append_left _ (List.mem_map_of_mem hid)
  have hvalues : ((readersWithin depth s).deeper n).exprs (Expr.forms values) = _ :=
    InnerReaders.exprs_forms fun x hx =>
      ((hexprs x (by simp [Node.children, Node.exprs, hx])).nested hs).deeper n
  have hheld : (if values = [] then none else some (Expr.forms values)).getD [] =
      Expr.forms values := by
    cases values <;> simp [Expr.forms]
  have hidents : identsOf? (.ident name :: others.map .ident) = some (name :: others) :=
    identsOf?_map (name :: others)
  simp [readValueSpec, ValueSpec.form, Form.tagged_list, optionsOf_forms, Options.getAll,
    OptionalParts.get?_present, List.lookup_cons, hnames, hidents, hheld, hvalues,
    InnerReaders.typeOption_present htypes (t := type) htype, ValueSpec.effort]

theorem GenDecl.readsBack_of_parts {decl : GenDecl} (hspecs : ∀ spec ∈ decl.specs, spec.ReadsBack) :
    decl.ReadsBack := by
  intro depth s n hs
  obtain ⟨tok, specs, pos⟩ := decl
  have hspecs : (ValueSpec.forms specs).mapM
      (readValueSpec (((readersWithin depth s).deeper n).deeper 2)) =
        reads (s - n) ((ValueSpec.efforts specs).under 2) specs := by
    rw [InnerReaders.deeper_deeper]
    replace hspecs : ∀ spec ∈ specs, spec.ReadsBack := hspecs
    induction specs with
    | nil => simp [ValueSpec.forms, ValueSpec.efforts]
    | cons spec specs ih =>
      rw [List.forall_mem_cons] at hspecs
      have hspec : readValueSpec ((readersWithin depth s).deeper (2 + n)) spec.form =
          reads (s - n) (spec.effort.under 2) spec := by
        rw [hspecs.1 depth s (2 + n) hs, Nat.add_comm, ← Nat.sub_sub, reads_sub]
      simp [ValueSpec.forms, ValueSpec.efforts, hspec, ih hspecs.2, Effort.under_append]
  simp [readGenDecl, GenDecl.form, Form.tagged_list, Form.operands2, hspecs, GenDecl.effort]

/-! ## Statements -/

theorem readStmtWith_list (inner : InnerReaders) (tag : String) (args : List Datum) :
    readStmtWith inner (.list (.symbol tag :: args)) = readStmtForm inner ⟨tag, args⟩ := by
  rw [readStmtWith, Form.ofDatum_list (Nat.le_add_left 1 _), liftM_ok, pure_bind]

namespace Stmt.ReadsBack

theorem decl {decl : GenDecl} (hdecl : decl.ReadsBack) : (Stmt.decl decl).ReadsBack := by
  intro depth s hs
  have hdecl := hdecl depth s 1 hs
  rw [reads_sub] at hdecl
  rw [Stmt.form, readStmtWith_list]
  simp [readStmtForm, readDeclStmt, Form.operand, hdecl, Stmt.effort]

theorem empty (pos : Int) : (Stmt.empty pos).ReadsBack := by
  intro depth s hs
  rw [Stmt.form, readStmtWith_list]
  simp [readStmtForm, readEmpty, Form.operand, Stmt.effort]

theorem labeled {label : Ident} {stmt : Stmt} (hlabel : label.Bare) (hstmt : stmt.ReadsBack) :
    (Stmt.labeled label stmt).ReadsBack := by
  intro depth s hs
  obtain ⟨name, pos, obj, type⟩ := label
  obtain ⟨rfl, rfl⟩ := hlabel
  have hstmt := hstmt.nested hs 2
  rw [Stmt.form, readStmtWith_list]
  simp [readStmtForm, readLabeled, Form.operands3, readLabel, InnerReaders.stmt, hstmt, Stmt.effort]

theorem expr {x : Expr} (hx : x.ReadsBack) : (Stmt.expr x).ReadsBack := by
  intro depth s hs
  have hx := hx.nested hs 2
  rw [Stmt.form, readStmtWith_list]
  simp [readStmtForm, readExprStmt, Form.operand, InnerReaders.expr, hx, Stmt.effort]

theorem send {chan value : Expr} (arrow : Int) (hchan : chan.ReadsBack) (hvalue : value.ReadsBack) :
    (Stmt.send chan value arrow).ReadsBack := by
  intro depth s hs
  have hchan := hchan.nested hs 2
  have hvalue := hvalue.nested hs 2
  rw [Stmt.form, readStmtWith_list]
  simp [readStmtForm, readSend, Form.operands3, InnerReaders.expr, hchan, hvalue, Stmt.effort]

theorem incDec {x : Expr} (tok : String) (tokPos : Int) (hx : x.ReadsBack) :
    (Stmt.incDec x tok tokPos).ReadsBack := by
  intro depth s hs
  have hx := hx.nested hs 2
  rw [Stmt.form, readStmtWith_list]
  simp [readStmtForm, readIncDec, Form.operands3, InnerReaders.expr, hx, Stmt.effort]

theorem assign {lhs rhs : List Expr} (tok : String) (tokPos : Int) (hlhs : ∀ x ∈ lhs, x.ReadsBack)
    (hrhs : ∀ x ∈ rhs, x.ReadsBack) : (Stmt.assign lhs tok tokPos rhs).ReadsBack := by
  intro depth s hs
  have hlhs := InnerReaders.exprs_forms fun x hx => (hlhs x hx).nested hs
  have hrhs := InnerReaders.exprs_forms fun x hx => (hrhs x hx).nested hs
  rw [Stmt.form, readStmtWith_list]
  simp [readStmtForm, readAssign, Form.operands4, Form.tagged_list, hlhs, hrhs, Stmt.effort]

theorem goStmt {c : Call} (pos : Int) (hc : (Expr.call c).ReadsBack) :
    (Stmt.goStmt c pos).ReadsBack := by
  intro depth s hs
  have hc := InnerReaders.call_form (hc.nested hs) "go"
  rw [Stmt.form, readStmtWith_list]
  simp [readStmtForm, readStart, Form.operands2, hc, Stmt.effort]

theorem deferStmt {c : Call} (pos : Int) (hc : (Expr.call c).ReadsBack) :
    (Stmt.deferStmt c pos).ReadsBack := by
  intro depth s hs
  have hc := InnerReaders.call_form (hc.nested hs) "defer"
  rw [Stmt.form, readStmtWith_list]
  simp [readStmtForm, readStart, Form.operands2, hc, Stmt.effort]

theorem returnStmt {results : List Expr} (pos : Int) (hresults : ∀ x ∈ results, x.ReadsBack) :
    (Stmt.returnStmt results pos).ReadsBack := by
  intro depth s hs
  have hresults := InnerReaders.exprs_forms fun x hx => (hresults x hx).nested hs
  rw [Stmt.form, readStmtWith_list]
  simp [readStmtForm, readReturn, Form.operand, hresults, Stmt.effort]

theorem branch (tok : String) {pos : Int} {label : Option Ident}
    (hbare : ∀ label' ∈ label, label'.Bare ∧ label'.pos = pos) :
    (Stmt.branch tok pos label).ReadsBack := by
  intro depth s hs
  have hlabel : (label.map fun label => Datum.string label.name).mapM
      (fun name => (liftM (readLabel name (.int pos)) : Reader Ident)) = pure label := by
    cases label with
    | none => rfl
    | some label =>
      obtain ⟨name, labelPos, obj, type⟩ := label
      obtain ⟨⟨rfl, rfl⟩, rfl⟩ := hbare _ rfl
      rfl
  rw [Stmt.form, readStmtWith_list]
  simp [readStmtForm, readBranch, Form.operands2, hlabel, Stmt.effort]

theorem block {b : Block} (hb : ∀ stmt ∈ b.stmts, stmt.ReadsBack) : (Stmt.block b).ReadsBack := by
  intro depth s hs
  have hb := InnerReaders.block_form fun stmt hstmt => (hb stmt hstmt).nested hs
  obtain ⟨ss, lbrace⟩ := b
  rw [Block.form] at hb
  rw [Stmt.form, Block.form, readStmtWith_list]
  simp [readStmtForm, readBlockStmt, hb, Stmt.effort]

theorem ifStmt {cond : Expr} {body : Block} {init orElse : Option Stmt} (pos : Int)
    (hcond : cond.ReadsBack) (hbody : ∀ stmt ∈ body.stmts, stmt.ReadsBack)
    (hinit : ∀ stmt ∈ init, stmt.ReadsBack) (horElse : ∀ stmt ∈ orElse, stmt.ReadsBack) :
    (Stmt.ifStmt cond body pos init orElse).ReadsBack := by
  intro depth s hs
  have hcond := hcond.nested hs 2
  have hbody := InnerReaders.block_form fun stmt hstmt => (hbody stmt hstmt).nested hs
  have hinit := InnerReaders.stmtOption_form init fun stmt hstmt => (hinit stmt hstmt).nested hs
  have horElse :=
    InnerReaders.stmtOption_form orElse fun stmt hstmt => (horElse stmt hstmt).nested hs
  rw [Stmt.form, readStmtWith_list]
  simp [readStmtForm, readIf, Form.operand, optionsOf_forms, Options.required, single?_present,
    List.lookup_cons, InnerReaders.expr, hcond, InnerReaders.body, hbody, InnerReaders.stmtOption,
    hinit, horElse, Stmt.effort]

theorem caseClause {exprs : Option (List Expr)} {body : List Stmt} (pos : Int)
    (hexprs : ∀ x ∈ exprs.getD [], x.ReadsBack) (hbody : ∀ stmt ∈ body, stmt.ReadsBack) :
    (Stmt.caseClause exprs body pos).ReadsBack := by
  intro depth s hs
  have hexprs := InnerReaders.caseList_form exprs fun x hx => (hexprs x hx).nested hs
  have hbody := InnerReaders.stmts_forms fun stmt hstmt => (hbody stmt hstmt).nested hs
  have hsplit : splitOptions ["list"]
      (OptionalParts.forms [("list", Expr.listPart exprs)] ++ Stmt.forms body) = .ok _ :=
    splitOptions_forms_append (forall_stmtForms (by decide)) (by simp) (by simp)
  rw [Stmt.form, readStmtWith_list]
  simp [readStmtForm, readCase, Form.operand, hsplit, OptionalParts.get?_present, hexprs, hbody,
    Stmt.effort]

theorem switchStmt {body : Block} {init : Option Stmt} {tag : Option Expr} (pos : Int)
    (hbody : ∀ stmt ∈ body.stmts, stmt.ReadsBack) (hinit : ∀ stmt ∈ init, stmt.ReadsBack)
    (htag : ∀ x ∈ tag, x.ReadsBack) : (Stmt.switchStmt body pos init tag).ReadsBack := by
  intro depth s hs
  have hbody := InnerReaders.block_form fun stmt hstmt => (hbody stmt hstmt).nested hs
  have hinit := InnerReaders.stmtOption_form init fun stmt hstmt => (hinit stmt hstmt).nested hs
  have htag := InnerReaders.exprOption_form tag fun x hx => (htag x hx).nested hs
  rw [Stmt.form, readStmtWith_list]
  simp [readStmtForm, readSwitch, Form.operand, optionsOf_forms, Options.required, single?_present,
    List.lookup_cons, InnerReaders.body, hbody, InnerReaders.stmtOption, hinit,
    InnerReaders.exprOption, htag, Stmt.effort]

theorem typeSwitch {assign : Stmt} {body : Block} {init : Option Stmt} (pos : Int)
    (hassign : assign.ReadsBack) (hbody : ∀ stmt ∈ body.stmts, stmt.ReadsBack)
    (hinit : ∀ stmt ∈ init, stmt.ReadsBack) : (Stmt.typeSwitch assign body pos init).ReadsBack := by
  intro depth s hs
  have hassign := hassign.nested hs 2
  have hbody := InnerReaders.block_form fun stmt hstmt => (hbody stmt hstmt).nested hs
  have hinit := InnerReaders.stmtOption_form init fun stmt hstmt => (hinit stmt hstmt).nested hs
  rw [Stmt.form, readStmtWith_list]
  simp [readStmtForm, readTypeSwitch, Form.operand, optionsOf_forms, Options.required,
    single?_present, List.lookup_cons, InnerReaders.stmt, hassign, InnerReaders.body, hbody,
    InnerReaders.stmtOption, hinit, Stmt.effort]

theorem commClause {comm : Option Stmt} {body : List Stmt} (pos : Int)
    (hcomm : ∀ stmt ∈ comm, stmt.ReadsBack) (hbody : ∀ stmt ∈ body, stmt.ReadsBack) :
    (Stmt.commClause comm body pos).ReadsBack := by
  intro depth s hs
  have hcomm := InnerReaders.stmtOption_form comm fun stmt hstmt => (hcomm stmt hstmt).nested hs
  have hbody := InnerReaders.stmts_forms fun stmt hstmt => (hbody stmt hstmt).nested hs
  have hsplit : splitOptions ["on"]
      (OptionalParts.forms [("on", Stmt.part comm)] ++ Stmt.forms body) = .ok _ :=
    splitOptions_forms_append (forall_stmtForms (by decide)) (by simp) (by simp)
  rw [Stmt.part_eq] at hsplit
  rw [Stmt.form, readStmtWith_list]
  simp [readStmtForm, readComm, Form.operand, hsplit, single?_present, InnerReaders.stmtOption,
    hcomm, hbody, Stmt.effort]

theorem selectStmt {body : Block} (pos : Int) (hbody : ∀ stmt ∈ body.stmts, stmt.ReadsBack) :
    (Stmt.selectStmt body pos).ReadsBack := by
  intro depth s hs
  have hbody := InnerReaders.block_form fun stmt hstmt => (hbody stmt hstmt).nested hs
  rw [Stmt.form, readStmtWith_list]
  simp [readStmtForm, readSelect, Form.operand, optionsOf_forms, Options.required, single?_present,
    InnerReaders.body, hbody, Stmt.effort]

theorem forStmt {body : Block} {init post : Option Stmt} {cond : Option Expr} (pos : Int)
    (hbody : ∀ stmt ∈ body.stmts, stmt.ReadsBack) (hinit : ∀ stmt ∈ init, stmt.ReadsBack)
    (hcond : ∀ x ∈ cond, x.ReadsBack) (hpost : ∀ stmt ∈ post, stmt.ReadsBack) :
    (Stmt.forStmt body pos init cond post).ReadsBack := by
  intro depth s hs
  have hbody := InnerReaders.block_form fun stmt hstmt => (hbody stmt hstmt).nested hs
  have hinit := InnerReaders.stmtOption_form init fun stmt hstmt => (hinit stmt hstmt).nested hs
  have hcond := InnerReaders.exprOption_form cond fun x hx => (hcond x hx).nested hs
  have hpost := InnerReaders.stmtOption_form post fun stmt hstmt => (hpost stmt hstmt).nested hs
  rw [Stmt.form, readStmtWith_list]
  simp [readStmtForm, readFor, Form.operand, optionsOf_forms, Options.required, single?_present,
    List.lookup_cons, InnerReaders.body, hbody, InnerReaders.stmtOption, hinit,
    InnerReaders.exprOption, hcond, hpost, Stmt.effort]

theorem rangeStmt {x : Expr} {body : Block} {key value : Option Expr} (pos : Int) (tok : String)
    (hx : x.ReadsBack) (hbody : ∀ stmt ∈ body.stmts, stmt.ReadsBack)
    (hkey : ∀ y ∈ key, y.ReadsBack) (hvalue : ∀ y ∈ value, y.ReadsBack) :
    (Stmt.rangeStmt x body pos key value tok).ReadsBack := by
  intro depth s hs
  have hx := hx.nested hs 2
  have hbody := InnerReaders.block_form fun stmt hstmt => (hbody stmt hstmt).nested hs
  have hkey := InnerReaders.exprOption_form key fun y hy => (hkey y hy).nested hs
  have hvalue := InnerReaders.exprOption_form value fun y hy => (hvalue y hy).nested hs
  rw [Stmt.form, readStmtWith_list]
  simp [readStmtForm, readRange, Form.operands2, optionsOf_forms, Options.required, single?_present,
    List.lookup_cons, InnerReaders.expr, hx, InnerReaders.body, hbody, InnerReaders.exprOption,
    hkey, hvalue, Stmt.effort]

end Stmt.ReadsBack

theorem Stmt.readsBack_of_parts {stmt : Stmt} (hstmt : (Node.stmt stmt).Expressible)
    (hexprs : ∀ x, .expr x ∈ Node.ofStmt stmt → x.ReadsBack)
    (hstmts : ∀ t, .stmt t ∈ Node.ofStmt stmt → t.ReadsBack)
    (hblocks : ∀ b, Node.block b ∈ Node.ofStmt stmt → ∀ t ∈ b.stmts, t.ReadsBack)
    (hdecls : ∀ decl, .genDecl decl ∈ Node.ofStmt stmt → decl.ReadsBack) :
    stmt.ReadsBack := by
  have hexprList {xs : List Expr} (h : Node.exprs xs ⊆ Node.ofStmt stmt) : ∀ x ∈ xs, x.ReadsBack :=
    fun x hx => hexprs x (h (List.mem_map_of_mem hx))
  have hstmtList {ss : List Stmt} (h : Node.stmts ss ⊆ Node.ofStmt stmt) : ∀ t ∈ ss, t.ReadsBack :=
    fun t ht => hstmts t (h (List.mem_map_of_mem ht))
  have hexprOption {x : Option Expr} (h : Node.optExpr x ⊆ Node.ofStmt stmt) :
      ∀ y ∈ x, y.ReadsBack := by
    rintro y rfl
    exact hexprs y (h List.mem_cons_self)
  have hstmtOption {t : Option Stmt} (h : Node.optStmt t ⊆ Node.ofStmt stmt) :
      ∀ u ∈ t, u.ReadsBack := by
    rintro u rfl
    exact hstmts u (h List.mem_cons_self)
  cases stmt with
  | decl decl => exact .decl (hdecls decl List.mem_cons_self)
  | empty pos => exact .empty pos
  | labeled label t => exact .labeled hstmt (hstmts t (by simp [Node.ofStmt]))
  | expr x => exact .expr (hexprs x List.mem_cons_self)
  | send chan value arrow =>
    exact .send arrow (hexprs chan List.mem_cons_self) (hexprs value (by simp [Node.ofStmt]))
  | incDec x tok tokPos => exact .incDec tok tokPos (hexprs x List.mem_cons_self)
  | assign lhs tok tokPos rhs =>
    exact .assign tok tokPos (hexprList (by simp [Node.ofStmt])) (hexprList (by simp [Node.ofStmt]))
  | goStmt c pos => exact .goStmt pos (hexprs (.call c) List.mem_cons_self)
  | deferStmt c pos => exact .deferStmt pos (hexprs (.call c) List.mem_cons_self)
  | returnStmt results pos => exact .returnStmt pos (hexprList (by simp [Node.ofStmt]))
  | branch tok pos label => exact .branch tok hstmt
  | block b =>
    obtain ⟨ss, lbrace⟩ := b
    exact .block (hstmtList (List.Subset.refl _))
  | ifStmt cond body pos init orElse =>
    exact .ifStmt pos (hexprs cond (by simp [Node.ofStmt])) (hblocks body (by simp [Node.ofStmt]))
      (hstmtOption (by simp [Node.ofStmt])) (hstmtOption (List.subset_append_right _ _))
  | caseClause exprs body pos =>
    exact .caseClause pos (hexprList (by simp [Node.ofStmt])) (hstmtList (by simp [Node.ofStmt]))
  | switchStmt body pos init tag =>
    exact .switchStmt pos (hblocks body (by simp [Node.ofStmt]))
      (hstmtOption (by simp [Node.ofStmt])) (hexprOption (by simp [Node.ofStmt]))
  | typeSwitch assign body pos init =>
    exact .typeSwitch pos (hstmts assign (by simp [Node.ofStmt]))
      (hblocks body (by simp [Node.ofStmt])) (hstmtOption (by simp [Node.ofStmt]))
  | commClause comm body pos =>
    exact .commClause pos (hstmtOption (by simp [Node.ofStmt])) (hstmtList (by simp [Node.ofStmt]))
  | selectStmt body pos => exact .selectStmt pos (hblocks body List.mem_cons_self)
  | forStmt body pos init cond post =>
    have hpost : Node.optStmt post ⊆ Node.ofStmt (.forStmt body pos init cond post) :=
      fun n hn => by simp [Node.ofStmt, hn]
    exact .forStmt pos (hblocks body (by simp [Node.ofStmt])) (hstmtOption (by simp [Node.ofStmt]))
      (hexprOption (by simp [Node.ofStmt])) (hstmtOption hpost)
  | rangeStmt x body pos key value tok =>
    exact .rangeStmt pos tok (hexprs x (by simp [Node.ofStmt]))
      (hblocks body (by simp [Node.ofStmt])) (hexprOption (by simp [Node.ofStmt]))
      (hexprOption (by simp [Node.ofStmt]))

/-! ## All nodes -/

/-- A written node is read back; a file and the declaration of a function are no nodes of a form. -/
def Node.ReadsBack : Node → Prop
  | .expr x => x.ReadsBack
  | .stmt t => t.ReadsBack
  | .valueSpec spec => spec.ReadsBack
  | .genDecl decl => decl.ReadsBack
  | .funcDecl _ | .file _ => True

/-- A node is read back if all nodes below it are. -/
theorem Node.readsBack_of_children {n : Node} (hn : n.Expressible)
    (h : ∀ c ∈ n.children, ∀ m ∈ c.preorder, m.ReadsBack) : n.ReadsBack := by
  have hself : ∀ c ∈ n.children, c.ReadsBack := fun c hc => h c hc c c.mem_preorder_self
  have hblocks : ∀ b, block b ∈ n.children → ∀ stmt ∈ b.stmts, stmt.ReadsBack := by
    intro b hb stmt hstmt
    obtain ⟨ss, lbrace⟩ := b
    exact h _ hb (.stmt stmt)
      (mem_preorder_of_child (List.mem_map_of_mem hstmt) (mem_preorder_self _))
  cases n with
  | expr x => exact Expr.readsBack_of_parts hn (fun y hy => hself _ hy) hblocks
  | stmt stmt =>
    exact Stmt.readsBack_of_parts hn (fun x hx => hself _ hx) (fun t ht => hself _ ht) hblocks
      (fun decl hdecl => hself _ hdecl)
  | valueSpec spec => exact ValueSpec.readsBack_of_parts hn fun x hx => hself _ hx
  | genDecl decl =>
    obtain ⟨tok, specs, pos⟩ := decl
    exact GenDecl.readsBack_of_parts fun spec hspec =>
      hself (.valueSpec spec) (List.mem_map_of_mem hspec)
  | funcDecl decl => trivial
  | file f => trivial

/-- Every node of a tree that the grammar has a form for is read back. -/
theorem Node.readsBack (n : Node) (h : ∀ m ∈ n.preorder, m.Expressible) :
    ∀ m ∈ n.preorder, m.ReadsBack := by
  rw [forall_preorder] at h ⊢
  have ih : ∀ c ∈ n.children, ∀ m ∈ c.preorder, m.ReadsBack := by
    intro c hc
    have := Nat.lt_of_le_of_lt (weight_lt_of_mem hc) (total_children_lt n)
    exact readsBack c (h.2 c hc)
  exact ⟨readsBack_of_children h.1 ih, ih⟩
termination_by n.weight

theorem readExpr_form {x : Expr} (h : ∀ m ∈ (Node.expr x).walk, m.Expressible) :
    readExpr x.form = reads stepLimit (x.effort.nested 2) x := by
  rw [Node.walk_eq] at h
  have hx : x.ReadsBack := Node.readsBack (.expr x) h _ (Node.mem_preorder_self _)
  exact hx.nested (Nat.le_refl _) 2 (by decide)

theorem readStmt_form {stmt : Stmt} (h : ∀ m ∈ (Node.stmt stmt).walk, m.Expressible) :
    readStmt stmt.form = reads stepLimit (stmt.effort.nested 2) stmt := by
  rw [Node.walk_eq] at h
  have hstmt : stmt.ReadsBack := Node.readsBack (.stmt stmt) h _ (Node.mem_preorder_self _)
  exact hstmt.nested (Nat.le_refl _) 2 (by decide)

/-- The declaration of a function is read five steps below the program. -/
theorem readFuncDecl_form {decl : FuncDecl}
    (h : ∀ m ∈ (Node.funcDecl decl).walk, m.Expressible) :
    readFuncDecl topReaders ⟨"func-decl", .string decl.name.name :: .int decl.pos ::
      OptionalParts.forms [("recv", typePart decl.recv), ("body", Block.part decl.body)]⟩ =
      reads stepLimit (decl.effort.under 5) decl := by
  rw [Node.walk_eq] at h
  have hbelow := Node.readsBack (.funcDecl decl) h
  obtain ⟨⟨name, namePos, obj, type⟩, pos, body, recv⟩ := decl
  obtain ⟨⟨rfl, rfl⟩, hpos, hrecv⟩ := h _ (Node.mem_preorder_self _)
  replace hpos : namePos = pos := hpos
  subst hpos
  have htypes : topReaders.typeAt.Faithful (stepLimit - 5) :=
    InnerReaders.faithful_deeper (readersWithin_faithful (Nat.le_refl _)) 5
  have hrecv : (recv.map GoType.form).mapM topReaders.type = _ :=
    mapM_typeForm htypes hrecv (n := 2) (by decide)
  have hbody : (body.map Block.form).mapM topReaders.block =
      reads (stepLimit - 5) (Block.partEffort body) body := by
    cases body with
    | none => simp [Block.partEffort]
    | some b =>
      obtain ⟨ss, lbrace⟩ := b
      have hss : ∀ t ∈ ss, t.ReadsBack := fun t ht =>
        hbelow (.stmt t) (Node.mem_preorder_of_child (c := Node.block (.mk ss lbrace))
          (by simp [Node.children]) (Node.mem_preorder_of_child (List.mem_map_of_mem ht)
            (Node.mem_preorder_self _)))
      have hb : topReaders.block (Block.mk ss lbrace).form = _ :=
        InnerReaders.block_form fun t ht => ((hss t ht).nested (Nat.le_refl _)).deeper 5
      simp [Block.partEffort, hb]
  simp [readFuncDecl, Form.operands2, optionsOf_forms, single?_present, List.lookup_cons,
    Block.part, hbody, hrecv, FuncDecl.effort, ← reads_sub]

theorem readDecl_form {decl : Decl} (h : ∀ m ∈ (Node.decl decl).walk, m.Expressible) :
    readDecl decl.form = reads stepLimit (decl.effort.under 5) decl := by
  cases decl with
  | gen decl =>
    rw [Node.walk_eq] at h
    have hdecl : decl.ReadsBack := Node.readsBack (.genDecl decl) h _ (Node.mem_preorder_self _)
    have hread := hdecl stepLimit stepLimit 5 (Nat.le_refl _)
    obtain ⟨tok, specs, pos⟩ := decl
    rw [GenDecl.form] at hread
    simp [readDecl, Decl.form, GenDecl.form, Form.ofDatum_list, topReaders, hread, reads_sub,
      Decl.effort]
  | func decl =>
    simp [readDecl, Decl.form, FuncDecl.form, Form.ofDatum_list, readFuncDecl_form h, Decl.effort]

/-- The form of an expression, statement or declaration is read back as the tree it was written
from, if the steps that its nesting takes are at hand; if not, it is reported as nested too deeply.
The named types of its annotations are entered into the table. The steps are at hand if there are
five for each list around another, and five more. -/
theorem written_trees_read_back :
    (∀ x : Expr, (∀ m ∈ (Node.expr x).walk, m.Expressible) → ∀ table,
      (readExpr x.form table =
        if (x.effort.nested 2).steps ≤ stepLimit then .ok (x, table.mentionAll x.effort.names)
        else .error .tooDeep) ∧
      (5 * (x.form.nesting + 1) ≤ stepLimit → (x.effort.nested 2).steps ≤ stepLimit)) ∧
    (∀ stmt : Stmt, (∀ m ∈ (Node.stmt stmt).walk, m.Expressible) → ∀ table,
      (readStmt stmt.form table =
        if (stmt.effort.nested 2).steps ≤ stepLimit then
          .ok (stmt, table.mentionAll stmt.effort.names)
        else .error .tooDeep) ∧
      (5 * (stmt.form.nesting + 1) ≤ stepLimit → (stmt.effort.nested 2).steps ≤ stepLimit)) ∧
    (∀ decl : Decl, (∀ m ∈ (Node.decl decl).walk, m.Expressible) → ∀ table,
      (readDecl decl.form table =
        if (decl.effort.under 5).steps ≤ stepLimit then
          .ok (decl, table.mentionAll decl.effort.names)
        else .error .tooDeep) ∧
      (5 * (decl.form.nesting + 1) ≤ stepLimit → (decl.effort.under 5).steps ≤ stepLimit)) := by
  refine ⟨fun x h table => ⟨?_, fun hnesting => ?_⟩, fun stmt h table => ⟨?_, fun hnesting => ?_⟩,
    fun decl h table => ⟨?_, fun hnesting => ?_⟩⟩
  · rw [readExpr_form h]
    rfl
  · exact Effort.nested_le_of_nesting x.steps_lt (by decide) hnesting
  · rw [readStmt_form h]
    rfl
  · exact Effort.nested_le_of_nesting stmt.steps_lt (by decide) hnesting
  · rw [readDecl_form h]
    rfl
  · have := Effort.steps_under_le 5 decl.effort
    have := decl.steps_lt
    omega

/-- A call of `f` in the package `p` that returns an error. -/
def errorCall : Expr :=
  .call (.mk (.ident ⟨"f", 1, some (.func (some "p") "f" none none), none⟩) [] 2 3 (some .error)
    none)

/-- A function that does nothing but call `f`. -/
def callerDecl : FuncDecl :=
  ⟨⟨"g", 0, none, none⟩, 0, some (.mk [.expr errorCall] 1), none⟩

theorem errorCall_reads_back :
    readExpr errorCall.form .initial = .ok (errorCall, .mentionAll .initial [.error]) ∧
    readStmt (Stmt.expr errorCall).form .initial =
      .ok (.expr errorCall, .mentionAll .initial [.error]) ∧
    readDecl (Decl.func callerDecl).form .initial =
      .ok (.func callerDecl, .mentionAll .initial [.error]) := by
  have hcall : ∀ m ∈ (Node.expr errorCall).preorder, m.Expressible := by
    simp [errorCall, Node.preorder_eq, Node.children, Node.ofExpr, Node.exprs, Node.Expressible,
      Expr.Expressible, Expr.type?, Call.type, Object.Written, GoType.Written, GoType.error,
      GoType.effort, Effort.mention, TypeName.Written, TypeName.error]
  have hstmt : ∀ m ∈ (Node.stmt (.expr errorCall)).preorder, m.Expressible := by
    refine Node.forall_preorder.mpr ⟨trivial, ?_⟩
    simpa [Node.children, Node.ofStmt] using hcall
  have hname : ∀ m ∈ (Node.ident callerDecl.name).preorder, m.Expressible := by
    simp [Node.preorder_eq, Node.ident, Node.children, Node.ofExpr, callerDecl, Node.Expressible,
      Expr.Expressible, Expr.type?]
  have hbody : ∀ m ∈ (Node.block (.mk [.expr errorCall] 1)).preorder, m.Expressible := by
    refine Node.forall_preorder.mpr ⟨trivial, ?_⟩
    simpa [Node.block, Node.children, Node.ofStmt, Node.stmts] using hstmt
  have hdecl : ∀ m ∈ (Node.decl (.func callerDecl)).preorder, m.Expressible := by
    refine Node.forall_preorder.mpr ⟨⟨⟨rfl, rfl⟩, rfl, by simp [callerDecl]⟩, ?_⟩
    exact List.forall_mem_cons.mpr ⟨hname, List.forall_mem_singleton.mpr hbody⟩
  rw [← Node.walk_eq] at hcall hstmt hdecl
  obtain ⟨readsExpr, readsStmt, readsDecl⟩ := written_trees_read_back
  refine ⟨?_, ?_, ?_⟩
  · obtain ⟨hread, henough⟩ := readsExpr errorCall hcall .initial
    exact hread.trans (if_pos (henough (by decide)))
  · obtain ⟨hread, henough⟩ := readsStmt (.expr errorCall) hstmt .initial
    exact hread.trans (if_pos (henough (by decide)))
  · obtain ⟨hread, henough⟩ := readsDecl (.func callerDecl) hdecl .initial
    exact hread.trans (if_pos (henough (by decide)))

/-- An identifier in this many parentheses. -/
def parens : Nat → Expr
  | 0 => .ident ⟨"x", 1, none, none⟩
  | n + 1 => .paren (parens n) 1 none

/-- Each pair of parentheses takes two steps. -/
theorem steps_parens (n : Nat) : 2 * n ≤ (parens n).effort.steps := by
  induction n with
  | zero => exact Nat.zero_le _
  | succ n ih =>
    rw [parens, Expr.effort, typeEffort, Effort.append_none, Effort.steps_nested]
    omega

theorem expressible_parens (n : Nat) :
    ∀ m ∈ (Node.expr (parens n)).preorder, m.Expressible := by
  induction n with
  | zero =>
    refine Node.forall_preorder.mpr ⟨?_, ?_⟩
    · simp [Node.Expressible, parens, Expr.Expressible, Expr.type?]
    · simp [Node.children, parens, Node.ofExpr]
  | succ n ih =>
    refine Node.forall_preorder.mpr ⟨?_, ?_⟩
    · simp [Node.Expressible, parens, Expr.Expressible, Expr.type?]
    · exact List.forall_mem_singleton.mpr ih

theorem readExpr_parens {n : Nat} (h : stepLimit < 2 * n) (table : TypeTable) :
    readExpr (parens n).form table = .error .tooDeep := by
  have hform : ∀ m ∈ (Node.expr (parens n)).walk, m.Expressible := by
    rw [Node.walk_eq]
    exact expressible_parens n
  rw [readExpr_form hform]
  refine if_neg ?_
  have := steps_parens n
  rw [Effort.steps_nested]
  omega

/-- Seven hundred parentheses have a form, and it is not read. -/
theorem parens_not_read_back :
    (∀ m ∈ (Node.expr (parens 700)).walk, m.Expressible) ∧
      ∀ table, readExpr (parens 700).form table = .error .tooDeep := by
  refine ⟨?_, readExpr_parens (by decide)⟩
  rw [Node.walk_eq]
  exact expressible_parens 700

end UncheckedErrors
