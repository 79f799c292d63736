import UncheckedErrors.Proofs.ProgramForms
import UncheckedErrors.Tree.Walk

/-!
# What the readers of trees leave behind

Of all readers only that of a type definition defines a name; the others at most mention some
(`Observes`). And the trees that are read are coherent: a selector with a selection ends in an
identifier that stands for the selected object (`coherent_files`).

Both are shown form by form, for the readers of a form on the assumption that they hold of the
readers of what is nested inside (`InnerReaders.Observing`).
-/

namespace UncheckedErrors

/-! ## Readers that define nothing -/

section

variable {ε α β γ δ ζ η : Type}

/-- The reader defines no name, and whatever it gives satisfies `P`. -/
def Observes (r : StateT TypeTable (Except ε) α) (P : α → Prop) : Prop :=
  ∀ table a table', r table = .ok (a, table') →
    P a ∧ ∀ n, table'.definition? n = table.definition? n

namespace Observes

variable {r : StateT TypeTable (Except ε) α} {P Q : α → Prop}

theorem imp (h : Observes r P) (hpq : ∀ a, P a → Q a) : Observes r Q :=
  fun table a table' ha => (h table a table' ha).imp_left (hpq a)

theorem pure {a : α} (h : P a) : Observes (pure a : StateT TypeTable (Except ε) α) P := by
  intro table b table' hb
  obtain ⟨rfl, rfl⟩ := pure_eq_ok.mp hb
  exact ⟨h, fun _ => rfl⟩

theorem throw {e : ε} : Observes (throw e : StateT TypeTable (Except ε) α) P :=
  fun _ _ _ h => absurd h throw_eq_ok.mp

theorem liftM {x : Except ε α} :
    Observes (liftM x : StateT TypeTable (Except ε) α) fun _ => True := by
  intro table a table' h
  obtain ⟨-, rfl⟩ := liftM_eq_ok.mp h
  exact ⟨trivial, fun _ => rfl⟩

theorem bind {f : α → StateT TypeTable (Except ε) β} {Q : β → Prop} (h : Observes r P)
    (hf : ∀ a, P a → Observes (f a) Q) : Observes (r >>= f) Q := by
  intro table b table' hb
  obtain ⟨a, middle, ha, hb⟩ := bind_eq_ok.mp hb
  obtain ⟨hP, hfirst⟩ := h _ _ _ ha
  obtain ⟨hQ, hsecond⟩ := hf a hP _ _ _ hb
  exact ⟨hQ, fun n => (hsecond n).trans (hfirst n)⟩

/-- A step that takes a form apart and nothing else. -/
theorem after {x : Except ε α} {f : α → StateT TypeTable (Except ε) β} {Q : β → Prop}
    (hf : ∀ a, Observes (f a) Q) :
    Observes ((MonadLiftT.monadLift x : StateT TypeTable (Except ε) α) >>= f) Q :=
  liftM.bind fun a _ => hf a

/-- Such a step that gives two parts of the form. The next ones are for three and more. -/
theorem after₂ {x : Except ε (α × β)} {f : α × β → StateT TypeTable (Except ε) δ} {Q : δ → Prop}
    (hf : ∀ a b, Observes (f (a, b)) Q) :
    Observes ((MonadLiftT.monadLift x : StateT TypeTable (Except ε) (α × β)) >>= f) Q :=
  .after fun p => hf p.1 p.2

theorem after₃ {x : Except ε (α × β × γ)} {f : α × β × γ → StateT TypeTable (Except ε) δ}
    {Q : δ → Prop} (hf : ∀ a b c, Observes (f (a, b, c)) Q) :
    Observes ((MonadLiftT.monadLift x : StateT TypeTable (Except ε) (α × β × γ)) >>= f) Q :=
  .after₂ fun a p => hf a p.1 p.2

theorem after₄ {x : Except ε (α × β × γ × ζ)} {f : α × β × γ × ζ → StateT TypeTable (Except ε) δ}
    {Q : δ → Prop} (hf : ∀ a b c d, Observes (f (a, b, c, d)) Q) :
    Observes ((MonadLiftT.monadLift x : StateT TypeTable (Except ε) (α × β × γ × ζ)) >>= f) Q :=
  .after₃ fun a b p => hf a b p.1 p.2

theorem after₅ {x : Except ε (α × β × γ × ζ × η)}
    {f : α × β × γ × ζ × η → StateT TypeTable (Except ε) δ} {Q : δ → Prop}
    (hf : ∀ a b c d e, Observes (f (a, b, c, d, e)) Q) :
    Observes ((MonadLiftT.monadLift x : StateT TypeTable (Except ε) (α × β × γ × ζ × η)) >>= f) Q :=
  .after₄ fun a b c p => hf a b c p.1 p.2

theorem mapM {f : α → StateT TypeTable (Except ε) β} {P : β → Prop} (h : ∀ a, Observes (f a) P)
    (as : List α) : Observes (as.mapM f) fun bs => ∀ b ∈ bs, P b := by
  induction as with
  | nil => exact .pure fun b hb => absurd hb List.not_mem_nil
  | cons a as ih =>
    rw [List.mapM_cons]
    refine (h a).bind fun b hb => ih.bind fun bs hbs => .pure ?_
    exact List.forall_mem_cons.mpr ⟨hb, hbs⟩

theorem optionMapM {f : α → StateT TypeTable (Except ε) β} {P : β → Prop}
    (h : ∀ a, Observes (f a) P) (a : Option α) : Observes (a.mapM f) fun b => ∀ x ∈ b, P x := by
  cases a with
  | none => exact .pure fun x hx => absurd hx (Option.not_mem_none x)
  | some a =>
    rw [Option.mapM_some, map_eq_pure_bind]
    refine (h a).bind fun b hb => .pure ?_
    rintro _ ⟨⟩
    exact hb

end Observes

end

theorem Observes.within {α : Type} {r : Reader α} {P : α → Prop} (h : Observes r P)
    (steps : Nat) : Observes (r.within steps) P := by
  intro table a table' ha
  unfold Reader.within at ha
  split at ha
  · cases ha
  · cases hr : r table with
    | error e =>
      rw [hr] at ha
      cases ha
    | ok p =>
      rw [hr] at ha
      cases ha
      exact h _ _ _ hr

theorem Observes.lift {α : Type} {r : Reader α} {P : α → Prop} (h : Observes r P) :
    Observes (Reader.lift r) P :=
  fun table a table' ha => h table a table' (Reader.lift_eq_ok.mp ha)

theorem Observes.yields {α : Type} {r : ProgramReader α} {P : α → Prop} (h : Observes r P) :
    Yields r P :=
  fun table a table' ha => (h table a table' ha).1

/-! ## Readers of types and objects -/

/-- The readers of types define no name. -/
def TypeReader.Observing (type : TypeReader) : Prop :=
  ∀ cost d, Observes (type cost d) fun _ => True

theorem observes_typeName (pkg name : Datum) : Observes (readTypeName pkg name) fun _ => True := by
  refine .after fun pkg => .after fun name =>
    Observes.bind (P := fun _ => True) ?_ fun _ _ => .pure trivial
  intro table a table' h
  cases h
  exact ⟨trivial, TypeTable.definition?_mention table _⟩

section

variable {type : TypeReader} (htype : type.Observing)

include htype

theorem observes_field (d : Datum) : Observes (readField type d) fun _ => True := by
  refine .after fun form => ?_
  split
  · exact .after₃ fun name t _ => .after fun name => (htype 2 t).bind fun t _ => .pure trivial
  · exact Observes.throw.bind (P := fun _ => False) fun _ h => h.elim

theorem observes_interfaceMember (d : Datum) :
    Observes (readInterfaceMember type d) fun _ => True := by
  refine .after fun form => ?_
  split
  · exact .after₃ fun name t _ => .after fun name => (htype 2 t).bind fun t _ => .pure trivial
  · exact .after₂ fun t _ => (htype 2 t).bind fun t _ => .pure trivial
  · exact .throw

theorem observes_typeForm (form : Form) : Observes (readTypeForm type form) fun _ => True := by
  unfold readTypeForm
  split
  · exact .after₂ fun name _ => .after fun name => .pure trivial
  · exact .after₃ fun pkg name _ => (observes_typeName pkg name).bind fun n _ => .pure trivial
  · exact .after₂ fun t _ => (htype 2 t).bind fun t _ => .pure trivial
  · exact .after₂ fun t _ => (htype 2 t).bind fun t _ => .pure trivial
  · exact .after₃ fun length t _ => (htype 2 t).bind fun t _ => .after fun length =>
      .pure trivial
  · exact .after₃ fun key value _ => (htype 2 key).bind fun key _ =>
      (htype 2 value).bind fun value _ => .pure trivial
  · exact .after₂ fun t _ => (htype 2 t).bind fun t _ => .pure trivial
  · exact (Observes.mapM (htype 3) form.args).bind fun ts _ => .pure trivial
  · exact .pure trivial
  · exact (Observes.mapM (observes_field htype) form.args).bind fun fields _ => .pure trivial
  · exact (Observes.mapM (observes_interfaceMember htype) form.args).bind fun ms _ => .pure trivial
  · exact .after fun options => (Observes.mapM (htype 3) _).bind fun params _ =>
      (Observes.mapM (htype 3) _).bind fun results _ => .pure trivial
  · exact .throw

theorem observes_object (d : Datum) : Observes (readObject type d) fun _ => True := by
  refine .after fun form => ?_
  unfold readObjectForm
  split
  · exact .after₃ fun pkg name rest => (Observes.optionMapM (htype 4) _).bind fun recv _ =>
      .after fun name => .after fun pkg => .pure trivial
  · exact .after₂ fun name _ => .after fun name => .pure trivial
  · exact .after₃ fun pkg name rest => (Observes.optionMapM (htype 4) _).bind fun type _ =>
      .after fun name => .after fun pkg => .pure trivial
  · exact .after₃ fun pkg name _ => .after fun name => .after fun pkg => .pure trivial
  · exact .after₃ fun pkg name _ => .after fun name => .after fun pkg => .pure trivial
  · exact .after₂ fun path _ => .after fun path => .pure trivial
  · exact .pure trivial
  · exact .throw

end

theorem observes_typeWithin (depth steps : Nat) (d : Datum) :
    Observes (readTypeWithin depth steps d) fun _ => True := by
  induction depth generalizing steps d with
  | zero => exact .throw
  | succ depth ih =>
    rw [readTypeWithin]
    refine .within (.after fun form => observes_typeForm ?_ form) steps
    exact fun cost => ih (steps - cost)

theorem observing_typesWithin (steps : Nat) : (typesWithin steps).Observing :=
  fun cost => observes_typeWithin steps (steps - cost)

/-! ## Coherent trees -/

namespace Node

/-- A selector with a selection ends in an identifier that stands for the selected object. -/
def Agrees : Node → Prop
  | .expr (.selector _ sel (some selection) _) => sel.obj = some selection.obj
  | _ => True

/-- All selectors of a tree agree with their selections. -/
def Coherent (n : Node) : Prop := ∀ m ∈ n.preorder, m.Agrees

/-- Trees that are all coherent. -/
def AllCoherent (ns : List Node) : Prop := ∀ n ∈ ns, n.Coherent

@[simp] theorem allCoherent_nil : AllCoherent [] := fun _ h => absurd h List.not_mem_nil

@[simp] theorem allCoherent_cons {n : Node} {ns : List Node} :
    AllCoherent (n :: ns) ↔ n.Coherent ∧ AllCoherent ns := List.forall_mem_cons

@[simp] theorem allCoherent_append {ns ms : List Node} :
    AllCoherent (ns ++ ms) ↔ AllCoherent ns ∧ AllCoherent ms := List.forall_mem_append

theorem coherent_of_children {n : Node} (h : n.Agrees) (hchildren : AllCoherent n.children) :
    n.Coherent :=
  forall_preorder.mpr ⟨h, hchildren⟩

@[simp] theorem coherent_ident (id : Ident) : (ident id).Coherent :=
  coherent_of_children trivial allCoherent_nil

@[simp] theorem allCoherent_idents (ids : List Ident) : AllCoherent (ids.map ident) := by
  intro n hn
  obtain ⟨id, -, rfl⟩ := List.mem_map.mp hn
  exact coherent_ident id

end Node

theorem allCoherent_exprs {xs : List Expr} (h : ∀ x ∈ xs, (Node.expr x).Coherent) :
    Node.AllCoherent (Node.exprs xs) := by
  intro n hn
  obtain ⟨x, hx, rfl⟩ := List.mem_map.mp hn
  exact h x hx

theorem allCoherent_stmts {ss : List Stmt} (h : ∀ s ∈ ss, (Node.stmt s).Coherent) :
    Node.AllCoherent (Node.stmts ss) := by
  intro n hn
  obtain ⟨s, hs, rfl⟩ := List.mem_map.mp hn
  exact h s hs

theorem Stmt.coherent {s : Stmt} (h : Node.AllCoherent (Node.ofStmt s)) : (Node.stmt s).Coherent :=
  Node.coherent_of_children trivial h

/-- The readers define no name, and the trees that they give are coherent. -/
structure InnerReaders.Observing (inner : InnerReaders) : Prop where
  exprAt (cost : Nat) (d : Datum) : Observes (inner.exprAt cost d) fun x => (Node.expr x).Coherent
  stmtAt (cost : Nat) (d : Datum) : Observes (inner.stmtAt cost d) fun s => (Node.stmt s).Coherent
  typeAt : inner.typeAt.Observing

namespace InnerReaders.Observing

variable {inner : InnerReaders} (h : inner.Observing)

include h

theorem deeper (n : Nat) : (inner.deeper n).Observing where
  exprAt cost := h.exprAt (cost + n)
  stmtAt cost := h.stmtAt (cost + n)
  typeAt cost := h.typeAt (cost + n)

theorem expr (d : Datum) : Observes (inner.expr d) fun x => (Node.expr x).Coherent := h.exprAt 2 d

theorem stmt (d : Datum) : Observes (inner.stmt d) fun s => (Node.stmt s).Coherent := h.stmtAt 2 d

theorem type (d : Datum) : Observes (inner.type d) fun _ => True := h.typeAt 2 d

theorem object (d : Datum) : Observes (inner.object d) fun _ => True := observes_object h.typeAt d

theorem exprs (ds : List Datum) :
    Observes (inner.exprs ds) fun xs => Node.AllCoherent (Node.exprs xs) :=
  (Observes.mapM (h.deeper 2).expr ds).imp fun _ => allCoherent_exprs

theorem stmts (ds : List Datum) :
    Observes (inner.stmts ds) fun ss => Node.AllCoherent (Node.stmts ss) :=
  (Observes.mapM (h.deeper 2).stmt ds).imp fun _ => allCoherent_stmts

theorem exprOption (options : Options) (key : String) :
    Observes (inner.exprOption options key) fun x => Node.AllCoherent (Node.optExpr x) :=
  .after fun d => (Observes.optionMapM (h.deeper 1).expr d).imp fun _ hx =>
    allCoherent_exprs fun y hy => hx y (Option.mem_toList.mp hy)

theorem stmtOption (options : Options) (key : String) :
    Observes (inner.stmtOption options key) fun s => Node.AllCoherent (Node.optStmt s) :=
  .after fun d => (Observes.optionMapM (h.deeper 1).stmt d).imp fun _ hs =>
    allCoherent_stmts fun t ht => hs t (Option.mem_toList.mp ht)

theorem typeOption (options : Options) (key : String) :
    Observes (inner.typeOption options key) fun _ => True :=
  .after fun d => (Observes.optionMapM (h.typeAt 3) d).imp fun _ _ => trivial

/-- The expressions of a case, if it has any. -/
theorem caseList (options : Options) (key : String) :
    Observes ((options.get? key).mapM inner.exprs) fun xs =>
      Node.AllCoherent (Node.exprs (xs.getD [])) := by
  refine (Observes.optionMapM h.exprs _).imp fun xs hxs => ?_
  cases xs with
  | none => exact Node.allCoherent_nil
  | some xs => exact hxs xs rfl

theorem block (d : Datum) : Observes (inner.block d) fun b => (Node.block b).Coherent :=
  .after fun _ => .after₂ fun _ rest => ((h.deeper 1).stmts rest).bind fun _ hss =>
    .after fun _ => .pure (Node.coherent_of_children trivial hss)

theorem body (options : Options) (tag : String) :
    Observes (inner.body options tag) fun b => (Node.block b).Coherent :=
  .after fun d => h.block d

theorem call (tag : String) (d : Datum) :
    Observes (inner.call tag d) fun c => (Node.call c).Coherent := by
  refine ((h.deeper 1).expr d).bind fun x hx => ?_
  split
  · exact .pure hx
  · exact .throw

end InnerReaders.Observing

/-! ## Readers of expressions -/

section

variable {inner : InnerReaders} (h : inner.Observing)

include h

theorem observes_ident (form : Form) : Observes (readIdent inner form) fun _ => True :=
  .after fun _ => .after fun options => .after fun obj => .after fun _ => .after fun _ =>
    (Observes.optionMapM h.object obj).bind fun _ _ =>
      (h.typeOption options "type").bind fun _ _ => .pure trivial

theorem observes_leaf (form : Form) :
    Observes (readLeaf inner form) fun x => (Node.expr x).Coherent := by
  unfold readLeaf
  split
  · exact (observes_ident h form).bind fun id _ => .pure (Node.coherent_ident id)
  · exact .after₄ fun kind value pos rest => .after fun options => .after fun kind =>
      .after fun value => .after fun pos => (h.typeOption options "type").bind fun type _ =>
        .pure (Node.coherent_of_children trivial Node.allCoherent_nil)
  · exact .after₂ fun lbrace rest => .after fun options => (h.exprs _).bind fun elts helts =>
      .after fun lbrace => (h.typeOption options "type").bind fun type _ =>
        .pure (Node.coherent_of_children trivial helts)
  · exact .after₃ fun pos body rest => .after fun options =>
      (h.block body).bind fun body hbody => .after fun pos =>
        (h.typeOption options "type").bind fun type _ =>
          .pure (Node.coherent_of_children trivial (by simp [Node.children, Node.ofExpr, hbody]))
  · exact .after₃ fun lparen x rest => .after fun options => (h.expr x).bind fun x hx =>
      .after fun lparen => (h.typeOption options "type").bind fun type _ =>
        .pure (Node.coherent_of_children trivial (by simp [Node.children, Node.ofExpr, hx]))
  · exact .after₃ fun pos x rest => .after fun options => (h.expr x).bind fun x hx =>
      .after fun pos => (h.typeOption options "type").bind fun type _ =>
        .pure (Node.coherent_of_children trivial (by simp [Node.children, Node.ofExpr, hx]))
  · exact .after₄ fun op pos x rest => .after fun options => .after fun op =>
      (h.expr x).bind fun x hx => .after fun pos => (h.typeOption options "type").bind fun type _ =>
        .pure (Node.coherent_of_children trivial (by simp [Node.children, Node.ofExpr, hx]))
  · exact .after₃ fun key value _ => (h.expr key).bind fun key hkey =>
      (h.expr value).bind fun value hvalue =>
        .pure (Node.coherent_of_children trivial
          (by simp [Node.children, Node.ofExpr, hkey, hvalue]))
  · exact .after₃ fun pos t _ => (h.type t).bind fun t _ => .after fun pos =>
      .pure (Node.coherent_of_children trivial Node.allCoherent_nil)
  · exact .throw

theorem observes_selectedObject (sel : Ident) (kind : SelectionKind) (recv : Datum)
    (index : List Int) :
    Observes (match sel.obj with
      | none => throw (ShapeError.selectionWithoutObject sel.name)
      | some obj => do return ⟨kind, ← inner.type recv, obj, index⟩ : Reader Selection)
      fun selection => sel.obj = some selection.obj := by
  split
  · exact .throw
  · rename_i obj hobj
    exact (h.type recv).bind fun recv _ => .pure hobj

/-- A selection selects the object of the identifier that the selector ends in. -/
theorem observes_selection (sel : Ident) (items : List Datum) :
    Observes (readSelection inner sel items) fun selection => sel.obj = some selection.obj := by
  unfold readSelection
  split
  · rename_i kind recv rest
    refine .after fun kind => ?_
    cases rest with
    | nil => exact observes_selectedObject h sel kind recv []
    | cons d rest =>
      exact .after fun form => (Observes.mapM (fun _ => .liftM) form.args).bind fun index _ =>
        observes_selectedObject h sel kind recv index
  · exact .throw

theorem observes_chain (form : Form) {x : Expr} (hx : (Node.expr x).Coherent) :
    Observes (readChain inner form x) fun y => (Node.expr y).Coherent := by
  unfold readChain
  split
  · refine .after₃ fun _ sel rest => (h.expr sel).bind fun y _ => ?_
    split
    · rename_i sel _
      refine .after fun options =>
        (Observes.optionMapM (observes_selection h sel) _).bind fun selection hselection =>
          (h.typeOption options "type").bind fun type _ => .pure (Node.coherent_of_children ?_ ?_)
      · cases selection with
        | none => trivial
        | some selection => exact hselection selection rfl
      · simp [Node.children, Node.ofExpr, hx]
    · exact .throw
  · exact .after₄ fun _ lbrack first rest => .after₂ fun indices options =>
      (h.exprs indices).bind fun indices hindices => .after fun lbrack =>
        (h.typeOption options "type").bind fun type _ =>
          .pure (Node.coherent_of_children trivial
            (by simp [Node.children, Node.ofExpr, hx, hindices]))
  · exact .after₃ fun _ lbrack rest => .after fun options => .after fun lbrack =>
      (h.exprOption options "low").bind fun low hlow =>
        (h.exprOption options "high").bind fun high hhigh =>
          (h.exprOption options "max").bind fun max hmax =>
            (h.typeOption options "type").bind fun type _ =>
              .pure (Node.coherent_of_children trivial
                (by simp [Node.children, Node.ofExpr, hx, hlow, hhigh, hmax]))
  · exact .after₃ fun _ lparen rest => .after fun options => .after fun asserted =>
      .after fun lparen => (Observes.optionMapM h.type asserted).bind fun asserted _ =>
        (h.typeOption options "type").bind fun type _ =>
          .pure (Node.coherent_of_children trivial (by simp [Node.children, Node.ofExpr, hx]))
  · exact .after₄ fun _ lparen rparen rest => .after₂ fun args options =>
      .after fun ellipsis => (h.exprs args).bind fun args hargs => .after fun lparen =>
        .after fun rparen => (h.typeOption options "type").bind fun type _ =>
          (Observes.optionMapM (fun _ => .liftM) ellipsis).bind fun ellipsis _ =>
            .pure (Node.coherent_of_children trivial
              (by simp [Node.children, Node.ofExpr, hx, hargs]))
  · exact .after₅ fun op opPos _ y rest => .after fun options => .after fun op =>
      .after fun opPos => (h.expr y).bind fun y hy =>
        (h.typeOption options "type").bind fun type _ =>
          .pure (Node.coherent_of_children trivial (by simp [Node.children, Node.ofExpr, hx, hy]))
  · exact .throw

theorem observes_expr (d : Datum) :
    Observes (readExprWith inner d) fun x => (Node.expr x).Coherent := by
  refine .after₂ fun outer leaf => (observes_leaf h leaf).bind fun x hx => ?_
  generalize outer.reverse = forms
  -- from the innermost operand outwards, each form keeps what holds of the operand
  induction forms generalizing x with
  | nil => exact .pure hx
  | cons form forms ih =>
    rw [List.foldlM_cons]
    exact (observes_chain h form hx).bind fun y hy => ih y hy

/-! ## Readers of declarations and statements -/

theorem observes_valueSpec (d : Datum) :
    Observes (readValueSpec inner d) fun spec => (Node.valueSpec spec).Coherent := by
  refine .after fun form => .after fun options => (h.exprs _).bind fun names _ => ?_
  split
  · exact (h.exprs _).bind fun values hvalues => (h.typeOption options "type").bind fun type _ =>
      .pure (Node.coherent_of_children trivial (by simp [Node.children, hvalues]))
  · exact .throw

theorem observes_genDecl (d : Datum) :
    Observes (readGenDecl inner d) fun decl => (Node.genDecl decl).Coherent := by
  refine .after fun form => .after₃ fun tok pos specs => .after fun tok =>
    (Observes.mapM (observes_valueSpec (h.deeper 2)) specs).bind fun specs hspecs =>
      .after fun pos => .pure (Node.coherent_of_children trivial ?_)
  intro n hn
  obtain ⟨spec, hspec, rfl⟩ := List.mem_map.mp hn
  exact hspecs spec hspec

/-! ### Statements, one form each -/

theorem observes_blockStmt (form : Form) :
    Observes (readBlockStmt inner form) fun s => (Node.stmt s).Coherent :=
  (h.block _).bind fun _ hb => .pure hb

theorem observes_exprStmt (form : Form) :
    Observes (readExprStmt inner form) fun s => (Node.stmt s).Coherent :=
  .after₂ fun x _ => (h.expr x).bind fun x hx =>
    .pure (Stmt.coherent (by simp [Node.ofStmt, hx]))

theorem observes_start (form : Form) (tag : String) {make : Call → Int → Stmt}
    (hmake : ∀ c pos, Node.ofStmt (make c pos) = [.call c]) :
    Observes (readStart inner form tag make) fun s => (Node.stmt s).Coherent :=
  .after₃ fun pos c _ => (h.call tag c).bind fun c hc => .after fun pos =>
    .pure (Stmt.coherent (by simp [hmake, hc]))

theorem observes_return (form : Form) :
    Observes (readReturn inner form) fun s => (Node.stmt s).Coherent :=
  .after₂ fun _ results => (h.exprs results).bind fun _ hresults =>
    .after fun _ => .pure (Stmt.coherent hresults)

theorem observes_assign (form : Form) :
    Observes (readAssign inner form) fun s => (Node.stmt s).Coherent :=
  .after₅ fun tok tokPos lhs rhs _ => .after fun lhs => .after fun rhs =>
    (h.exprs lhs.args).bind fun lhs hlhs => .after fun tok => .after fun tokPos =>
      (h.exprs rhs.args).bind fun rhs hrhs =>
        .pure (Stmt.coherent (by simp [Node.ofStmt, hlhs, hrhs]))

omit h in
theorem observes_empty (form : Form) :
    Observes (readEmpty form) fun s => (Node.stmt s).Coherent :=
  .after₂ fun _ _ => .after fun _ => .pure (Stmt.coherent Node.allCoherent_nil)

theorem observes_labeled (form : Form) :
    Observes (readLabeled inner form) fun s => (Node.stmt s).Coherent :=
  .after₄ fun name pos s _ => .after fun label => (h.stmt s).bind fun s hs =>
    .pure (Stmt.coherent (by simp [Node.ofStmt, hs]))

theorem observes_send (form : Form) :
    Observes (readSend inner form) fun s => (Node.stmt s).Coherent :=
  .after₄ fun arrow chan value _ => (h.expr chan).bind fun chan hchan =>
    (h.expr value).bind fun value hvalue => .after fun arrow =>
      .pure (Stmt.coherent (by simp [Node.ofStmt, hchan, hvalue]))

theorem observes_incDec (form : Form) :
    Observes (readIncDec inner form) fun s => (Node.stmt s).Coherent :=
  .after₄ fun tok tokPos x _ => (h.expr x).bind fun x hx => .after fun tok => .after fun tokPos =>
    .pure (Stmt.coherent (by simp [Node.ofStmt, hx]))

omit h in
theorem observes_branch (form : Form) :
    Observes (readBranch form) fun s => (Node.stmt s).Coherent :=
  .after₃ fun tok pos rest =>
    (Observes.optionMapM (fun _ => .liftM) rest.head?).bind fun label _ => .after fun tok =>
      .after fun pos => .pure (Stmt.coherent (by simp [Node.ofStmt]))

theorem observes_if (form : Form) :
    Observes (readIf inner form) fun s => (Node.stmt s).Coherent :=
  .after₂ fun pos rest => .after fun options => .after fun cond =>
    (h.expr cond).bind fun cond hcond => (h.body options "if").bind fun body hbody =>
      .after fun pos => (h.stmtOption options "init").bind fun init hinit =>
        (h.stmtOption options "else").bind fun orElse horElse =>
          .pure (Stmt.coherent (by simp [Node.ofStmt, hcond, hbody, hinit, horElse]))

theorem observes_for (form : Form) :
    Observes (readFor inner form) fun s => (Node.stmt s).Coherent :=
  .after₂ fun pos rest => .after fun options =>
    (h.body options "for").bind fun body hbody => .after fun pos =>
      (h.stmtOption options "init").bind fun init hinit =>
        (h.exprOption options "cond").bind fun cond hcond =>
          (h.stmtOption options "post").bind fun post hpost =>
            .pure (Stmt.coherent (by simp [Node.ofStmt, hbody, hinit, hcond, hpost]))

theorem observes_range (form : Form) :
    Observes (readRange inner form) fun s => (Node.stmt s).Coherent :=
  .after₃ fun pos tok rest => .after fun options => .after fun x =>
    (h.expr x).bind fun x hx => (h.body options "range").bind fun body hbody =>
      .after fun pos => (h.exprOption options "key").bind fun key hkey =>
        (h.exprOption options "value").bind fun value hvalue => .after fun tok =>
          .pure (Stmt.coherent (by simp [Node.ofStmt, hx, hbody, hkey, hvalue]))

theorem observes_switch (form : Form) :
    Observes (readSwitch inner form) fun s => (Node.stmt s).Coherent :=
  .after₂ fun pos rest => .after fun options =>
    (h.body options "switch").bind fun body hbody => .after fun pos =>
      (h.stmtOption options "init").bind fun init hinit =>
        (h.exprOption options "tag").bind fun tag htag =>
          .pure (Stmt.coherent (by simp [Node.ofStmt, hbody, hinit, htag]))

theorem observes_typeSwitch (form : Form) :
    Observes (readTypeSwitch inner form) fun s => (Node.stmt s).Coherent :=
  .after₂ fun pos rest => .after fun options => .after fun assign =>
    (h.stmt assign).bind fun assign hassign =>
      (h.body options "type-switch").bind fun body hbody => .after fun pos =>
        (h.stmtOption options "init").bind fun init hinit =>
          .pure (Stmt.coherent (by simp [Node.ofStmt, hassign, hbody, hinit]))

theorem observes_select (form : Form) :
    Observes (readSelect inner form) fun s => (Node.stmt s).Coherent :=
  .after₂ fun pos rest => .after fun options =>
    (h.body options "select").bind fun body hbody => .after fun pos =>
      .pure (Stmt.coherent (by simp [Node.ofStmt, hbody]))

theorem observes_case (form : Form) :
    Observes (readCase inner form) fun s => (Node.stmt s).Coherent :=
  .after₂ fun pos rest => .after₂ fun body options =>
    (h.caseList options "list").bind fun exprs hexprs => (h.stmts body).bind fun body hbody =>
      .after fun pos =>
        .pure (Stmt.coherent (by simp [Node.ofStmt, hexprs, hbody]))

theorem observes_comm (form : Form) :
    Observes (readComm inner form) fun s => (Node.stmt s).Coherent :=
  .after₂ fun pos rest => .after₂ fun body options =>
    (h.stmtOption options "on").bind fun comm hcomm => (h.stmts body).bind fun body hbody =>
      .after fun pos =>
        .pure (Stmt.coherent (by simp [Node.ofStmt, hcomm, hbody]))

theorem observes_declStmt (form : Form) :
    Observes (readDeclStmt inner form) fun s => (Node.stmt s).Coherent :=
  .after₂ fun d _ => (observes_genDecl (h.deeper 1) d).bind fun decl hdecl =>
    .pure (Stmt.coherent (by simp [Node.ofStmt, hdecl]))

theorem observes_stmtForm (form : Form) :
    Observes (readStmtForm inner form) fun s => (Node.stmt s).Coherent := by
  unfold readStmtForm
  split
  · exact observes_blockStmt h form
  · exact observes_exprStmt h form
  · exact observes_start h form "go" fun _ _ => rfl
  · exact observes_start h form "defer" fun _ _ => rfl
  · exact observes_return h form
  · exact observes_assign h form
  · exact observes_empty form
  · exact observes_labeled h form
  · exact observes_send h form
  · exact observes_incDec h form
  · exact observes_branch form
  · exact observes_if h form
  · exact observes_for h form
  · exact observes_range h form
  · exact observes_switch h form
  · exact observes_typeSwitch h form
  · exact observes_select h form
  · exact observes_case h form
  · exact observes_comm h form
  · exact observes_declStmt h form
  · exact .throw

end

theorem observing_readersWithin (depth steps : Nat) : (readersWithin depth steps).Observing := by
  induction depth generalizing steps with
  | zero => exact ⟨fun _ _ => .throw, fun _ _ => .throw, fun _ _ => .throw⟩
  | succ depth ih =>
    refine ⟨fun cost d => ?_, fun cost d => ?_, observing_typesWithin steps⟩
    · exact .within (observes_expr (ih (steps - cost)) d) (steps - cost)
    · exact .within (.after fun form => observes_stmtForm (ih (steps - cost)) form) (steps - cost)

theorem observing_topReaders : topReaders.Observing :=
  (observing_readersWithin stepLimit stepLimit).deeper 5

theorem observes_decl (d : Datum) :
    Observes (readDecl d) fun decl => (Node.decl decl).Coherent := by
  refine .after fun form => ?_
  split
  · refine Observes.bind (P := fun decl => (Node.funcDecl decl).Coherent) ?_ fun decl hdecl =>
      .pure hdecl
    refine .after₃ fun name pos rest => .after fun options => .after fun recv =>
      .after fun body => .after fun name => .after fun pos =>
        (Observes.optionMapM observing_topReaders.block body).bind fun body hbody =>
          (Observes.optionMapM observing_topReaders.type recv).bind fun recv _ =>
            .pure (Node.coherent_of_children trivial ?_)
    rw [Node.children, Node.allCoherent_cons]
    refine ⟨Node.coherent_ident _, fun n hn => ?_⟩
    obtain ⟨b, hb, rfl⟩ := List.mem_map.mp hn
    exact hbody b (Option.mem_toList.mp hb)
  · exact (observes_genDecl observing_topReaders d).bind fun decl hdecl => .pure hdecl
  · exact .throw

/-! ## Readers of files and programs -/

/-- A step of a reader of programs that takes a form apart and nothing else. -/
theorem Observes.afterForm {α β : Type} {x : Shape α} {f : α → ProgramReader β} {Q : β → Prop}
    (hf : ∀ a, Observes (f a) Q) :
    Observes (Reader.lift (MonadLiftT.monadLift x : Reader α) >>= f) Q :=
  (Observes.lift .liftM).bind fun a _ => hf a

/-- A source goes by the name that it was read for. -/
theorem observes_source (root : SourceRoot) (name : String) (options : Options) :
    Observes (readSource root name options) (·.name = name) := by
  unfold readSource
  split
  · exact (Observes.lift (.mapM (fun _ => .liftM) _)).bind fun lines _ => .pure rfl
  · refine .afterForm fun d => ?_
    split
    · exact .throw
    · refine .afterForm fun path => ?_
      dsimp only
      split
      · exact .pure rfl
      · exact .throw

theorem observes_file (root : SourceRoot) (packageName : String) (d : Datum) :
    Observes (readFile root packageName d) fun file => (Node.file file.tree).Coherent := by
  refine .afterForm fun form => .afterForm ?_
  rintro ⟨name, rest⟩
  refine .afterForm fun name => .afterForm ?_
  rintro ⟨decls, options⟩
  refine (observes_source root name options).bind fun source _ =>
    (Observes.lift (.mapM observes_decl decls)).bind fun decls hdecls =>
      (Observes.lift (.mapM (fun _ => .liftM) _)).bind fun tags _ =>
        .pure (Node.coherent_of_children trivial ?_)
  intro n hn
  obtain ⟨decl, hdecl, rfl⟩ := List.mem_map.mp hn
  exact hdecls decl hdecl

theorem observes_package (root : SourceRoot) (d : Datum) :
    Observes (readPackage root d) fun _ => True := by
  refine .afterForm fun form => .afterForm ?_
  rintro ⟨path, name, rest⟩
  refine .afterForm fun path => .afterForm fun name => .afterForm ?_
  rintro ⟨files, options⟩
  exact (Observes.mapM (observes_file root name) files).bind fun _ _ =>
    (Observes.lift (.mapM (fun _ => .liftM) _)).bind fun _ _ => .pure trivial

/-- The files of a program that is read have coherent trees. -/
theorem coherent_files {root : SourceRoot} {d : Datum} {program : Program}
    (h : readProgram root d = .ok program) {file : ParsedFile}
    (hfile : file ∈ program.packages.flatMap (·.files)) : (Node.file file.tree).Coherent := by
  have hfiles := forall₂_files_of_readProgram
    (fun packageName form => (observes_file root packageName form).yields) h
  obtain ⟨form, -, hcoherent⟩ := exists_left_of_forall₂ hfiles hfile
  exact hcoherent

end UncheckedErrors
