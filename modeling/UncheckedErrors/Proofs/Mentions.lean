import Mathlib.Data.List.Induction
import UncheckedErrors.Proofs.Effort
import UncheckedErrors.Proofs.Names

/-!
# What readers mention

Readers look at the table of named types only to enter names in it. So a reader gives the same value
on every table, and enters the same names (`Mentions`); `Mentions.eq_ok_iff` reads both off its run
on the empty table. The names that occur in the value are among those it enters: of types, trees,
files and packages (`mentions_package`). The exception is the reader of a type definition, which is
not looked at here.

All this is shown form by form, for the readers of a form on the assumption that it holds of the
readers of what is nested inside (`InnerReaders.Mentioning`).
-/

namespace UncheckedErrors

/-! ## Mentions on the empty table -/

namespace TypeTable

/-- The table that knows no name. -/
def empty : TypeTable := ⟨.empty⟩

theorem mention_of_mem {table : TypeTable} {n : TypeName} (h : n ∈ table.names) :
    table.mention n = table :=
  if_pos ((OrderedMap.get?_isSome_iff _ _).mpr h)

theorem mentionAll_append (table : TypeTable) (ns ms : List TypeName) :
    table.mentionAll (ns ++ ms) = (table.mentionAll ns).mentionAll ms :=
  List.foldl_append

/-- It is enough to mention each name once, as it is first met. -/
theorem mentionAll_names (table : TypeTable) (ns : List TypeName) :
    table.mentionAll (empty.mentionAll ns).names = table.mentionAll ns := by
  induction ns using List.reverseRecOn with
  | nil => rfl
  | append_singleton ns n ih =>
    rw [mentionAll_append, mentionAll_append]
    show table.mentionAll ((empty.mentionAll ns).mention n).names =
      (table.mentionAll ns).mention n
    rw [names_mention]
    by_cases hn : n ∈ (empty.mentionAll ns).names
    · have hmem : n ∈ ns := by
        rcases (mem_names_mentionAll empty ns n).mp hn with hempty | hmem
        · cases hempty
        · exact hmem
      rw [if_pos hn, ih, mention_of_mem ((mem_names_mentionAll table ns n).mpr (.inr hmem))]
    · rw [if_neg hn, mentionAll_append, ih]
      rfl

end TypeTable

section

variable {ε α β γ δ ζ η : Type}

/-- Whatever the table, the reader gives the same and mentions the same names. With those that were
`seen` before, they cover the `names` of what it gives. -/
def Mentions (seen : Set TypeName) (r : StateT TypeTable (Except ε) α) (names : α → Set TypeName) :
    Prop :=
  ∃ outcome : Except ε (α × List TypeName),
    (∀ table, r table = outcome.map fun p => (p.1, table.mentionAll p.2)) ∧
      ∀ a new, outcome = .ok (a, new) → names a ⊆ seen ∪ {n | n ∈ new}

namespace Mentions

variable {seen : Set TypeName} {r : StateT TypeTable (Except ε) α} {names : α → Set TypeName}

/-- A reader gives on any table what it gives on the empty one, and enters the names there that it
enters here. -/
theorem eq_ok_iff (h : Mentions seen r names) {table table' : TypeTable} {a : α} :
    r table = .ok (a, table') ↔
      ∃ first, r .empty = .ok (a, first) ∧ table.mentionAll first.names = table' := by
  obtain ⟨outcome, hr, -⟩ := h
  rw [hr, hr]
  cases outcome with
  | error e => simp [Except.map]
  | ok p =>
    obtain ⟨b, new⟩ := p
    simp only [Except.map, Except.ok.injEq, Prod.mk.injEq]
    constructor
    · rintro ⟨rfl, rfl⟩
      exact ⟨_, ⟨rfl, rfl⟩, TypeTable.mentionAll_names table new⟩
    · rintro ⟨_, ⟨rfl, rfl⟩, rfl⟩
      exact ⟨rfl, (TypeTable.mentionAll_names table new).symm⟩

/-- The names that are entered in the empty table cover those of the value. -/
theorem subset_names (h : Mentions ∅ r names) {a : α} {first : TypeTable}
    (hfirst : r .empty = .ok (a, first)) : names a ⊆ {n | n ∈ first.names} := by
  obtain ⟨outcome, hr, hnames⟩ := h
  rw [hr] at hfirst
  cases outcome with
  | error e => cases hfirst
  | ok p =>
    cases hfirst
    refine (hnames _ _ rfl).trans fun n hn => ?_
    rcases hn with hempty | hnew
    · cases hempty
    · exact (TypeTable.mem_names_mentionAll _ _ _).mpr (.inr hnew)

theorem pure {a : α} (h : names a ⊆ seen) :
    Mentions seen (pure a : StateT TypeTable (Except ε) α) names := by
  refine ⟨.ok (a, []), fun table => rfl, ?_⟩
  rintro _ _ ⟨⟩
  exact h.trans Set.subset_union_left

/-- What would come after a mistake does not matter. -/
theorem throwBind {e : ε} {f : α → StateT TypeTable (Except ε) β} {total : β → Set TypeName} :
    Mentions seen ((throw e : StateT TypeTable (Except ε) α) >>= f) total :=
  ⟨.error e, fun _ => rfl, fun _ _ h => nomatch h⟩

theorem throw {e : ε} : Mentions seen (throw e : StateT TypeTable (Except ε) α) names :=
  ⟨.error e, fun _ => rfl, fun _ _ h => nomatch h⟩

theorem liftM {x : Except ε α} (h : ∀ a, x = .ok a → names a ⊆ seen) :
    Mentions seen (liftM x : StateT TypeTable (Except ε) α) names := by
  cases x with
  | error e => exact throw
  | ok a => exact pure (h a rfl)

/-- A step that takes a form apart mentions nothing. -/
theorem form {x : Except ε α} :
    Mentions seen (MonadLiftT.monadLift x : StateT TypeTable (Except ε) α) fun _ => ∅ :=
  liftM fun _ _ => Set.empty_subset _

/-- More may have been seen before. -/
theorem weaken (h : Mentions seen r names) {seen' : Set TypeName} (hseen : seen ⊆ seen') :
    Mentions seen' r names := by
  obtain ⟨outcome, hr, hnames⟩ := h
  refine ⟨outcome, hr, fun a new ha => (hnames a new ha).trans ?_⟩
  exact Set.union_subset_union_left _ hseen

theorem imp {total : α → Set TypeName} (h : Mentions seen r names)
    (htotal : ∀ a, total a ⊆ names a) : Mentions seen r total := by
  obtain ⟨outcome, hr, hnames⟩ := h
  exact ⟨outcome, hr, fun a new ha => (htotal a).trans (hnames a new ha)⟩

/-- What a step gives covers its names for the steps after it. -/
theorem andThen {f : α → StateT TypeTable (Except ε) β} {total : β → Set TypeName}
    (h : Mentions seen r names) (hf : ∀ a, Mentions (seen ∪ names a) (f a) total) :
    Mentions seen (r >>= f) total := by
  obtain ⟨outcome, hr, hnames⟩ := h
  cases outcome with
  | error e =>
    refine ⟨.error e, fun table => ?_, fun _ _ h => nomatch h⟩
    show (r table >>= fun p => f p.1 p.2) = _
    rw [hr]
    rfl
  | ok p =>
    obtain ⟨a, new⟩ := p
    obtain ⟨outcome, hfa, htotal⟩ := hf a
    refine ⟨outcome.map fun p => (p.1, new ++ p.2), fun table => ?_, fun b all hall => ?_⟩
    · show (r table >>= fun p => f p.1 p.2) = _
      rw [hr]
      show f a (table.mentionAll new) = _
      rw [hfa]
      cases outcome with
      | error e => rfl
      | ok p => simp only [Except.map, TypeTable.mentionAll, List.foldl_append]
    · cases outcome with
      | error e => cases hall
      | ok p =>
        obtain ⟨c, new'⟩ := p
        cases hall
        intro n hn
        rcases htotal c new' rfl hn with (hseen | ha) | hnew
        · exact .inl hseen
        · rcases hnames a new rfl ha with hseen | hnew
          · exact .inl hseen
          · exact .inr (List.mem_append_left _ hnew)
        · exact .inr (List.mem_append_right _ hnew)

theorem bind {f : α → StateT TypeTable (Except ε) β} {total : β → Set TypeName}
    (h : Mentions ∅ r names) (hf : ∀ a, Mentions (seen ∪ names a) (f a) total) :
    Mentions seen (r >>= f) total :=
  (h.weaken (Set.empty_subset seen)).andThen hf

/-- A step that takes a form apart and nothing else. -/
theorem after {x : Except ε α} {f : α → StateT TypeTable (Except ε) β} {total : β → Set TypeName}
    (hf : ∀ a, Mentions seen (f a) total) :
    Mentions seen ((MonadLiftT.monadLift x : StateT TypeTable (Except ε) α) >>= f) total :=
  form.bind fun a => (hf a).weaken Set.subset_union_left

/-- Such a step that gives two parts of the form. The next ones are for three and more. -/
theorem after₂ {x : Except ε (α × β)} {f : α × β → StateT TypeTable (Except ε) δ}
    {total : δ → Set TypeName} (hf : ∀ a b, Mentions seen (f (a, b)) total) :
    Mentions seen ((MonadLiftT.monadLift x : StateT TypeTable (Except ε) (α × β)) >>= f) total :=
  .after fun p => hf p.1 p.2

theorem after₃ {x : Except ε (α × β × γ)} {f : α × β × γ → StateT TypeTable (Except ε) δ}
    {total : δ → Set TypeName} (hf : ∀ a b c, Mentions seen (f (a, b, c)) total) :
    Mentions seen ((MonadLiftT.monadLift x : StateT TypeTable (Except ε) (α × β × γ)) >>= f)
      total :=
  .after₂ fun a p => hf a p.1 p.2

theorem after₄ {x : Except ε (α × β × γ × ζ)}
    {f : α × β × γ × ζ → StateT TypeTable (Except ε) δ} {total : δ → Set TypeName}
    (hf : ∀ a b c d, Mentions seen (f (a, b, c, d)) total) :
    Mentions seen ((MonadLiftT.monadLift x : StateT TypeTable (Except ε) (α × β × γ × ζ)) >>= f)
      total :=
  .after₃ fun a b p => hf a b p.1 p.2

theorem after₅ {x : Except ε (α × β × γ × ζ × η)}
    {f : α × β × γ × ζ × η → StateT TypeTable (Except ε) δ} {total : δ → Set TypeName}
    (hf : ∀ a b c d e, Mentions seen (f (a, b, c, d, e)) total) :
    Mentions seen
      ((MonadLiftT.monadLift x : StateT TypeTable (Except ε) (α × β × γ × ζ × η)) >>= f) total :=
  .after₄ fun a b c p => hf a b c p.1 p.2

theorem mapM {f : α → StateT TypeTable (Except ε) β} {names : β → Set TypeName}
    (h : ∀ a, Mentions ∅ (f a) names) (as : List α) : Mentions ∅ (as.mapM f) (namesIn names) := by
  induction as with
  | nil => exact .pure (by simp)
  | cons a as ih =>
    rw [List.mapM_cons]
    exact (h a).bind fun b => ih.bind fun bs => .pure (by simp)

theorem optionMapM {f : α → StateT TypeTable (Except ε) β} {names : β → Set TypeName}
    (h : ∀ a, Mentions seen (f a) names) (a : Option α) :
    Mentions seen (a.mapM f) fun b => namesIn names b.toList := by
  cases a with
  | none => exact .pure (by simp)
  | some a =>
    rw [Option.mapM_some, map_eq_pure_bind]
    exact (h a).andThen fun b => .pure (by simp)

theorem foldlM {f : α → β → StateT TypeTable (Except ε) α}
    (h : ∀ a b, Mentions (names a) (f a b) names) (a : α) (bs : List β) :
    Mentions (names a) (bs.foldlM f a) names := by
  induction bs generalizing a with
  | nil => exact .pure Set.Subset.rfl
  | cons b bs ih =>
    rw [List.foldlM_cons]
    exact (h a b).andThen fun a' => (ih a').weaken Set.subset_union_right

theorem forIn {f : α → β → StateT TypeTable (Except ε) (ForInStep β)}
    (h : ∀ a b, Mentions ∅ (f a b) fun _ => ∅) (as : List α) (b : β) :
    Mentions ∅ (ForIn.forIn as b f) fun _ => ∅ := by
  induction as generalizing b with
  | nil => exact .pure Set.Subset.rfl
  | cons a as ih =>
    rw [List.forIn_cons]
    refine (h a b).bind fun step => ?_
    cases step with
    | done b => exact .pure (Set.empty_subset _)
    | yield b => exact (ih b).weaken (Set.empty_subset _)

end Mentions

end

theorem Mentions.within {α : Type} {seen : Set TypeName} {r : Reader α} {names : α → Set TypeName}
    (h : Mentions seen r names) (steps : Nat) : Mentions seen (r.within steps) names := by
  obtain ⟨outcome, hr, hnames⟩ := h
  by_cases hsteps : steps < leafSteps
  · exact ⟨.error .tooDeep, fun table => if_pos hsteps, fun _ _ h => nomatch h⟩
  · refine ⟨outcome.mapError (·.within steps), fun table => ?_, fun a new ha => ?_⟩
    · rw [Reader.within, if_neg hsteps, hr]
      cases outcome with
      | ok p => rfl
      | error e => rfl
    · cases outcome with
      | ok p => exact hnames a new ha
      | error e => cases ha

theorem Mentions.lift {α : Type} {seen : Set TypeName} {r : Reader α} {names : α → Set TypeName}
    (h : Mentions seen r names) : Mentions seen (Reader.lift r) names := by
  obtain ⟨outcome, hr, hnames⟩ := h
  cases outcome with
  | ok p =>
    refine ⟨.ok p, fun table => ?_, fun a new ha => hnames a new (by cases ha; rfl)⟩
    rw [Reader.lift, hr]
    rfl
  | error e =>
    refine ⟨.error (.shape (e.within stepLimit)), fun table => ?_, fun _ _ h => nomatch h⟩
    rw [Reader.lift, hr]
    rfl

/-! ## Readers of types and objects -/

/-- The readers of types mention the names of what they give. -/
def TypeReader.Mentioning (type : TypeReader) : Prop :=
  ∀ cost d, Mentions ∅ (type cost d) GoType.names

theorem mentions_typeName (pkg name : Datum) :
    Mentions ∅ (readTypeName pkg name) fun n => {n} := by
  refine .after fun pkg => .after fun name =>
    ⟨.ok (⟨pkg, name⟩, [⟨pkg, name⟩]), fun table => rfl, ?_⟩
  rintro _ _ ⟨⟩
  simp

/-- The names in a member of an interface. -/
def InterfaceMember.names : InterfaceMember → Set TypeName
  | .method m => m.type.names
  | .embed t => t.names

/-- The members of an interface are its methods and what it embeds. -/
theorem names_interface_members (members : List InterfaceMember) :
    (GoType.interface (members.filterMap (·.method?)) (members.filterMap (·.embed?))).names =
      namesIn InterfaceMember.names members := by
  induction members with
  | nil => simp
  | cons member members ih =>
    rw [GoType.names_interface] at ih
    cases member with
    | method m =>
      simp [InterfaceMember.method?, InterfaceMember.embed?, InterfaceMember.names, ← ih,
        Set.union_assoc]
    | embed t =>
      simp [InterfaceMember.method?, InterfaceMember.embed?, InterfaceMember.names, ← ih,
        Set.union_left_comm]

section

variable {type : TypeReader} (htype : type.Mentioning)

include htype

theorem mentions_field (d : Datum) : Mentions ∅ (readField type d) (·.type.names) := by
  refine .after fun form => ?_
  split
  · exact .after₃ fun name t _ => .after fun name => (htype 2 t).bind fun t =>
      .pure (by simp [Field.type])
  · exact .throwBind

theorem mentions_interfaceMember (d : Datum) :
    Mentions ∅ (readInterfaceMember type d) InterfaceMember.names := by
  refine .after fun form => ?_
  split
  · exact .after₃ fun name t _ => .after fun name => (htype 2 t).bind fun t =>
      .pure (by simp [InterfaceMember.names, Method.type])
  · exact .after₂ fun t _ => (htype 2 t).bind fun t => .pure (by simp [InterfaceMember.names])
  · exact .throw

theorem mentions_typeForm (form : Form) : Mentions ∅ (readTypeForm type form) GoType.names := by
  unfold readTypeForm
  split
  · exact .after₂ fun name _ => .after fun name => .pure (by simp)
  · exact .after₃ fun pkg name _ => (mentions_typeName pkg name).bind fun n => .pure (by simp)
  · exact .after₂ fun t _ => (htype 2 t).bind fun t => .pure (by simp)
  · exact .after₂ fun t _ => (htype 2 t).bind fun t => .pure (by simp)
  · exact .after₃ fun length t _ => (htype 2 t).bind fun t => .after fun length =>
      .pure (by simp)
  · exact .after₃ fun key value _ => (htype 2 key).bind fun key =>
      (htype 2 value).bind fun value => .pure (by simp)
  · exact .after₂ fun t _ => (htype 2 t).bind fun t => .pure (by simp)
  · exact (Mentions.mapM (htype 3) form.args).bind fun ts => .pure (by simp)
  · exact .pure (by simp)
  · exact (Mentions.mapM (mentions_field htype) form.args).bind fun fields => .pure (by simp)
  · refine (Mentions.mapM (mentions_interfaceMember htype) form.args).bind fun ms => .pure ?_
    rw [names_interface_members, Set.empty_union]
  · exact .after fun options => (Mentions.mapM (htype 3) _).bind fun params =>
      (Mentions.mapM (htype 3) _).bind fun results => .pure (by simp)
  · exact .throw

theorem mentions_object (d : Datum) :
    Mentions ∅ (readObject type d) fun o => namesIn GoType.names o.types := by
  refine .after fun form => ?_
  unfold readObjectForm
  split
  · exact .after₃ fun pkg name rest => (Mentions.optionMapM (htype 4) _).bind fun recv =>
      .after fun name => .after fun pkg => .pure (by simp [Object.types])
  · exact .after₂ fun name _ => .after fun name => .pure (by simp [Object.types])
  · exact .after₃ fun pkg name rest => (Mentions.optionMapM (htype 4) _).bind fun type =>
      .after fun name => .after fun pkg => .pure (by simp [Object.types])
  · exact .after₃ fun pkg name _ => .after fun name => .after fun pkg =>
      .pure (by simp [Object.types])
  · exact .after₃ fun pkg name _ => .after fun name => .after fun pkg =>
      .pure (by simp [Object.types])
  · exact .after₂ fun path _ => .after fun path => .pure (by simp [Object.types])
  · exact .pure (by simp [Object.types])
  · exact .throw

end

theorem mentions_typeWithin (depth steps : Nat) (d : Datum) :
    Mentions ∅ (readTypeWithin depth steps d) GoType.names := by
  induction depth generalizing steps d with
  | zero => exact .throw
  | succ depth ih =>
    rw [readTypeWithin]
    refine .within (.after fun form => mentions_typeForm ?_ form) steps
    exact fun cost => ih (steps - cost)

theorem mentioning_typesWithin (steps : Nat) : (typesWithin steps).Mentioning :=
  fun cost => mentions_typeWithin steps (steps - cost)

/-- A set covers the names of a statement if it covers those of what the statement is made of. -/
theorem Stmt.names_subset {s : Stmt} {names : Set TypeName}
    (h : namesIn Node.names (Node.ofStmt s) ⊆ names) : (Node.stmt s).names ⊆ names :=
  Node.names_subset (by simpa [Node.children] using h)

/-! ## Readers of trees -/

/-- The readers mention the names of what they give. -/
structure InnerReaders.Mentioning (inner : InnerReaders) : Prop where
  exprAt (cost : Nat) (d : Datum) : Mentions ∅ (inner.exprAt cost d) fun x => (Node.expr x).names
  stmtAt (cost : Nat) (d : Datum) : Mentions ∅ (inner.stmtAt cost d) fun s => (Node.stmt s).names
  typeAt : inner.typeAt.Mentioning

namespace InnerReaders.Mentioning

variable {inner : InnerReaders} (h : inner.Mentioning)

include h

theorem deeper (n : Nat) : (inner.deeper n).Mentioning where
  exprAt cost := h.exprAt (cost + n)
  stmtAt cost := h.stmtAt (cost + n)
  typeAt cost := h.typeAt (cost + n)

theorem expr (d : Datum) : Mentions ∅ (inner.expr d) fun x => (Node.expr x).names := h.exprAt 2 d

theorem stmt (d : Datum) : Mentions ∅ (inner.stmt d) fun s => (Node.stmt s).names := h.stmtAt 2 d

theorem type (d : Datum) : Mentions ∅ (inner.type d) GoType.names := h.typeAt 2 d

theorem object (d : Datum) :
    Mentions ∅ (inner.object d) fun o => namesIn GoType.names o.types :=
  mentions_object h.typeAt d

theorem exprs (ds : List Datum) :
    Mentions ∅ (inner.exprs ds) fun xs => namesIn Node.names (Node.exprs xs) :=
  (Mentions.mapM (h.deeper 2).expr ds).imp fun xs => by simp [Node.exprs]

theorem stmts (ds : List Datum) :
    Mentions ∅ (inner.stmts ds) fun ss => namesIn Node.names (Node.stmts ss) :=
  (Mentions.mapM (h.deeper 2).stmt ds).imp fun ss => by simp [Node.stmts]

theorem exprOption (options : Options) (key : String) :
    Mentions ∅ (inner.exprOption options key) fun x => namesIn Node.names (Node.optExpr x) :=
  .after fun d => (Mentions.optionMapM (h.deeper 1).expr d).imp fun x => by
    simp [Node.optExpr, Node.exprs]

theorem stmtOption (options : Options) (key : String) :
    Mentions ∅ (inner.stmtOption options key) fun s => namesIn Node.names (Node.optStmt s) :=
  .after fun d => (Mentions.optionMapM (h.deeper 1).stmt d).imp fun s => by
    simp [Node.optStmt, Node.stmts]

theorem typeOption (options : Options) (key : String) :
    Mentions ∅ (inner.typeOption options key) fun t => namesIn GoType.names t.toList :=
  .after fun d => .optionMapM (h.typeAt 3) d

/-- The expressions of a case, if it has any. -/
theorem caseList (options : Options) (key : String) :
    Mentions ∅ ((options.get? key).mapM inner.exprs) fun xs =>
      namesIn Node.names (Node.exprs (xs.getD [])) := by
  refine (Mentions.optionMapM h.exprs _).imp fun xs => ?_
  cases xs with
  | none => simp [Node.exprs]
  | some xs => simp

theorem block (d : Datum) : Mentions ∅ (inner.block d) fun b => (Node.block b).names :=
  .after fun _ => .after₂ fun _ rest => ((h.deeper 1).stmts rest).bind fun ss =>
    .after fun _ => .pure (Node.names_subset (by simp [Node.block, Node.children, Node.ofStmt]))

theorem body (options : Options) (tag : String) :
    Mentions ∅ (inner.body options tag) fun b => (Node.block b).names :=
  .after fun d => h.block d

theorem call (tag : String) (d : Datum) :
    Mentions ∅ (inner.call tag d) fun c => (Node.call c).names := by
  refine ((h.deeper 1).expr d).bind fun x => ?_
  split
  · exact .pure (by simp [Node.call])
  · exact .throw

end InnerReaders.Mentioning

/-- A label has no types. -/
theorem mentions_label (name pos : Datum) :
    Mentions ∅ (liftM (readLabel name pos) : Reader Ident) fun id => (Node.ident id).names := by
  refine .liftM fun id hid => ?_
  simp only [readLabel, exceptBind_eq_ok, exceptPure_eq_ok] at hid
  obtain ⟨_, -, _, -, rfl⟩ := hid
  simp [Ident.types]

/-! ## Readers of expressions -/

section

variable {inner : InnerReaders} (h : inner.Mentioning)

include h

theorem mentions_ident (form : Form) :
    Mentions ∅ (readIdent inner form) fun id => (Node.ident id).names :=
  .after₃ fun name pos rest => .after fun options => .after fun obj => .after fun name =>
    .after fun pos => (Mentions.optionMapM h.object obj).bind fun obj =>
      (h.typeOption options "type").bind fun type => .pure (by simp [Ident.types])

theorem mentions_leaf (form : Form) :
    Mentions ∅ (readLeaf inner form) fun x => (Node.expr x).names := by
  unfold readLeaf
  split
  · exact (mentions_ident h form).bind fun id => .pure (by simp [Node.ident])
  · exact .after₄ fun kind value pos rest => .after fun options => .after fun kind =>
      .after fun value => .after fun pos => (h.typeOption options "type").bind fun type =>
        .pure (Node.names_subset (by simp [Node.children, Node.ofExpr]))
  · exact .after₂ fun lbrace rest => .after fun options => (h.exprs _).bind fun elts =>
      .after fun lbrace => (h.typeOption options "type").bind fun type =>
        .pure (Node.names_subset (by simp [Node.children, Node.ofExpr]))
  · exact .after₃ fun pos body rest => .after fun options =>
      (h.block body).bind fun body => .after fun pos =>
        (h.typeOption options "type").bind fun type =>
          .pure (Node.names_subset (by simp [Node.children, Node.ofExpr]))
  · exact .after₃ fun lparen x rest => .after fun options => (h.expr x).bind fun x =>
      .after fun lparen => (h.typeOption options "type").bind fun type =>
        .pure (Node.names_subset (by simp [Node.children, Node.ofExpr]))
  · exact .after₃ fun pos x rest => .after fun options => (h.expr x).bind fun x =>
      .after fun pos => (h.typeOption options "type").bind fun type =>
        .pure (Node.names_subset (by simp [Node.children, Node.ofExpr]))
  · exact .after₄ fun op pos x rest => .after fun options => .after fun op =>
      (h.expr x).bind fun x => .after fun pos => (h.typeOption options "type").bind fun type =>
        .pure (Node.names_subset (by simp [Node.children, Node.ofExpr]))
  · exact .after₃ fun key value _ => (h.expr key).bind fun key =>
      (h.expr value).bind fun value =>
        .pure (Node.names_subset (by simp [Node.children, Node.ofExpr]))
  · exact .after₃ fun pos t _ => (h.type t).bind fun t => .after fun pos =>
      .pure (Node.names_subset (by simp [Node.children, Node.ofExpr]))
  · exact .throw

theorem mentions_selectedObject (sel : Ident) (kind : SelectionKind) (recv : Datum)
    (index : List Int) :
    Mentions (Node.ident sel).names (match sel.obj with
      | none => throw (ShapeError.selectionWithoutObject sel.name)
      | some obj => do return ⟨kind, ← inner.type recv, obj, index⟩ : Reader Selection)
      fun selection => namesIn GoType.names selection.types := by
  split
  · exact .throw
  · rename_i obj hobj
    refine (h.type recv).bind fun recv => .pure ?_
    simp [Selection.types, Ident.types, hobj]
    grind

/-- The object of a selection is that of the identifier that the selector ends in. -/
theorem mentions_selection (sel : Ident) (items : List Datum) :
    Mentions (Node.ident sel).names (readSelection inner sel items)
      fun selection => namesIn GoType.names selection.types := by
  unfold readSelection
  split
  · rename_i kind recv rest
    refine .after fun kind => ?_
    cases rest with
    | nil => exact mentions_selectedObject h sel kind recv []
    | cons d rest =>
      refine .after fun form => ?_
      refine (Mentions.mapM (fun _ => .form) form.args).bind fun index => ?_
      exact (mentions_selectedObject h sel kind recv index).weaken Set.subset_union_left
  · exact .throw

theorem mentions_chain (form : Form) (x : Expr) :
    Mentions (Node.expr x).names (readChain inner form x) fun y => (Node.expr y).names := by
  unfold readChain
  split
  · refine .after₃ fun _ sel rest => (h.expr sel).bind fun y => ?_
    split
    · rename_i sel
      exact .after fun options =>
        ((Mentions.optionMapM (mentions_selection h sel) _).weaken Set.subset_union_right).andThen
          fun selection => (h.typeOption options "type").bind fun type =>
            .pure (Node.names_subset (by simp [Node.children, Node.ofExpr]; grind [Node.ident]))
    · exact .throw
  · exact .after₄ fun _ lbrack first rest => .after₂ fun indices options =>
      (h.exprs indices).bind fun indices => .after fun lbrack =>
        (h.typeOption options "type").bind fun type =>
          .pure (Node.names_subset (by simp [Node.children, Node.ofExpr]))
  · exact .after₃ fun _ lbrack rest => .after fun options => .after fun lbrack =>
      (h.exprOption options "low").bind fun low =>
        (h.exprOption options "high").bind fun high =>
          (h.exprOption options "max").bind fun max =>
            (h.typeOption options "type").bind fun type =>
              .pure (Node.names_subset (by simp [Node.children, Node.ofExpr]; grind))
  · exact .after₃ fun _ lparen rest => .after fun options => .after fun asserted =>
      .after fun lparen => (Mentions.optionMapM h.type asserted).bind fun asserted =>
        (h.typeOption options "type").bind fun type =>
          .pure (Node.names_subset (by simp [Node.children, Node.ofExpr]; grind))
  · exact .after₄ fun _ lparen rparen rest => .after₂ fun args options =>
      .after fun ellipsis => (h.exprs args).bind fun args => .after fun lparen =>
        .after fun rparen => (h.typeOption options "type").bind fun type =>
          (Mentions.optionMapM (fun _ => .form) ellipsis).bind fun ellipsis =>
            .pure (Node.names_subset (by simp [Node.children, Node.ofExpr, Call.type]; grind))
  · exact .after₅ fun op opPos _ y rest => .after fun options => .after fun op =>
      .after fun opPos => (h.expr y).bind fun y =>
        (h.typeOption options "type").bind fun type =>
          .pure (Node.names_subset (by simp [Node.children, Node.ofExpr]))
  · exact .throw

theorem mentions_expr (d : Datum) :
    Mentions ∅ (readExprWith inner d) fun x => (Node.expr x).names := by
  refine .after₂ fun outer leaf => (mentions_leaf h leaf).bind fun x => ?_
  rw [Set.empty_union]
  -- from the innermost operand outwards, each form covers the operand
  exact .foldlM (fun x form => mentions_chain h form x) x outer.reverse

/-! ## Readers of declarations and statements -/

theorem mentions_valueSpec (d : Datum) :
    Mentions ∅ (readValueSpec inner d) fun spec => (Node.valueSpec spec).names := by
  refine .after fun form => .after fun options => (h.exprs _).bind fun names => ?_
  split
  · rename_i hnames
    rw [eq_map_of_identsOf? hnames]
    exact (h.exprs _).bind fun values => (h.typeOption options "type").bind fun type =>
      .pure (Node.names_subset
        (by simp [Node.children, Node.exprs, Node.ident, ValueSpec.type]; grind))
  · exact .throw

theorem mentions_genDecl (d : Datum) :
    Mentions ∅ (readGenDecl inner d) fun decl => (Node.genDecl decl).names :=
  .after fun form => .after₃ fun tok pos specs => .after fun tok =>
    (Mentions.mapM (mentions_valueSpec (h.deeper 2)) specs).bind fun specs =>
      .after fun pos => .pure (Node.names_subset (by simp [Node.children]))

theorem mentions_funcDecl (form : Form) :
    Mentions ∅ (readFuncDecl inner form) fun decl => (Node.funcDecl decl).names :=
  .after₃ fun name pos rest => .after fun options => .after fun recv => .after fun body =>
    .after fun name => .after fun pos => (Mentions.optionMapM h.block body).bind fun body =>
      (Mentions.optionMapM h.type recv).bind fun recv =>
        .pure (Node.names_subset (by simp [Node.children, Ident.types]))

/-! ### Statements, one form each -/

theorem mentions_blockStmt (form : Form) :
    Mentions ∅ (readBlockStmt inner form) fun s => (Node.stmt s).names :=
  (h.block _).bind fun b => .pure (by simp [Node.block])

theorem mentions_exprStmt (form : Form) :
    Mentions ∅ (readExprStmt inner form) fun s => (Node.stmt s).names :=
  .after₂ fun x _ => (h.expr x).bind fun x =>
    .pure (Stmt.names_subset (by simp [Node.ofStmt]))

theorem mentions_start (form : Form) (tag : String) {make : Call → Int → Stmt}
    (hmake : ∀ c pos, Node.ofStmt (make c pos) = [.call c]) :
    Mentions ∅ (readStart inner form tag make) fun s => (Node.stmt s).names :=
  .after₃ fun pos c _ => (h.call tag c).bind fun c => .after fun pos =>
    .pure (Stmt.names_subset (by simp [hmake]))

theorem mentions_return (form : Form) :
    Mentions ∅ (readReturn inner form) fun s => (Node.stmt s).names :=
  .after₂ fun pos results => (h.exprs results).bind fun results =>
    .after fun pos => .pure (Stmt.names_subset (by simp [Node.ofStmt]))

theorem mentions_assign (form : Form) :
    Mentions ∅ (readAssign inner form) fun s => (Node.stmt s).names :=
  .after₅ fun tok tokPos lhs rhs _ => .after fun lhs => .after fun rhs =>
    (h.exprs lhs.args).bind fun lhs => .after fun tok => .after fun tokPos =>
      (h.exprs rhs.args).bind fun rhs =>
        .pure (Stmt.names_subset (by simp [Node.ofStmt]))

omit h in
theorem mentions_empty (form : Form) :
    Mentions ∅ (readEmpty form) fun s => (Node.stmt s).names :=
  .after₂ fun pos _ => .after fun pos =>
    .pure (Stmt.names_subset (by simp [Node.ofStmt]))

theorem mentions_labeled (form : Form) :
    Mentions ∅ (readLabeled inner form) fun s => (Node.stmt s).names :=
  .after₄ fun name pos s _ => (mentions_label name pos).bind fun label =>
    (h.stmt s).bind fun s => .pure (Stmt.names_subset (by simp [Node.ofStmt]))

theorem mentions_send (form : Form) :
    Mentions ∅ (readSend inner form) fun s => (Node.stmt s).names :=
  .after₄ fun arrow chan value _ => (h.expr chan).bind fun chan =>
    (h.expr value).bind fun value => .after fun arrow =>
      .pure (Stmt.names_subset (by simp [Node.ofStmt]))

theorem mentions_incDec (form : Form) :
    Mentions ∅ (readIncDec inner form) fun s => (Node.stmt s).names :=
  .after₄ fun tok tokPos x _ => (h.expr x).bind fun x => .after fun tok =>
    .after fun tokPos => .pure (Stmt.names_subset (by simp [Node.ofStmt]))

omit h in
theorem mentions_branch (form : Form) :
    Mentions ∅ (readBranch form) fun s => (Node.stmt s).names :=
  .after₃ fun tok pos rest =>
    (Mentions.optionMapM (fun name => mentions_label name pos) rest.head?).bind fun label =>
      .after fun tok => .after fun pos =>
        .pure (Stmt.names_subset (by simp [Node.ofStmt]))

theorem mentions_if (form : Form) :
    Mentions ∅ (readIf inner form) fun s => (Node.stmt s).names :=
  .after₂ fun pos rest => .after fun options => .after fun cond =>
    (h.expr cond).bind fun cond => (h.body options "if").bind fun body =>
      .after fun pos => (h.stmtOption options "init").bind fun init =>
        (h.stmtOption options "else").bind fun orElse =>
          .pure (Stmt.names_subset (by simp [Node.ofStmt]; grind))

theorem mentions_for (form : Form) :
    Mentions ∅ (readFor inner form) fun s => (Node.stmt s).names :=
  .after₂ fun pos rest => .after fun options =>
    (h.body options "for").bind fun body => .after fun pos =>
      (h.stmtOption options "init").bind fun init =>
        (h.exprOption options "cond").bind fun cond =>
          (h.stmtOption options "post").bind fun post =>
            .pure (Stmt.names_subset (by simp [Node.ofStmt]; grind))

theorem mentions_range (form : Form) :
    Mentions ∅ (readRange inner form) fun s => (Node.stmt s).names :=
  .after₃ fun pos tok rest => .after fun options => .after fun x =>
    (h.expr x).bind fun x => (h.body options "range").bind fun body =>
      .after fun pos => (h.exprOption options "key").bind fun key =>
        (h.exprOption options "value").bind fun value => .after fun tok =>
          .pure (Stmt.names_subset (by simp [Node.ofStmt]; grind))

theorem mentions_switch (form : Form) :
    Mentions ∅ (readSwitch inner form) fun s => (Node.stmt s).names :=
  .after₂ fun pos rest => .after fun options =>
    (h.body options "switch").bind fun body => .after fun pos =>
      (h.stmtOption options "init").bind fun init =>
        (h.exprOption options "tag").bind fun tag =>
          .pure (Stmt.names_subset (by simp [Node.ofStmt]; grind))

theorem mentions_typeSwitch (form : Form) :
    Mentions ∅ (readTypeSwitch inner form) fun s => (Node.stmt s).names :=
  .after₂ fun pos rest => .after fun options => .after fun assign =>
    (h.stmt assign).bind fun assign =>
      (h.body options "type-switch").bind fun body => .after fun pos =>
        (h.stmtOption options "init").bind fun init =>
          .pure (Stmt.names_subset (by simp [Node.ofStmt]))

theorem mentions_select (form : Form) :
    Mentions ∅ (readSelect inner form) fun s => (Node.stmt s).names :=
  .after₂ fun pos rest => .after fun options =>
    (h.body options "select").bind fun body => .after fun pos =>
      .pure (Stmt.names_subset (by simp [Node.ofStmt]))

theorem mentions_case (form : Form) :
    Mentions ∅ (readCase inner form) fun s => (Node.stmt s).names :=
  .after₂ fun pos rest => .after₂ fun body options =>
    (h.caseList options "list").bind fun exprs => (h.stmts body).bind fun body =>
      .after fun pos => .pure (Stmt.names_subset (by simp [Node.ofStmt]))

theorem mentions_comm (form : Form) :
    Mentions ∅ (readComm inner form) fun s => (Node.stmt s).names :=
  .after₂ fun pos rest => .after₂ fun body options =>
    (h.stmtOption options "on").bind fun comm => (h.stmts body).bind fun body =>
      .after fun pos => .pure (Stmt.names_subset (by simp [Node.ofStmt]))

theorem mentions_declStmt (form : Form) :
    Mentions ∅ (readDeclStmt inner form) fun s => (Node.stmt s).names :=
  .after₂ fun d _ => (mentions_genDecl (h.deeper 1) d).bind fun decl =>
    .pure (Stmt.names_subset (by simp [Node.ofStmt]))

theorem mentions_stmtForm (form : Form) :
    Mentions ∅ (readStmtForm inner form) fun s => (Node.stmt s).names := by
  unfold readStmtForm
  split
  · exact mentions_blockStmt h form
  · exact mentions_exprStmt h form
  · exact mentions_start h form "go" fun _ _ => rfl
  · exact mentions_start h form "defer" fun _ _ => rfl
  · exact mentions_return h form
  · exact mentions_assign h form
  · exact mentions_empty form
  · exact mentions_labeled h form
  · exact mentions_send h form
  · exact mentions_incDec h form
  · exact mentions_branch form
  · exact mentions_if h form
  · exact mentions_for h form
  · exact mentions_range h form
  · exact mentions_switch h form
  · exact mentions_typeSwitch h form
  · exact mentions_select h form
  · exact mentions_case h form
  · exact mentions_comm h form
  · exact mentions_declStmt h form
  · exact .throw

end

theorem mentioning_readersWithin (depth steps : Nat) :
    (readersWithin depth steps).Mentioning := by
  induction depth generalizing steps with
  | zero => exact ⟨fun _ _ => .throw, fun _ _ => .throw, fun _ _ => .throw⟩
  | succ depth ih =>
    refine ⟨fun cost d => ?_, fun cost d => ?_, mentioning_typesWithin steps⟩
    · exact .within (mentions_expr (ih (steps - cost)) d) (steps - cost)
    · exact .within (.after fun form => mentions_stmtForm (ih (steps - cost)) form) (steps - cost)

theorem mentioning_topReaders : topReaders.Mentioning :=
  (mentioning_readersWithin stepLimit stepLimit).deeper 5

theorem mentions_decl (d : Datum) :
    Mentions ∅ (readDecl d) fun decl => (Node.decl decl).names := by
  refine .after fun form => ?_
  split
  · exact (mentions_funcDecl mentioning_topReaders form).bind fun decl =>
      .pure (by simp [Node.decl])
  · exact (mentions_genDecl mentioning_topReaders d).bind fun decl => .pure (by simp [Node.decl])
  · exact .throw

/-! ## Readers of files and packages -/

/-- A step of a reader of programs that takes a form apart and nothing else. -/
theorem Mentions.afterForm {α β : Type} {seen : Set TypeName} {x : Shape α}
    {f : α → ProgramReader β} {total : β → Set TypeName} (hf : ∀ a, Mentions seen (f a) total) :
    Mentions seen (Reader.lift (MonadLiftT.monadLift x : Reader α) >>= f) total :=
  (Mentions.lift .form).bind fun a => (hf a).weaken Set.subset_union_left

theorem mentions_texts (ds : List Datum) :
    Mentions ∅ (Reader.lift (ds.mapM fun d => (d.asString : Shape String))) fun _ => ∅ :=
  .lift ((Mentions.mapM (fun _ => .form) ds).imp fun _ => Set.empty_subset _)

theorem mentions_source (root : SourceRoot) (name : String) (options : Options) :
    Mentions ∅ (readSource root name options) fun _ => ∅ := by
  unfold readSource
  split
  · exact (mentions_texts _).bind fun lines => .pure (Set.empty_subset _)
  · refine .afterForm fun d => ?_
    split
    · exact .throw
    · refine .afterForm fun path => ?_
      dsimp only
      split
      · exact .pure (Set.empty_subset _)
      · exact .throw

/-- The names in a file. -/
def ParsedFile.names (file : ParsedFile) : Set TypeName := (Node.file file.tree).names

theorem mentions_file (root : SourceRoot) (packageName : String) (d : Datum) :
    Mentions ∅ (readFile root packageName d) ParsedFile.names := by
  refine .afterForm fun form => .afterForm ?_
  rintro ⟨name, rest⟩
  refine .afterForm fun name => .afterForm ?_
  rintro ⟨decls, options⟩
  exact (mentions_source root name options).bind fun source =>
    (Mentions.lift (.mapM mentions_decl decls)).bind fun decls =>
      (mentions_texts _).bind fun tags =>
        .pure (Node.names_subset (by simp [Node.children]))

theorem mentions_package (root : SourceRoot) (d : Datum) :
    Mentions ∅ (readPackage root d) fun p => namesIn ParsedFile.names p.files := by
  refine .afterForm fun form => .afterForm ?_
  rintro ⟨path, name, rest⟩
  refine .afterForm fun path => .afterForm fun name => .afterForm ?_
  rintro ⟨files, options⟩
  exact (Mentions.mapM (mentions_file root name) files).bind fun _ =>
    (mentions_texts _).bind fun _ => .pure (by simp)

end UncheckedErrors
