import UncheckedErrors.Proofs.CallCount
import UncheckedErrors.Proofs.SelectionChains
import UncheckedErrors.Proofs.SymbolRules
import UncheckedErrors.Proofs.TypeDefinitions

/-!
# Rules for promoted methods

A rule for a method of an interface, such as `(p.A).m`, is one for the methods of all interfaces
that `p.A` embeds. Which these are can be followed in the dump: a definition is a form of an
interface or a link to another name, and an interface embeds names and further forms
(`InterfaceForm.Embeds`). The types of a program that is read have the same interfaces with the same
methods (`declares_iff_supplies`).

So a call through `p.A` is excluded by the rule if a form is found on the way that declares the
method, and the call goes by the full name of its callee if there is none
(`excludes_promoted_calls`). Two things restrict what is found. A chain of links is followed for
`TypeTable.linkLimit` definitions. And the methods of a form inside another one, a literal, belong
to no package, so that an unexported method of a package is not found there
(`literal_method_not_excluded`).
-/

namespace UncheckedErrors

open Relation

/-! ## Interfaces in the dump -/

/-- A form of an interface in the text of a definition. -/
structure InterfaceForm where
  /-- The name that the definition is of. -/
  home : TypeName
  /-- Whether the form stands inside another one. -/
  isLiteral : Bool
  members : List Datum

/-- The form as a datum. -/
def InterfaceForm.datum (f : InterfaceForm) : Datum := .list (.symbol "interface" :: f.members)

/-- The interface that a name stands for, over `k` definitions: the last one is the form, those
before it are links. -/
inductive Stands (definitions : List (TypeName × Datum)) : Nat → TypeName → InterfaceForm → Prop
  | form {n : TypeName} {members : List Datum} :
    (n, .list (.symbol "interface" :: members)) ∈ definitions →
      Stands definitions 1 n ⟨n, false, members⟩
  | link {k : Nat} {n m : TypeName} {pkg name : Datum} {rest : List Datum} {f : InterfaceForm} :
    (n, .list (.symbol "named" :: pkg :: name :: rest)) ∈ definitions →
      Datum.typeName? pkg name = some m → Stands definitions k m f →
      Stands definitions (k + 1) n f

namespace InterfaceForm

/-- The form has a member `(method NAME ...)` with this name. -/
def Declares (f : InterfaceForm) (m : String) : Prop :=
  ∃ name rest, .list (.symbol "method" :: name :: rest) ∈ f.members ∧ name.asString = .ok m

/-- The package that the methods of the form belong to: that of the name which the form defines. A
literal defines none. -/
def package (f : InterfaceForm) : Option String := if f.isLiteral then none else f.home.pkg

/-- The first form embeds the second one: as a literal, or by a name that stands for it. -/
inductive Embeds (definitions : List (TypeName × Datum)) : InterfaceForm → InterfaceForm → Prop
  | literal {f : InterfaceForm} {members rest : List Datum} :
    .list (.symbol "embed" :: .list (.symbol "interface" :: members) :: rest) ∈ f.members →
      Embeds definitions f ⟨f.home, true, members⟩
  | named {f g : InterfaceForm} {pkg name : Datum} {rest rest' : List Datum} {n : TypeName}
      {k : Nat} :
    .list (.symbol "embed" :: .list (.symbol "named" :: pkg :: name :: rest) :: rest') ∈ f.members →
      Datum.typeName? pkg name = some n → Stands definitions k n g → k ≤ TypeTable.linkLimit →
      Embeds definitions f g

end InterfaceForm

/-- The form is found on a way over embeddings from what a name stands for. -/
def Supplies (definitions : List (TypeName × Datum)) (n : TypeName) (f : InterfaceForm) : Prop :=
  ∃ k start, Stands definitions k n start ∧ k ≤ TypeTable.linkLimit ∧
    ReflTransGen (InterfaceForm.Embeds definitions) start f

/-- The form of a type is this name, or the name is among what it embeds. -/
inductive Datum.Leads : Datum → TypeName → Prop
  | named {pkg name : Datum} {rest : List Datum} {n : TypeName} :
    typeName? pkg name = some n → Leads (.list (.symbol "named" :: pkg :: name :: rest)) n
  | embedded {e : Datum} {members rest : List Datum} {n : TypeName} :
    .list (.symbol "embed" :: e :: rest) ∈ members → Leads e n →
      Leads (.list (.symbol "interface" :: members)) n

/-- No name leads back to itself over links and embeddings. -/
def AcyclicDefinitions (definitions : List (TypeName × Datum)) : Prop :=
  ∀ n, ¬ TransGen (fun n m => ∃ body, (n, body) ∈ definitions ∧ body.Leads m) n n

namespace Datum

theorem leads_named {pkg name : Datum} {rest : List Datum} {n : TypeName} :
    (list (.symbol "named" :: pkg :: name :: rest)).Leads n ↔ typeName? pkg name = some n := by
  refine ⟨fun h => ?_, .named⟩
  generalize hd : list (.symbol "named" :: pkg :: name :: rest) = d at h
  cases h with
  | named hname =>
    cases hd
    exact hname
  | embedded => simp at hd

theorem leads_interface {members : List Datum} {n : TypeName} :
    (list (.symbol "interface" :: members)).Leads n ↔
      ∃ e rest, .list (.symbol "embed" :: e :: rest) ∈ members ∧ e.Leads n := by
  constructor
  · intro h
    generalize hd : list (.symbol "interface" :: members) = d at h
    cases h with
    | named => simp at hd
    | embedded hmem h =>
      cases hd
      exact ⟨_, _, hmem, h⟩
  · rintro ⟨e, rest, hmem, h⟩
    exact .embedded hmem h

end Datum

/-- Definitions that only lead to names of lower rank have no circles. -/
theorem acyclicDefinitions_of_rank {definitions : List (TypeName × Datum)} (rank : TypeName → Nat)
    (h : ∀ n body, (n, body) ∈ definitions → ∀ m, body.Leads m → rank m < rank n) :
    AcyclicDefinitions definitions :=
  TypeTable.not_transGen_of_rank rank fun n m ⟨body, hmem, hlead⟩ => h n body hmem m hlead

/-! ## Interfaces of the dump and of the table -/

/-- The type stands for the interface that the form can be read as. -/
def InterfaceForm.Matches (table : TypeTable) (f : InterfaceForm) (t : GoType) : Prop :=
  ∃ ms, List.Forall₂ Datum.MemberReadAs f.members ms ∧
    table.view t = (if f.isLiteral then none else some f.home,
      .interface (ms.filterMap (·.method?)) (ms.filterMap (·.embed?)))

section

variable {table : TypeTable} {definitions : List (TypeName × Datum)} {f : InterfaceForm}
  {t u : GoType}

/-- A form inside another one is matched by what it is read as. -/
theorem matches_literal {home : TypeName} {members : List Datum}
    (h : (Datum.list (.symbol "interface" :: members)).ReadAs t) :
    InterfaceForm.Matches table ⟨home, true, members⟩ t := by
  obtain ⟨ms, hms, rfl⟩ := h.eq_interface
  exact ⟨ms, hms, rfl⟩

namespace InterfaceForm.Matches

theorem embeds (h : f.Matches table t) {e : Datum} {rest : List Datum}
    (he : .list (.symbol "embed" :: e :: rest) ∈ f.members) :
    ∃ u, table.Embeds t u ∧ e.ReadAs u := by
  obtain ⟨ms, hms, hview⟩ := h
  obtain ⟨member, hmember, hread⟩ := exists_right_of_forall₂ hms he
  cases member with
  | method m =>
    obtain ⟨_, _, heq, -⟩ := hread
    simp at heq
  | embed u =>
    obtain ⟨_, _, heq, hu⟩ := hread
    cases heq
    exact ⟨u, ⟨_, _, _, hview, List.mem_filterMap.mpr ⟨_, hmember, rfl⟩⟩, hu⟩

theorem embed_form (h : f.Matches table t) (hstep : table.Embeds t u) :
    ∃ e rest, .list (.symbol "embed" :: e :: rest) ∈ f.members ∧ e.ReadAs u := by
  obtain ⟨ms, hms, hview⟩ := h
  obtain ⟨_, _, _, hview', hu⟩ := hstep
  rw [hview] at hview'
  cases hview'
  obtain ⟨member, hmember, heq⟩ := List.mem_filterMap.mp hu
  obtain ⟨form, hform, hread⟩ := exists_left_of_forall₂ hms hmember
  cases member with
  | method m => cases heq
  | embed u =>
    cases heq
    obtain ⟨e, rest, rfl, he⟩ := hread
    exact ⟨e, rest, hform, he⟩

/-- The interface under the type declares what the form declares. -/
theorem explicitlyDeclares_iff (h : f.Matches table t) {id : String} :
    table.explicitlyDeclares t id = true ↔
      ∃ m, f.Declares m ∧ Object.methodId f.package m = id := by
  obtain ⟨ms, hms, hview⟩ := h
  have hpkg : (if f.isLiteral then none else some f.home : Option TypeName).bind (·.pkg) =
      f.package := by
    unfold InterfaceForm.package
    split <;> rfl
  have hid (m : Method) (self : GoType) :
      (m.toObject (if f.isLiteral then none else some f.home) self).id =
        Object.methodId f.package m.name := by
    rw [← hpkg]
    rfl
  rw [TypeTable.explicitlyDeclares, TypeTable.explicitMethods_of_view hview]
  simp only [List.any_map, List.any_eq_true, Function.comp_apply, beq_iff_eq, hid,
    List.mem_filterMap]
  constructor
  · rintro ⟨m, ⟨member, hmember, heq⟩, rfl⟩
    obtain ⟨form, hform, hread⟩ := exists_left_of_forall₂ hms hmember
    cases member with
    | embed u => cases heq
    | method m =>
      cases heq
      obtain ⟨name, rest, rfl, hname⟩ := hread
      exact ⟨m.name, ⟨name, rest, hform, hname⟩, rfl⟩
  · rintro ⟨m, ⟨name, rest, hform, hname⟩, rfl⟩
    obtain ⟨member, hmember, hread⟩ := exists_right_of_forall₂ hms hform
    cases member with
    | embed u =>
      obtain ⟨_, _, heq, -⟩ := hread
      simp at heq
    | method method =>
      obtain ⟨_, _, heq, hmethod⟩ := hread
      cases heq
      rw [hname] at hmethod
      cases hmethod
      exact ⟨method, ⟨_, hmember, rfl⟩, rfl⟩

end InterfaceForm.Matches

variable (hold : table.Holds definitions)

include hold

/-- What a name stands for over `k` definitions is found within `k` links. -/
theorem resolve?_of_stands {k : Nat} {n : TypeName} (h : Stands definitions k n f) {limit : Nat}
    (hk : k ≤ limit) :
    f.isLiteral = false ∧ ∃ ms, List.Forall₂ Datum.MemberReadAs f.members ms ∧
      table.resolve? limit n =
        some (f.home, .interface (ms.filterMap (·.method?)) (ms.filterMap (·.embed?))) := by
  induction h generalizing limit with
  | form hmem =>
    obtain ⟨limit, rfl⟩ : ∃ l, limit = l + 1 := ⟨limit - 1, by omega⟩
    obtain ⟨t, hdef, hread⟩ := hold.defined hmem
    obtain ⟨ms, hms, rfl⟩ := hread.eq_interface
    refine ⟨rfl, ms, hms, ?_⟩
    rw [TypeTable.resolve?, hdef]
  | link hmem hname _ ih =>
    obtain ⟨limit, rfl⟩ : ∃ l, limit = l + 1 := ⟨limit - 1, by omega⟩
    obtain ⟨t, hdef, hread⟩ := hold.defined hmem
    cases hread.eq_named hname
    rw [TypeTable.resolve?, hdef]
    exact ih (by omega)

theorem stands_of_resolve? {limit : Nat} {n owner : TypeName} {methods : List Method}
    {embedded : List GoType}
    (h : table.resolve? limit n = some (owner, .interface methods embedded)) :
    ∃ k ≤ limit, ∃ members ms, Stands definitions k n ⟨owner, false, members⟩ ∧
      List.Forall₂ Datum.MemberReadAs members ms ∧
      methods = ms.filterMap (·.method?) ∧ embedded = ms.filterMap (·.embed?) := by
  induction limit generalizing n with
  | zero => cases h
  | succ limit ih =>
    unfold TypeTable.resolve? at h
    split at h
    · cases h
    · rename_i m hdef
      obtain ⟨body, hmem, hread⟩ := hold.only hdef
      obtain ⟨pkg, name, rest, rfl, hname⟩ := hread.named_form
      obtain ⟨k, hk, members, ms, hstands, hms⟩ := ih h
      exact ⟨k + 1, by omega, members, ms, .link hmem hname hstands, hms⟩
    · rename_i hdef
      cases h
      obtain ⟨body, hmem, hread⟩ := hold.only hdef
      obtain ⟨members, ms, rfl, hms⟩ := hread.interface_form
      exact ⟨1, by omega, members, ms, .form hmem, hms⟩

theorem matches_of_stands {k : Nat} {n : TypeName} (h : Stands definitions k n f)
    (hk : k ≤ TypeTable.linkLimit) : f.Matches table (.named n) := by
  obtain ⟨hliteral, ms, hms, hresolve⟩ := resolve?_of_stands hold h hk
  refine ⟨ms, hms, ?_⟩
  rw [TypeTable.view, hresolve, hliteral]
  rfl

theorem exists_stands_of_view {n : TypeName} {owner : Option TypeName} {methods : List Method}
    {embedded : List GoType} (h : table.view (.named n) = (owner, .interface methods embedded)) :
    ∃ k ≤ TypeTable.linkLimit, ∃ f, Stands definitions k n f ∧ f.Matches table (.named n) := by
  unfold TypeTable.view at h
  dsimp only at h
  split at h
  · rename_i hresolve
    cases h
    obtain ⟨k, hk, members, ms, hstands, -⟩ := stands_of_resolve? hold hresolve
    exact ⟨k, hk, _, hstands, matches_of_stands hold hstands hk⟩
  · cases h

/-- A type that matches a form embeds one that matches what the form embeds. -/
theorem InterfaceForm.Matches.step {g : InterfaceForm} (h : f.Matches table t)
    (hstep : InterfaceForm.Embeds definitions f g) : ∃ u, table.Embeds t u ∧ g.Matches table u := by
  cases hstep with
  | literal he =>
    obtain ⟨u, hu, hread⟩ := h.embeds he
    exact ⟨u, hu, matches_literal hread⟩
  | named he hname hstands hk =>
    obtain ⟨u, hu, hread⟩ := h.embeds he
    cases hread.eq_named hname
    exact ⟨_, hu, matches_of_stands hold hstands hk⟩

/-- An interface that such a type embeds matches something that the form embeds. -/
theorem InterfaceForm.Matches.step_back {owner : Option TypeName} {methods : List Method}
    {embedded : List GoType} (h : f.Matches table t) (hstep : table.Embeds t u)
    (hview : table.view u = (owner, .interface methods embedded)) :
    ∃ g, InterfaceForm.Embeds definitions f g ∧ g.Matches table u := by
  obtain ⟨e, rest, he, hread⟩ := h.embed_form hstep
  cases u with
  | named n =>
    obtain ⟨pkg, name, rest', rfl, hname⟩ := hread.named_form
    obtain ⟨k, hk, g, hstands, hg⟩ := exists_stands_of_view hold hview
    exact ⟨g, .named he hname hstands hk, hg⟩
  | interface methods embedded =>
    obtain ⟨members, ms, rfl, -⟩ := hread.interface_form
    exact ⟨_, .literal he, matches_literal hread⟩
  | _ => cases hview

/-- The steps add up: what is found from the form is matched by types reached from its type. -/
theorem InterfaceForm.Matches.reaches {g : InterfaceForm} (h : f.Matches table t)
    (hreach : ReflTransGen (InterfaceForm.Embeds definitions) f g) :
    ∃ u, ReflTransGen table.Embeds t u ∧ g.Matches table u := by
  induction hreach with
  | refl => exact ⟨t, .refl, h⟩
  | tail _ hstep ih =>
    obtain ⟨v, hreach, hv⟩ := ih
    obtain ⟨u, hu, hg⟩ := hv.step hold hstep
    exact ⟨u, hreach.tail hu, hg⟩

theorem InterfaceForm.Matches.reaches_back {owner : Option TypeName} {methods : List Method}
    {embedded : List GoType} (h : f.Matches table t) (hreach : ReflTransGen table.Embeds t u)
    (hview : table.view u = (owner, .interface methods embedded)) :
    ∃ g, ReflTransGen (InterfaceForm.Embeds definitions) f g ∧ g.Matches table u := by
  induction hreach using ReflTransGen.head_induction_on generalizing f with
  | refl => exact ⟨f, .refl, h⟩
  | @head t v hstep hrest ih =>
    -- the next type is an interface too: it is the last one, or it embeds something
    obtain ⟨owner', methods', embedded', hv⟩ : ∃ owner methods embedded,
        table.view v = (owner, .interface methods embedded) := by
      rcases hrest.cases_head with rfl | ⟨w, ⟨o, ms, es, hv, -⟩, -⟩
      · exact ⟨owner, methods, embedded, hview⟩
      · exact ⟨o, ms, es, hv⟩
    obtain ⟨g, hg, hmatch⟩ := h.step_back hold hstep hv
    obtain ⟨last, hreach, hlast⟩ := ih hmatch
    exact ⟨last, .head hg hreach, hlast⟩

/-- A name has the methods of the forms that are found from it. -/
theorem declares_iff_supplies {n : TypeName} {id : String} :
    table.declares (.named n) id = true ↔
      ∃ f, Supplies definitions n f ∧ ∃ m, f.Declares m ∧ Object.methodId f.package m = id := by
  rw [TypeTable.declares_iff_reaches]
  constructor
  · rintro ⟨u, hreach, hu⟩
    have hdeclares : table.declares u id = true := TypeTable.declares_iff_embeds.mpr (.inl hu)
    obtain ⟨_, _, _, hview⟩ := TypeTable.exists_view_of_declares hdeclares
    obtain ⟨_, _, _, hnamed⟩ := TypeTable.exists_view_of_declares
      (TypeTable.declares_iff_reaches.mpr ⟨u, hreach, hu⟩)
    obtain ⟨k, hk, start, hstands, hstart⟩ := exists_stands_of_view hold hnamed
    obtain ⟨f, hf, hmatch⟩ := hstart.reaches_back hold hreach hview
    exact ⟨f, ⟨k, start, hstands, hk, hf⟩, hmatch.explicitlyDeclares_iff.mp hu⟩
  · rintro ⟨f, ⟨k, start, hstands, hk, hreach⟩, hf⟩
    obtain ⟨u, hu, hmatch⟩ := (matches_of_stands hold hstands hk).reaches hold hreach
    exact ⟨u, hu, hmatch.explicitlyDeclares_iff.mpr hf⟩

end

/-! ## Circles -/

theorem Datum.ReadAs.leads {d : Datum} {t : GoType} {n : TypeName} (h : d.ReadAs t)
    (hn : t.Leads n) : d.Leads n := by
  induction hn generalizing d with
  | named n =>
    obtain ⟨pkg, name, rest, rfl, hname⟩ := h.named_form
    exact .named hname
  | embedded hmem _ ih =>
    obtain ⟨members, ms, rfl, hms, -, rfl⟩ := h.interface_form
    obtain ⟨member, hmember, heq⟩ := List.mem_filterMap.mp hmem
    obtain ⟨form, hform, hread⟩ := exists_left_of_forall₂ hms hmember
    cases member with
    | method m => cases heq
    | embed u =>
      cases heq
      obtain ⟨e, rest, rfl, he⟩ := hread
      exact .embedded hform (ih he)

/-- Definitions without circles are read as a table without circles. -/
theorem acyclic_of_definitions {table : TypeTable} {definitions : List (TypeName × Datum)}
    (hold : table.Holds definitions) (h : AcyclicDefinitions definitions) : table.Acyclic := by
  intro n hn
  refine h n (TransGen.mono (fun n m hrefers => ?_) n n hn)
  obtain ⟨t, hdef, hlead⟩ := hrefers
  obtain ⟨body, hmem, hread⟩ := hold.only hdef
  exact ⟨body, hmem, hread.leads hlead⟩

/-! ## Calls -/

/-- A call through a selection in a coherent tree calls the selected object. -/
theorem Node.Coherent.callee_eq {n : Node} (h : n.Coherent) {c : Call} (hc : Node.call c ∈ n.walk)
    {x : Expr} {sel : Ident} {selection : Selection} {type : Option GoType} {fn : Object}
    (hselector : c.fn = .selector x sel (some selection) type) (hfn : c.callee? = some fn) :
    selection.obj = fn := by
  obtain ⟨id, hid, hobj⟩ := Call.exists_calleeIdent hfn
  have hfirst : Node.expr c.fn ∈ (Node.call c).children := by
    obtain ⟨fn, args, lparen, rparen, type, ellipsis⟩ := c
    exact List.mem_cons_self
  have hagrees : (Node.expr c.fn).Agrees :=
    h _ (mem_preorder_trans (walk_eq n ▸ hc) (mem_preorder_of_child hfirst (mem_preorder_self _)))
  rw [hselector] at hagrees
  rw [Call.calleeIdent?, hselector] at hid
  cases hid
  exact Option.some.inj (hagrees.symm.trans hobj)

namespace ExclusionIndex

section

variable {types : TypeTable} {definitions : List (TypeName × Datum)} {c : Call} {x : Expr}
  {sel : Ident} {selection : Selection} {type : Option GoType} {a : TypeName} {pkg : Option String}
  {m : String} {recv sig : Option GoType} (hold : types.Holds definitions)
  (hacyclic : AcyclicDefinitions definitions)
  (hselector : c.fn = .selector x sel (some selection) type) (hrecv : selection.recv = .named a)
  (hindex : selection.index.length ≤ 1) (hobj : selection.obj = .func pkg m recv sig)
  (hcallee : c.callee? = some (.func pkg m recv sig)) (hm : m ≠ "")

include hold hacyclic hselector hrecv hindex hobj

/-- A call through a named interface has a chain exactly if a form is found that declares a method
with the identity of the callee. -/
theorem chain?_isSome_iff_supplies :
    (c.chain? types).isSome = true ↔
      ∃ f, Supplies definitions a f ∧
        ∃ name, f.Declares name ∧ Object.methodId f.package name = Object.methodId pkg m := by
  have hkind : selection.obj.kind = .func := by rw [hobj]; rfl
  have hid : selection.obj.id = Object.methodId pkg m := by rw [hobj]; rfl
  rw [Call.chain?, hselector]
  dsimp only
  rw [TypeTable.chain?_isSome_iff (acyclic_of_definitions hold hacyclic) hkind hindex, hrecv, hid,
    declares_iff_supplies hold]

include hcallee hm

/-- One of the names of the call is then that of the method of the receiver. -/
theorem mem_namesOf_of_supplies {f : InterfaceForm} (hf : Supplies definitions a f) {name : String}
    (hname : f.Declares name) (hid : Object.methodId f.package name = Object.methodId pkg m) :
    stripVendor (Object.methodName (.named a) m) ∈ namesOf types c := by
  have hsome := chain?_isSome_iff_supplies hold hacyclic hselector hrecv hindex hobj
  obtain ⟨ts, hts⟩ := Option.isSome_iff_exists.mp (hsome.mpr ⟨f, hf, name, hname, hid⟩)
  have hhead : GoType.named a ∈ ts := by
    rw [Call.chain?, hselector] at hts
    dsimp only at hts
    rw [← hrecv]
    exact List.mem_of_head? (TypeTable.head?_of_chain? hts)
  rw [namesOf_eq hcallee hm, hts]
  exact List.mem_map.mpr ⟨_, hhead, rfl⟩

/-- Without such a form the call goes by the full name of its callee. -/
theorem namesOf_of_no_supplier
    (hnone : ∀ f, Supplies definitions a f → ∀ name, f.Declares name →
      Object.methodId f.package name ≠ Object.methodId pkg m) :
    namesOf types c = [stripVendor (Object.func pkg m recv sig).fullName] := by
  have hchain : c.chain? types = none := by
    rw [← Option.not_isSome_iff_eq_none,
      chain?_isSome_iff_supplies hold hacyclic hselector hrecv hindex hobj]
    rintro ⟨f, hf, name, hname, hid⟩
    exact hnone f hf name hname hid
  rw [namesOf_eq hcallee hm, hchain]

end

/-- Of a call `x.m()` through a named interface, a rule for the method `m` of that interface
excludes the call if a form is found from the name that declares `m`, and `m` is exported or its
package is that of the methods of the form. If no form that is found declares a method with the
identity of the callee, the call goes by the full name of its callee alone. -/
theorem excludes_promoted_calls {root : SourceRoot} {d : Datum} {program : Program}
    (hread : readProgram root d = .ok program) (hacyclic : AcyclicDefinitions d.definitions)
    {file : ParsedFile} (hfile : file ∈ program.packages.flatMap (·.files)) {c : Call}
    (hc : Node.call c ∈ (Node.file file.tree).walk) {x : Expr} {sel : Ident}
    {selection : Selection} {type : Option GoType}
    (hselector : c.fn = .selector x sel (some selection) type) {a : TypeName}
    (hrecv : selection.recv = .named a) (hindex : selection.index.length ≤ 1)
    {pkg : Option String} {m : String} {recv sig : Option GoType}
    (hcallee : c.callee? = some (.func pkg m recv sig)) (hm : m ≠ "") :
    (∀ f, Supplies d.definitions a f → f.Declares m →
        Object.isExportedName m = true ∨ f.package = pkg →
        ∀ index : ExclusionIndex, Object.methodName (.named a) m ∈ index.symbols →
          stripVendor (Object.methodName (.named a) m) = Object.methodName (.named a) m →
          index.excludes program.types c = true) ∧
      ((∀ f, Supplies d.definitions a f → ∀ name, f.Declares name →
          Object.methodId f.package name ≠ Object.methodId pkg m) →
        namesOf program.types c = [stripVendor (Object.func pkg m recv sig).fullName]) := by
  have hold := holds_of_readProgram hread
  have hobj : selection.obj = .func pkg m recv sig :=
    (coherent_files hread hfile).callee_eq hc hselector hcallee
  constructor
  · intro f hf hname hpackage index hrule hplain
    have hid : Object.methodId f.package m = Object.methodId pkg m := by
      rcases hpackage with hexported | hpkg
      · rw [Object.methodId, Object.methodId, if_pos hexported, if_pos hexported]
      · rw [hpkg]
    have hmem := mem_namesOf_of_supplies hold hacyclic hselector hrecv hindex hobj hcallee hm hf
      hname hid
    rw [hplain] at hmem
    exact excludes_of_mem_namesOf hcallee hmem hrule
  · exact namesOf_of_no_supplier hold hacyclic hselector hrecv hindex hobj hcallee hm

/-! ## A call through an interface that embeds another -/

/-- The name `p.A`. -/
def outerName : TypeName := ⟨some "p", "A"⟩

/-- The name `p.B`. -/
def innerName : TypeName := ⟨some "p", "B"⟩

/-- The form of `p.B` as a name. -/
def innerNameForm : Datum := .list [.symbol "named", .string "p", .string "B"]

/-- The interface that has the method `m` alone, as a form in the definition of this name. -/
def methodForm (home : TypeName) (isLiteral : Bool) : InterfaceForm :=
  ⟨home, isLiteral, [.list [.symbol "method", .string "m", .list [.symbol "signature"]]]⟩

/-- The definition of `p.A` as an interface that embeds something. -/
def embeddingForm (e : Datum) : InterfaceForm :=
  ⟨outerName, false, [.list [.symbol "embed", e]]⟩

/-- The literal with the method `m` in the definition of `p.A`. -/
def literalForm : Datum := (methodForm outerName true).datum

/-- A dump that defines `p.A` as an interface that embeds something, `p.B` as one with the method
`m`, and has a call `x.m()` through `p.A`. -/
def dumpOfMethodCall (e : Datum) : Datum :=
  .list [.symbol "program",
    .list [.symbol "typedef", .string "p", .string "A", (embeddingForm e).datum],
    .list [.symbol "typedef", .string "p", .string "B", (methodForm innerName false).datum],
    .list [.symbol "package", .string "p", .string "p",
      .list [.symbol "file", .string "p.go", .list [.symbol "source", .string "package p"],
        .list [.symbol "func-decl", .string "f", .int 0, .list [.symbol "body",
          .list [.symbol "block", .int 0, .list [.symbol "expr-stmt",
            .list [.symbol "call",
              .list [.symbol "selector", identForm "x" 1,
                .list [.symbol "ident", .string "m", .int 3,
                  .list [.symbol "obj", .list [.symbol "func", .string "p", .string "m"]]],
                .list [.symbol "selection", .string "method-val",
                  .list [.symbol "named", .string "p", .string "A"],
                  .list [.symbol "index", .int 0]]],
              .int 4, .int 5]]]]]]]]

/-- The call of that dump. -/
def methodCall : Call :=
  .mk (.selector (.ident ⟨"x", 1, none, none⟩)
    ⟨"m", 3, some (.func (some "p") "m" none none), none⟩
    (some ⟨.methodVal, .named outerName, .func (some "p") "m" none none, [0]⟩) none)
    [] 4 5 none none

theorem definitions_dumpOfMethodCall (e : Datum) :
    (dumpOfMethodCall e).definitions =
      [(.error, Datum.errorForm), (outerName, (embeddingForm e).datum),
        (innerName, (methodForm innerName false).datum)] :=
  rfl

theorem eq_of_mem_definitions {e body : Datum}
    (h : (outerName, body) ∈ (dumpOfMethodCall e).definitions) :
    body = (embeddingForm e).datum := by
  simpa [definitions_dumpOfMethodCall, outerName, innerName, TypeName.error] using h

/-- The definitions have no circle if what `p.A` embeds leads to `p.B` at most. -/
theorem acyclic_dumpOfMethodCall {e : Datum} (h : ∀ n, e.Leads n → n = innerName) :
    AcyclicDefinitions (dumpOfMethodCall e).definitions := by
  refine acyclicDefinitions_of_rank (fun n => if n = outerName then 1 else 0) ?_
  intro n body hmem m hlead
  simp only [definitions_dumpOfMethodCall, List.mem_cons, Prod.mk.injEq, List.not_mem_nil,
    or_false] at hmem
  rcases hmem with ⟨rfl, rfl⟩ | ⟨rfl, rfl⟩ | ⟨rfl, rfl⟩
  · simp [Datum.errorForm, Datum.leads_interface] at hlead
  · have he : e.Leads m := by
      simpa [InterfaceForm.datum, embeddingForm, Datum.leads_interface] using hlead
    rw [h m he]
    decide
  · simp [InterfaceForm.datum, methodForm, Datum.leads_interface] at hlead

/-- The walk of a file visits the call that is all there is to the body of its one function. -/
theorem call_mem_walk {file : File} {c : Call} {name : Ident} {pos lbrace : Int}
    {recv : Option GoType}
    (h : file.decls = [.func ⟨name, pos, some (.mk [.expr (.call c)] lbrace), recv⟩]) :
    Node.call c ∈ (Node.file file).walk := by
  rw [Node.walk_eq]
  have hcall : Node.call c ∈ (Node.block (.mk [.expr (.call c)] lbrace)).preorder :=
    Node.mem_preorder_of_child List.mem_cons_self
      (Node.mem_preorder_of_child List.mem_cons_self (Node.mem_preorder_self _))
  have hblock : Node.call c ∈
      (Node.funcDecl ⟨name, pos, some (.mk [.expr (.call c)] lbrace), recv⟩).preorder :=
    Node.mem_preorder_of_child (List.mem_cons_of_mem _ List.mem_cons_self) hcall
  refine Node.mem_preorder_of_child ?_ hblock
  rw [Node.children, h]
  exact List.mem_cons_self

theorem readProgram_dumpOfMethodCall {e : Datum} (he : e = innerNameForm ∨ e = literalForm) :
    ∃ program file, readProgram noSources (dumpOfMethodCall e) = .ok program ∧
      file ∈ program.packages.flatMap (·.files) ∧
      Node.call methodCall ∈ (Node.file file.tree).walk := by
  rcases he with rfl | rfl
  · exact ⟨_, _, rfl, List.mem_singleton_self _, call_mem_walk rfl⟩
  · exact ⟨_, _, rfl, List.mem_singleton_self _, call_mem_walk rfl⟩

/-- An interface that embeds the name of another one has its method, and the rule for the method
excludes the call. -/
theorem named_method_excluded :
    ∃ program file, readProgram noSources (dumpOfMethodCall innerNameForm) = .ok program ∧
      file ∈ program.packages.flatMap (·.files) ∧
      Node.call methodCall ∈ (Node.file file.tree).walk ∧
      ∃ index, ofExclusions { symbols := ["(p.A).m"], disableDefaults := true } = .ok index ∧
        index.excludes program.types methodCall = true := by
  obtain ⟨program, file, hread, hfile, hcall⟩ := readProgram_dumpOfMethodCall (.inl rfl)
  obtain ⟨index, hindex⟩ : ∃ index, ofExclusions
      { symbols := ["(p.A).m"], disableDefaults := true } = .ok index := ⟨_, rfl⟩
  have hrule : "(p.A).m" ∈ index.symbols :=
    (mem_symbols hindex).mpr ⟨_, List.mem_singleton_self _, by decide, by decide +kernel⟩
  have hacyclic : AcyclicDefinitions (dumpOfMethodCall innerNameForm).definitions := by
    refine acyclic_dumpOfMethodCall fun n hn => ?_
    rw [innerNameForm, Datum.leads_named] at hn
    exact (Option.some.inj hn).symm
  have hinner : Stands (dumpOfMethodCall innerNameForm).definitions 1 innerName
      (methodForm innerName false) := .form (.tail _ (.tail _ (.head _)))
  have hsupplies : Supplies (dumpOfMethodCall innerNameForm).definitions outerName
      (methodForm innerName false) :=
    ⟨1, embeddingForm innerNameForm, .form (.tail _ (.head _)), by decide,
      .single (.named (List.mem_singleton_self _) rfl hinner (by decide))⟩
  have hcalls := excludes_promoted_calls hread hacyclic hfile hcall rfl rfl (by decide) rfl
    (by decide)
  exact ⟨program, file, hread, hfile, hcall, index, hindex, hcalls.1 _ hsupplies
    ⟨_, _, List.mem_singleton_self _, rfl⟩ (.inr rfl) index hrule (by decide +kernel)⟩

/-- From `p.A` with the literal in it, nothing but the definition and the literal is found. -/
theorem eq_of_supplies_literal {f : InterfaceForm}
    (h : Supplies (dumpOfMethodCall literalForm).definitions outerName f) :
    f = embeddingForm literalForm ∨ f = methodForm outerName true := by
  obtain ⟨k, start, hstart, -, hreach⟩ := h
  have hstart : start = embeddingForm literalForm := by
    cases hstart with
    | form hmem =>
      cases eq_of_mem_definitions hmem
      rfl
    | link hmem =>
      have hbody := eq_of_mem_definitions hmem
      simp [InterfaceForm.datum] at hbody
  subst hstart
  induction hreach with
  | refl => exact .inl rfl
  | tail _ hstep ih =>
    rcases ih with rfl | rfl
    · cases hstep with
      | literal he =>
        cases List.mem_singleton.mp he
        exact .inr rfl
      | named he => simp [embeddingForm, literalForm, InterfaceForm.datum] at he
    · cases hstep with
      | literal he => simp [methodForm] at he
      | named he => simp [methodForm] at he

/-- None of these has a method with the identity of `m` in the package `p`: the literal has one
that belongs to no package. -/
theorem methodId_ne_of_supplies_literal {f : InterfaceForm}
    (h : Supplies (dumpOfMethodCall literalForm).definitions outerName f) {name : String}
    (hname : f.Declares name) :
    Object.methodId f.package name ≠ Object.methodId (some "p") "m" := by
  obtain ⟨_, _, hmem, hname⟩ := hname
  rcases eq_of_supplies_literal h with rfl | rfl
  · simp [embeddingForm] at hmem
  · cases List.mem_singleton.mp hmem
    cases hname
    decide

/-- An interface that embeds a literal with the method `m` has it too, and the form stands in a
definition of the package of the method. Still the rule for the method does not exclude the call. -/
theorem literal_method_not_excluded :
    ∃ program file, readProgram noSources (dumpOfMethodCall literalForm) = .ok program ∧
      AcyclicDefinitions (dumpOfMethodCall literalForm).definitions ∧
      file ∈ program.packages.flatMap (·.files) ∧
      Node.call methodCall ∈ (Node.file file.tree).walk ∧
      methodCall.callee? = some (.func (some "p") "m" none none) ∧
      (∃ f, Supplies (dumpOfMethodCall literalForm).definitions outerName f ∧ f.Declares "m" ∧
        f.home.pkg = some "p") ∧
      ∃ index, ofExclusions { symbols := ["(p.A).m"] } = .ok index ∧
        "(p.A).m" ∈ index.symbols ∧ index.excludes program.types methodCall = false := by
  obtain ⟨program, file, hread, hfile, hcall⟩ := readProgram_dumpOfMethodCall (.inr rfl)
  have hacyclic : AcyclicDefinitions (dumpOfMethodCall literalForm).definitions := by
    refine acyclic_dumpOfMethodCall fun n hn => ?_
    simp [literalForm, InterfaceForm.datum, methodForm, Datum.leads_interface] at hn
  have hsupplies : Supplies (dumpOfMethodCall literalForm).definitions outerName
      (methodForm outerName true) :=
    ⟨1, embeddingForm literalForm, .form (.tail _ (.head _)), by decide,
      .single (.literal (List.mem_singleton_self _))⟩
  have hcallee : methodCall.callee? = some (.func (some "p") "m" none none) := rfl
  have hnames := namesOf_of_no_supplier (holds_of_readProgram hread) hacyclic rfl rfl (by decide)
    rfl hcallee (by decide) fun f hf name hname => methodId_ne_of_supplies_literal hf hname
  refine ⟨program, file, hread, hacyclic, hfile, hcall, hcallee,
    ⟨_, hsupplies, ⟨_, _, List.mem_singleton_self _, rfl⟩, rfl⟩, _, rfl, by decide +kernel, ?_⟩
  simp only [excludes, hnames]
  decide +kernel

end ExclusionIndex

end UncheckedErrors
