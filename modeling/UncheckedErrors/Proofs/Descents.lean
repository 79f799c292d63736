import Mathlib.Logic.Relation
import UncheckedErrors.Proofs.MethodSets

/-!
# Descents to the interface that declares a method

A method of an interface is searched for with a list of the names that the search has been to. Each
turn goes to the supplier of the interface at hand, the first one it embeds that has the method
(`TypeTable.Turn`), and no run of turns is endless (`wellFounded_turn`).

What the search finds is described without that list: a descent goes from supplier to supplier and
ends where the method is declared (`TypeTable.Descent`). There is only one descent from a type, so
it never comes back to an interface (`Descent.pairwise`), and the names visited never stand in its
way (`descend_eq_some_iff`).

The search takes the first supplier and never another one. Where the embeddings have no circles that
is enough: it succeeds exactly if the full method set has the method
(`isSome_descend_iff`). They have none where no name refers to itself over definitions
(`Acyclic.acyclicFrom`).
-/

namespace UncheckedErrors

/-- The type is this name, or the name is among what it embeds. -/
inductive GoType.Leads : GoType → TypeName → Prop
  | named (n : TypeName) : Leads (.named n) n
  | embedded {methods : List Method} {embedded : List GoType} {t : GoType} {n : TypeName} :
    t ∈ embedded → Leads t n → Leads (.interface methods embedded) n

@[simp] theorem GoType.leads_named {n m : TypeName} : (GoType.named n).Leads m ↔ n = m := by
  constructor
  · rintro ⟨⟩
    rfl
  · rintro rfl
    exact .named n

@[simp] theorem GoType.leads_interface {methods : List Method} {embedded : List GoType}
    {n : TypeName} : (GoType.interface methods embedded).Leads n ↔ ∃ t ∈ embedded, t.Leads n := by
  constructor
  · rintro ⟨⟩
    exact ⟨_, ‹_›, ‹_›⟩
  · rintro ⟨t, ht, hlead⟩
    exact .embedded ht hlead

@[simp] theorem GoType.not_leads_basic {name : String} {n : TypeName} :
    ¬ (GoType.basic name).Leads n := nofun

namespace TypeTable

open Relation

variable {table : TypeTable} {id : String} {t u : GoType} {owner : TypeName}
  {visited : List TypeName} {rest : List GoType}

theorem view_eq_view (ht : (table.view t).1 = some owner)
    (hu : (table.view u).1 = some owner) : table.view t = table.view u := by
  have hview : table.view t = (some owner, (table.view t).2) := by rw [← ht]
  rw [hview, view_eq_of_owner hview hu]

/-! ## Suppliers -/

/-- The type is an interface whose full method set has the method. -/
def Offers (table : TypeTable) (id : String) (t : GoType) : Prop :=
  table.isInterface t = true ∧ table.declares t id = true

/-- The second type is the first one, in order of declaration, that the interface under the first
type embeds and that offers the method. -/
def Supplier (table : TypeTable) (id : String) (t u : GoType) : Prop :=
  ∃ owner methods before after,
    table.view t = (owner, .interface methods (before ++ u :: after)) ∧
      table.Offers id u ∧ ∀ v ∈ before, ¬ table.Offers id v

theorem offers_iff : table.Offers id t ↔ (table.isInterface t && table.declares t id) = true := by
  rw [Offers, Bool.and_eq_true]

theorem supplier_iff_of_view {owner : Option TypeName} {methods : List Method}
    {embedded : List GoType} (hview : table.view t = (owner, .interface methods embedded)) :
    table.Supplier id t u ↔ table.supplier? id embedded = some u := by
  rw [supplier?, List.find?_eq_some_iff_append]
  constructor
  · rintro ⟨_, _, before, after, hview', hu, hbefore⟩
    rw [hview] at hview'
    cases hview'
    refine ⟨offers_iff.mp hu, before, after, rfl, fun v hv => ?_⟩
    rw [Bool.not_eq_true', ← Bool.not_eq_true, ← offers_iff]
    exact hbefore v hv
  · rintro ⟨hu, before, after, rfl, hbefore⟩
    refine ⟨owner, methods, before, after, hview, offers_iff.mpr hu, fun v hv => ?_⟩
    rw [offers_iff, Bool.not_eq_true, ← Bool.not_eq_true']
    exact hbefore v hv

theorem Supplier.embeds (h : table.Supplier id t u) : table.Embeds t u := by
  obtain ⟨owner, methods, before, after, hview, -, -⟩ := h
  exact ⟨owner, methods, _, hview, List.mem_append_right _ List.mem_cons_self⟩

theorem Supplier.declares (h : table.Supplier id t u) : table.declares u id = true := by
  obtain ⟨_, _, _, _, -, hu, -⟩ := h
  exact hu.2

theorem Supplier.unique {v : GoType} (hu : table.Supplier id t u) (hv : table.Supplier id t v) :
    u = v := by
  obtain ⟨_, _, _, hview, -⟩ := hu.embeds
  rw [supplier_iff_of_view hview] at hu hv
  exact Option.some.inj (hu.symm.trans hv)

/-- An interface that has a method and does not declare it itself has a supplier. -/
theorem exists_supplier (h : table.declares t id = true)
    (hself : table.explicitlyDeclares t id = false) : ∃ u, table.Supplier id t u := by
  obtain hdeclared | ⟨u, ⟨owner, methods, embedded, hview, hu⟩, hdeclares⟩ :=
    declares_iff_embeds.mp h
  · rw [hself] at hdeclared
    cases hdeclared
  · have hsome : (table.supplier? id embedded).isSome = true := List.find?_isSome.mpr
      ⟨u, hu, offers_iff.mp ⟨isInterface_of_declares hdeclares, hdeclares⟩⟩
    obtain ⟨v, hv⟩ := Option.isSome_iff_exists.mp hsome
    exact ⟨v, (supplier_iff_of_view hview).mpr hv⟩

/-! ## Turns of the search -/

/-- One turn of the search for the interface that declares a method: from a type on to its supplier.
The name of the type, if it has one, is not gone to again. -/
inductive Turn (table : TypeTable) (id : String) :
    List TypeName × GoType → List TypeName × GoType → Prop
  | named {visited : List TypeName} {t u : GoType} {owner : TypeName} :
    (table.view t).1 = some owner → owner ∉ visited → table.explicitlyDeclares t id = false →
      table.Supplier id t u → Turn table id (visited, t) (owner :: visited, u)
  | literal {visited : List TypeName} {t u : GoType} :
    (table.view t).1 = none → table.explicitlyDeclares t id = false → table.Supplier id t u →
      Turn table id (visited, t) (visited, u)

/-- The search never goes on for ever, whatever circles the definitions have. -/
theorem wellFounded_turn (table : TypeTable) (id : String) :
    WellFounded fun next state => table.Turn id state next := by
  let measure (state : List TypeName × GoType) : Nat × Nat :=
    (table.unvisited state.1, sizeOf state.2)
  refine Subrelation.wf (r := InvImage (Prod.Lex (· < ·) (· < ·)) measure) ?_
    (InvImage.wf measure (Prod.lex Nat.lt_wfRel Nat.lt_wfRel).wf)
  intro next state h
  cases h with
  | named hview hvisited _ _ =>
    exact Prod.Lex.left _ _ (unvisited_cons_lt (mem_names_of_view hview) hvisited)
  | @literal visited t u hview _ hsupplier =>
    obtain ⟨owner, methods, embedded, hfull, hmem⟩ := hsupplier.embeds
    rw [hfull] at hview
    cases hview
    have hlt := List.sizeOf_lt_of_mem hmem
    refine Prod.Lex.right _ ?_
    show sizeOf u < sizeOf t
    rw [eq_of_view_eq_none hfull, GoType.interface.sizeOf_spec]
    omega

theorem descend_of_declares (hclear : table.Clear visited t)
    (h : table.explicitlyDeclares t id = true) : table.descend id visited t = some [] := by
  obtain ⟨owner, methods, embedded, hview⟩ :=
    exists_view_of_declares (declares_iff_embeds.mpr (.inl h))
  rw [descend]
  split
  · rename_i o _ _ hview'
    rw [if_neg (hclear o (by rw [hview'])), if_pos h]
  · rw [if_pos h]
  · rename_i hnamed hliteral
    cases owner with
    | none => exact absurd hview (hliteral methods embedded)
    | some owner => exact absurd hview (hnamed owner methods embedded)

theorem descend_of_turn {visited' : List TypeName} (h : table.Turn id (visited, t) (visited', u)) :
    table.descend id visited t = (table.descend id visited' u).map (u :: ·) := by
  cases h with
  | @named _ _ _ owner hname hvisited hself hsupplier =>
    obtain ⟨_, methods, embedded, hview, -⟩ := hsupplier.embeds
    obtain rfl : _ = some owner := by rw [← hname, hview]
    have hfound := (supplier_iff_of_view hview).mp hsupplier
    rw [descend]
    split
    · rename_i hview'
      rw [hview] at hview'
      cases hview'
      simp only [hvisited, hself, hfound, ↓reduceIte, Bool.false_eq_true]
    · rename_i hview'
      rw [hview] at hview'
      cases hview'
    · rename_i hnamed _
      exact absurd hview (hnamed owner methods embedded)
  | literal hname hself hsupplier =>
    obtain ⟨_, methods, embedded, hview, -⟩ := hsupplier.embeds
    obtain rfl : _ = none := by rw [← hname, hview]
    have hfound := (supplier_iff_of_view hview).mp hsupplier
    rw [descend]
    split
    · rename_i hview'
      rw [hview] at hview'
      cases hview'
    · rename_i hview'
      rw [hview] at hview'
      cases hview'
      simp only [hself, Bool.false_eq_true, ↓reduceIte]
      split
      · rename_i hfound'
        rw [hfound] at hfound'
        cases hfound'
        rfl
      · rename_i hfound'
        rw [hfound] at hfound'
        cases hfound'
    · rename_i hliteral
      exact absurd hview (hliteral methods embedded)

/-- A search that succeeds is at its end, or takes a turn and succeeds from there. -/
theorem cases_of_descend (h : table.descend id visited t = some rest) :
    (table.explicitlyDeclares t id = true ∧ rest = []) ∨
      ∃ visited' u rest', table.Turn id (visited, t) (visited', u) ∧
        table.descend id visited' u = some rest' ∧ rest = u :: rest' := by
  revert h
  fun_cases descend table id visited t with
  | case1 | case4 | case7 | case8 => intro h; cases h
  | case2 owner methods embedded hview hvisited hself =>
    exact fun h => .inl ⟨hself, (Option.some.inj h).symm⟩
  | case3 owner methods embedded hview hvisited hself u hfound =>
    intro h
    rw [Bool.not_eq_true] at hself
    obtain ⟨rest', hrest', rfl⟩ := Option.map_eq_some_iff.mp h
    exact .inr ⟨_, u, rest', .named (by rw [hview]) hvisited hself
      ((supplier_iff_of_view hview).mpr hfound), hrest', rfl⟩
  | case5 methods embedded hview hself => exact fun h => .inl ⟨hself, (Option.some.inj h).symm⟩
  | case6 methods embedded hview hself u hfound =>
    intro h
    rw [Bool.not_eq_true] at hself
    obtain ⟨rest', hrest', rfl⟩ := Option.map_eq_some_iff.mp h
    exact .inr ⟨_, u, rest', .literal (by rw [hview]) hself
      ((supplier_iff_of_view hview).mpr hfound), hrest', rfl⟩

/-! ## Descents -/

/-- The types after `t` on the way to the interface that declares the method: each is the supplier
of the one before, and only the last one declares the method. -/
inductive Descent (table : TypeTable) (id : String) : GoType → List GoType → Prop
  | here {t : GoType} : table.explicitlyDeclares t id = true → Descent table id t []
  | step {t u : GoType} {rest : List GoType} :
    table.explicitlyDeclares t id = false → table.Supplier id t u → Descent table id u rest →
      Descent table id t (u :: rest)

theorem explicitlyDeclares_congr (h : table.view t = table.view u) :
    table.explicitlyDeclares t id = table.explicitlyDeclares u id := by
  rw [explicitlyDeclares, explicitMethods, h, explicitlyDeclares, explicitMethods]

namespace Descent

variable {rest' : List GoType}

/-- There is one descent from a type. -/
theorem unique (h : table.Descent id t rest) (h' : table.Descent id t rest') : rest = rest' := by
  induction h generalizing rest' with
  | here hself =>
    cases h' with
    | here => rfl
    | step hself' => rw [hself] at hself'; cases hself'
  | step hself hsupplier _ ih =>
    cases h' with
    | here hself' => rw [hself] at hself'; cases hself'
    | step _ hsupplier' hrest' =>
      obtain rfl := hsupplier.unique hsupplier'
      rw [ih hrest']

/-- A descent depends only on what the type stands for. -/
theorem congr (hview : table.view t = table.view u) (h : table.Descent id t rest) :
    table.Descent id u rest := by
  cases h with
  | here hself => exact .here (by rw [← explicitlyDeclares_congr hview, hself])
  | step hself hsupplier hrest =>
    refine .step (by rw [← explicitlyDeclares_congr hview, hself]) ?_ hrest
    rwa [Supplier, ← hview]

theorem isInterface (h : table.Descent id t rest) : table.isInterface t = true := by
  cases h with
  | here hself => exact isInterface_of_declares (declares_iff_embeds.mpr (.inl hself))
  | step _ hsupplier _ =>
    obtain ⟨_, _, _, hview, -⟩ := hsupplier.embeds
    simp only [TypeTable.isInterface, unname, hview, GoType.kind, decide_true]

/-- From every type on the way the descent goes on, and is shorter. -/
theorem of_mem (h : table.Descent id t rest) (hu : u ∈ rest) :
    ∃ rest', table.Descent id u rest' ∧ rest'.length < rest.length := by
  induction h with
  | here => cases hu
  | @step t v rest _ _ hrest ih =>
    rcases List.mem_cons.mp hu with rfl | hu
    · exact ⟨rest, hrest, by rw [List.length_cons]; omega⟩
    · obtain ⟨rest', hrest', hlt⟩ := ih hu
      exact ⟨rest', hrest', by rw [List.length_cons]; omega⟩

/-- No type on the way stands for the same as the one that the descent starts from, since the
descent would be the same again. -/
theorem view_ne (h : table.Descent id t rest) (hu : u ∈ rest) : table.view t ≠ table.view u := by
  intro hview
  obtain ⟨rest', hrest', hlt⟩ := h.of_mem hu
  rw [(h.congr hview).unique hrest'] at hlt
  omega

theorem pairwise (h : table.Descent id t rest) :
    (t :: rest).Pairwise fun t u => table.view t ≠ table.view u := by
  induction h with
  | here => exact List.pairwise_singleton _ _
  | step hself hsupplier hrest ih =>
    exact List.pairwise_cons.mpr ⟨fun v hv => (Descent.step hself hsupplier hrest).view_ne hv, ih⟩

end Descent

/-- What the search finds is a descent. -/
theorem descent_of_descend (h : table.descend id visited t = some rest) :
    table.Descent id t rest := by
  induction hstate : (visited, t) using (wellFounded_turn table id).induction
    generalizing visited t rest with
  | h state ih =>
    subst hstate
    rcases cases_of_descend h with ⟨hself, rfl⟩ | ⟨visited', u, rest', hturn, hrest', rfl⟩
    · exact .here hself
    · have hdescent : table.Descent id u rest' := ih _ hturn hrest' rfl
      cases hturn with
      | named _ _ hself hsupplier => exact .step hself hsupplier hdescent
      | literal _ hself hsupplier => exact .step hself hsupplier hdescent

/-- A descent that has no type with a visited name on it is found. -/
theorem Descent.descend_eq (h : table.Descent id t rest)
    (hclear : ∀ u ∈ t :: rest, table.Clear visited u) :
    table.descend id visited t = some rest := by
  induction h generalizing visited with
  | here hself => exact descend_of_declares (hclear _ List.mem_cons_self) hself
  | @step t u rest hself hsupplier hrest ih =>
    have hne := List.pairwise_cons.mp (Descent.step hself hsupplier hrest).pairwise
    have hrestClear : ∀ v ∈ u :: rest, table.Clear visited v := fun v hv =>
      hclear v (List.mem_cons_of_mem _ hv)
    cases hname : (table.view t).1 with
    | none =>
      rw [descend_of_turn (.literal hname hself hsupplier), ih hrestClear, Option.map_some]
    | some owner =>
      have hvisited : owner ∉ visited := hclear t List.mem_cons_self owner hname
      -- a further type with the name of `t` would stand for the same as `t`
      have hfurther : ∀ v ∈ u :: rest, table.Clear (owner :: visited) v := by
        intro v hv o ho hmem
        rcases List.mem_cons.mp hmem with rfl | hmem
        · exact hne.1 v hv (view_eq_view hname ho)
        · exact hrestClear v hv o ho hmem
      rw [descend_of_turn (.named hname hvisited hself hsupplier), ih hfurther, Option.map_some]

/-- The search finds the descent from a type, if there is one. -/
theorem descend_eq_some_iff :
    table.descend id [] t = some rest ↔ table.Descent id t rest :=
  ⟨descent_of_descend, fun h => h.descend_eq fun _ _ _ _ => List.not_mem_nil⟩

/-! ## Definitions without circles -/

/-- No interface that the type reaches over embeddings reaches itself. -/
def AcyclicFrom (table : TypeTable) (t : GoType) : Prop :=
  ∀ u, ReflTransGen table.Embeds t u → ¬ TransGen table.Embeds u u

/-- The definition of the first name links to the second one, or embeds it. -/
def Refers (table : TypeTable) (n m : TypeName) : Prop :=
  ∃ t, table.definition? n = some t ∧ t.Leads m

/-- No name refers to itself over others. -/
def Acyclic (table : TypeTable) : Prop := ∀ n, ¬ TransGen table.Refers n n

/-- A relation that only leads to elements of lower rank has no circles. -/
theorem not_transGen_of_rank {α : Type} {r : α → α → Prop} (rank : α → Nat)
    (h : ∀ a b, r a b → rank b < rank a) (a : α) : ¬ TransGen r a a := by
  have hlt {b : α} (hpath : TransGen r a b) : rank b < rank a := by
    induction hpath with
    | single hstep => exact h _ _ hstep
    | tail _ hstep ih => exact Nat.lt_trans (h _ _ hstep) ih
  exact fun hcircle => Nat.lt_irrefl _ (hlt hcircle)

/-- A chain of links is one of references. -/
theorem refers_of_resolve? {limit : Nat} {n : TypeName}
    (h : table.resolve? limit n = some (owner, t)) : ReflTransGen table.Refers n owner := by
  induction limit generalizing n with
  | zero => cases h
  | succ limit ih =>
    unfold resolve? at h
    split at h
    · cases h
    · rename_i m hdef
      exact .head ⟨_, hdef, .named m⟩ (ih h)
    · cases h
      exact .refl

/-- A type with a name leads to that name, perhaps over links. -/
theorem leads_of_view (h : table.view t = (some owner, u)) :
    ∃ n, t.Leads n ∧ ReflTransGen table.Refers n owner := by
  unfold view at h
  split at h
  · rename_i n
    split at h
    · rename_i hresolve
      cases h
      exact ⟨n, .named n, refers_of_resolve? hresolve⟩
    · cases h
  · cases h

/-- A type with a name refers to the names that a type on a way from it leads to. -/
theorem refers_of_embeds (hname : (table.view t).1 = some owner)
    (h : TransGen table.Embeds t u) {n : TypeName} (hlead : u.Leads n) :
    TransGen table.Refers owner n := by
  induction h generalizing n with
  | single hstep =>
    obtain ⟨_, _, _, hview, hmem⟩ := hstep
    rw [hview] at hname
    cases hname
    exact .single ⟨_, definition?_of_view hview, .embedded hmem hlead⟩
  | @tail u v _ hstep ih =>
    obtain ⟨o, _, _, hview, hmem⟩ := hstep
    cases o with
    | none =>
      rw [eq_of_view_eq_none hview] at ih
      exact ih (.embedded hmem hlead)
    | some o =>
      obtain ⟨m, hm, hrefers⟩ := leads_of_view hview
      exact ((ih hm).trans_left hrefers).tail ⟨_, definition?_of_view hview, .embedded hmem hlead⟩

/-- A way over embeddings goes through a type with a name, or the types on it get smaller. -/
theorem exists_named_or_lt (h : TransGen table.Embeds t u) :
    (∃ v owner, (table.view v).1 = some owner ∧ ReflTransGen table.Embeds t v ∧
      TransGen table.Embeds v u) ∨ sizeOf u < sizeOf t := by
  have hfirst {t v : GoType} (hstep : table.Embeds t v) :
      (∃ owner, (table.view t).1 = some owner) ∨ sizeOf v < sizeOf t := by
    obtain ⟨o, methods, embedded, hview, hmem⟩ := hstep
    cases o with
    | some owner => exact .inl ⟨owner, by rw [hview]⟩
    | none =>
      have hlt := List.sizeOf_lt_of_mem hmem
      rw [eq_of_view_eq_none hview, GoType.interface.sizeOf_spec]
      exact .inr (by omega)
  induction h using TransGen.head_induction_on with
  | single hstep =>
    rcases hfirst hstep with ⟨owner, hname⟩ | hlt
    · exact .inl ⟨_, owner, hname, .refl, .single hstep⟩
    · exact .inr hlt
  | head hstep hway ih =>
    rcases hfirst hstep with ⟨owner, hname⟩ | hlt
    · exact .inl ⟨_, owner, hname, .refl, .head hstep hway⟩
    · rcases ih with ⟨v, owner, hname, hreach, hrest⟩ | hlt'
      · exact .inl ⟨v, owner, hname, .head hstep hreach, hrest⟩
      · exact .inr (Nat.lt_trans hlt' hlt)

/-- Where no name refers to itself, no interface reaches itself. -/
theorem Acyclic.acyclicFrom (h : table.Acyclic) (t : GoType) : table.AcyclicFrom t := by
  have hnamed {v : GoType} {owner : TypeName} (hname : (table.view v).1 = some owner) :
      ¬ TransGen table.Embeds v v := by
    intro hcircle
    have hview : table.view v = (some owner, (table.view v).2) := by rw [← hname]
    obtain ⟨n, hlead, hrefers⟩ := leads_of_view hview
    exact h owner ((refers_of_embeds hname hcircle hlead).trans_left hrefers)
  intro u _ hcircle
  rcases exists_named_or_lt hcircle with ⟨v, owner, hname, hreach, hrest⟩ | hlt
  · exact hnamed hname (hrest.trans_left hreach)
  · omega

/-- Without circles the search finds a way if there is a method to find. The names it has been to
are those of interfaces on the way to where it stands. -/
theorem isSome_descend (hacyclic : table.AcyclicFrom t)
    (hvisited : ∀ owner ∈ visited, ∃ v, (table.view v).1 = some owner ∧
      TransGen table.Embeds v t)
    (h : table.declares t id = true) : (table.descend id visited t).isSome = true := by
  induction hstate : (visited, t) using (wellFounded_turn table id).induction
    generalizing visited t with
  | h state ih =>
    subst hstate
    -- a visited name of `t` would put `t` on a circle
    have hclear : table.Clear visited t := by
      intro owner hname hmem
      obtain ⟨v, hv, hway⟩ := hvisited owner hmem
      obtain ⟨u, ⟨o, methods, embedded, hview, hu⟩, hreach⟩ := TransGen.head'_iff.mp hway
      rw [view_eq_view hv hname] at hview
      exact hacyclic t .refl (TransGen.head' ⟨o, methods, embedded, hview, hu⟩ hreach)
    cases hself : table.explicitlyDeclares t id with
    | true => rw [descend_of_declares hclear hself, Option.isSome_some]
    | false =>
      obtain ⟨u, hsupplier⟩ := exists_supplier h hself
      have hnext : table.AcyclicFrom u := fun v hv => hacyclic v (.head hsupplier.embeds hv)
      have hbehind : ∀ owner ∈ visited, ∃ v, (table.view v).1 = some owner ∧
          TransGen table.Embeds v u := by
        intro owner hmem
        obtain ⟨v, hv, hway⟩ := hvisited owner hmem
        exact ⟨v, hv, hway.tail hsupplier.embeds⟩
      cases hname : (table.view t).1 with
      | none =>
        have hturn : table.Turn id (visited, t) (visited, u) := .literal hname hself hsupplier
        rw [descend_of_turn hturn, Option.isSome_map]
        exact ih _ hturn hnext hbehind hsupplier.declares rfl
      | some owner =>
        have hturn : table.Turn id (visited, t) (owner :: visited, u) :=
          .named hname (hclear owner hname) hself hsupplier
        rw [descend_of_turn hturn, Option.isSome_map]
        refine ih _ hturn hnext (fun o ho => ?_) hsupplier.declares rfl
        rcases List.mem_cons.mp ho with rfl | ho
        · exact ⟨t, hname, .single hsupplier.embeds⟩
        · exact hbehind o ho

/-- A type from which a descent goes has the method. -/
theorem Descent.declares (h : table.Descent id t rest) :
    table.declares t id = true := by
  cases h with
  | here hself => exact declares_iff_embeds.mpr (.inl hself)
  | step _ hsupplier _ =>
    exact declares_iff_embeds.mpr (.inr ⟨_, hsupplier.embeds, hsupplier.declares⟩)

theorem declares_of_isSome_descend (h : (table.descend id visited t).isSome = true) :
    table.declares t id = true := by
  obtain ⟨rest, hrest⟩ := Option.isSome_iff_exists.mp h
  exact (descent_of_descend hrest).declares

/-- Without circles the search succeeds exactly if the full method set has the method. -/
theorem isSome_descend_iff (hacyclic : table.AcyclicFrom t) :
    (table.descend id [] t).isSome = true ↔ table.declares t id = true :=
  ⟨declares_of_isSome_descend,
    isSome_descend hacyclic fun _ hmem => absurd hmem List.not_mem_nil⟩

end TypeTable

end UncheckedErrors
