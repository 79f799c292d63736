import Mathlib.Logic.Relation
import UncheckedErrors.Embedding

/-!
# Method sets and the interfaces that supply them

The full method set of an interface is what the interfaces reached over embeddings declare
(`declares_iff_reaches`). The walk that collects it goes to no name twice. That loses nothing: from
the last type with a given name on a way, the way goes on without that name (`Way.avoid`).
-/

namespace UncheckedErrors

namespace TypeTable

open Relation

variable {table : TypeTable} {t u : GoType} {owner : TypeName}

/-- The interface under the first type embeds the second type. -/
def Embeds (table : TypeTable) (t u : GoType) : Prop :=
  ∃ owner methods embedded, table.view t = (owner, .interface methods embedded) ∧ u ∈ embedded

/-! ## Views -/

theorem definition?_of_view (h : table.view t = (some owner, u)) :
    table.definition? owner = some u := by
  unfold view at h
  split at h
  · split at h
    · rename_i hr
      cases h
      exact definition?_of_resolve? hr
    · cases h
  · cases h

theorem explicitMethods_of_view {owner : Option TypeName} {methods : List Method}
    {embedded : List GoType} (h : table.view t = (owner, .interface methods embedded)) :
    table.explicitMethods t = methods.map (·.toObject owner (.interface methods embedded)) := by
  rw [explicitMethods, h]

theorem exists_view_of_mem_explicitMethods {m : Object} (h : m ∈ table.explicitMethods t) :
    ∃ owner methods embedded, table.view t = (owner, .interface methods embedded) := by
  unfold explicitMethods at h
  split at h
  · rename_i hview
    exact ⟨_, _, _, hview⟩
  · cases h

/-- Types that are defined under one name have the same view. -/
theorem view_eq_of_owner {body : GoType} (ht : table.view t = (some owner, body))
    (hu : (table.view u).1 = some owner) : table.view u = (some owner, body) := by
  have hview : table.view u = (some owner, (table.view u).2) := by rw [← hu]
  have hbody := definition?_of_view hview
  rw [definition?_of_view ht, Option.some.injEq] at hbody
  rw [hview, ← hbody]

/-! ## Ways around names -/

/-- The type is not defined under one of these names. -/
def Clear (table : TypeTable) (names : List TypeName) (t : GoType) : Prop :=
  ∀ owner, (table.view t).1 = some owner → owner ∉ names

/-- A way over embeddings on which every type is clear of these names. -/
inductive Way (table : TypeTable) (names : List TypeName) : GoType → GoType → Prop
  | here {t : GoType} : table.Clear names t → Way table names t t
  | step {t u v : GoType} :
    table.Clear names t → table.Embeds t u → Way table names u v → Way table names t v

theorem Way.clear {names : List TypeName} (h : table.Way names t u) : table.Clear names t := by
  cases h with
  | here hclear => exact hclear
  | step hclear _ _ => exact hclear

theorem way_of_reaches (h : ReflTransGen table.Embeds t u) : table.Way [] t u := by
  induction h using ReflTransGen.head_induction_on with
  | refl => exact .here fun _ _ => List.not_mem_nil
  | head hstep _ ih => exact .step (fun _ _ => List.not_mem_nil) hstep ih

/-- A way either is clear of a further name, or it is from its last type with that name on. -/
theorem Way.avoid {names : List TypeName} (h : table.Way names t u) (owner : TypeName) :
    table.Way (owner :: names) t u ∨
      ∃ w, (table.view w).1 = some owner ∧
        (w = u ∨ ∃ x, table.Embeds w x ∧ table.Way (owner :: names) x u) := by
  have hclear {v : GoType} (hv : table.Clear names v) (hne : (table.view v).1 ≠ some owner) :
      table.Clear (owner :: names) v := by
    intro o ho hmem
    rcases List.mem_cons.mp hmem with rfl | hmem
    · exact hne ho
    · exact hv o ho hmem
  induction h with
  | @here t ht =>
    by_cases howner : (table.view t).1 = some owner
    · exact .inr ⟨t, howner, .inl rfl⟩
    · exact .inl (.here (hclear ht howner))
  | @step t v u ht hstep _ ih =>
    rcases ih with hway | hlast
    · by_cases howner : (table.view t).1 = some owner
      · exact .inr ⟨t, howner, .inr ⟨v, hstep, hway⟩⟩
      · exact .inl (.step (hclear ht howner) hstep hway)
    · exact .inr hlast

/-- A way to a type that declares something starts at an interface. -/
theorem Way.exists_view {names : List TypeName} {m : Object} (h : table.Way names t u)
    (hm : m ∈ table.explicitMethods u) :
    ∃ owner methods embedded, table.view t = (owner, .interface methods embedded) := by
  cases h with
  | here => exact exists_view_of_mem_explicitMethods hm
  | step _ hstep _ =>
    obtain ⟨owner, methods, embedded, hview, -⟩ := hstep
    exact ⟨owner, methods, embedded, hview⟩

/-- A way does not come to an interface, or else what is declared at its end is declared by the
interface or at the end of a way from something it embeds. -/
theorem Way.avoid_of_view {owner : Option TypeName} {names : List TypeName}
    {methods : List Method} {embedded : List GoType} {v : GoType} {m : Object}
    (hview : table.view v = (owner, .interface methods embedded)) (h : table.Way names t u)
    (hm : m ∈ table.explicitMethods u) :
    table.Way (owner.toList ++ names) t u ∨
      m ∈ table.explicitMethods v ∨ ∃ x ∈ embedded, table.Way (owner.toList ++ names) x u := by
  cases owner with
  | none => exact .inl h
  | some owner =>
    refine (h.avoid owner).imp_right ?_
    rintro ⟨w, hw, hlast⟩
    have hwview := view_eq_of_owner hview hw
    rcases hlast with rfl | ⟨x, ⟨o, ms, es, hes, hx⟩, hway⟩
    · rw [explicitMethods_of_view hwview] at hm
      rw [explicitMethods_of_view hview]
      exact .inl hm
    · rw [hwview] at hes
      cases hes
      exact .inr ⟨x, hx, hway⟩

/-- What is declared at the end of a way from an interface is declared by the interface, or at the
end of a way from something it embeds. The latter way does not come back to the interface. -/
theorem Way.cases_of_view {owner : Option TypeName} {names : List TypeName}
    {methods : List Method} {embedded : List GoType} {m : Object}
    (hview : table.view t = (owner, .interface methods embedded)) (h : table.Way names t u)
    (hm : m ∈ table.explicitMethods u) :
    m ∈ table.explicitMethods t ∨ ∃ x ∈ embedded, table.Way (owner.toList ++ names) x u := by
  cases owner with
  | none =>
    cases h with
    | here => exact .inl hm
    | @step _ x _ _ hstep hway =>
      obtain ⟨o, ms, es, hes, hx⟩ := hstep
      rw [hview] at hes
      cases hes
      exact .inr ⟨x, hx, hway⟩
  | some owner =>
    refine (h.avoid_of_view hview hm).resolve_left fun havoid => ?_
    exact havoid.clear owner (by rw [hview]) List.mem_cons_self

/-! ## What the walk collects -/

/-- The walk without the proofs that it ends. -/
theorem methodsFrom_cons (table : TypeTable) (visited : List TypeName) (t : GoType)
    (work : List GoType) :
    table.methodsFrom visited (t :: work) =
      match table.view t with
      | (some owner, .interface methods embedded) =>
        if owner ∈ visited then table.methodsFrom visited work
        else
          methods.map (·.toObject (some owner) (.interface methods embedded)) ++
            table.methodsFrom (owner :: visited) (embedded ++ work)
      | (none, .interface methods embedded) =>
        methods.map (·.toObject none (.interface methods embedded)) ++
          table.methodsFrom visited (embedded ++ work)
      | _ => table.methodsFrom visited work := by
  rw [TypeTable.methodsFrom]
  obtain ⟨owner, u⟩ := table.view t
  cases owner <;> cases u <;> rfl

/-- The walk goes into an interface that is not defined under a name it has been to. -/
theorem methodsFrom_cons_of_clear {visited : List TypeName} {work : List GoType}
    {owner : Option TypeName} {methods : List Method} {embedded : List GoType}
    (hview : table.view t = (owner, .interface methods embedded))
    (hclear : table.Clear visited t) :
    table.methodsFrom visited (t :: work) = table.explicitMethods t ++
      table.methodsFrom (owner.toList ++ visited) (embedded ++ work) := by
  rw [methodsFrom_cons, explicitMethods_of_view hview, hview]
  cases owner with
  | none => rfl
  | some owner => exact if_neg (hclear owner (by rw [hview]))

theorem methodsFrom_cons_of_not_clear {visited : List TypeName} {work : List GoType}
    (hclear : ¬ table.Clear visited t) :
    table.methodsFrom visited (t :: work) = table.methodsFrom visited work := by
  rw [methodsFrom_cons]
  split
  · rename_i owner methods embedded hview
    refine if_pos (Decidable.not_not.mp fun hvisited => hclear ?_)
    intro o ho
    rw [hview, Option.some.injEq] at ho
    rwa [← ho]
  · rename_i hview
    refine absurd (fun o ho => ?_) hclear
    rw [hview] at ho
    cases ho
  · rfl

theorem methodsFrom_cons_of_view {visited : List TypeName} {work : List GoType}
    (hview : ∀ owner methods embedded, table.view t ≠ (owner, .interface methods embedded)) :
    table.methodsFrom visited (t :: work) = table.methodsFrom visited work := by
  rw [methodsFrom_cons]
  split
  · exact absurd ‹_› (hview _ _ _)
  · exact absurd ‹_› (hview _ _ _)
  · rfl

/-- Whatever the walk meets is declared by an interface that the types at hand reach. -/
theorem reaches_of_mem_methodsFrom {visited : List TypeName} {work : List GoType} {m : Object}
    (h : m ∈ table.methodsFrom visited work) :
    ∃ t ∈ work, ∃ u, ReflTransGen table.Embeds t u ∧ m ∈ table.explicitMethods u := by
  -- a method found from the embedded types is found from the type in front
  have hfront {t : GoType} {owner : Option TypeName} {methods : List Method}
      {embedded work : List GoType}
      (hview : table.view t = (owner, .interface methods embedded))
      (hih : ∃ v ∈ embedded ++ work, ∃ u, ReflTransGen table.Embeds v u ∧
        m ∈ table.explicitMethods u) :
      ∃ v ∈ t :: work, ∃ u, ReflTransGen table.Embeds v u ∧ m ∈ table.explicitMethods u := by
    obtain ⟨v, hv, u, hreach, hm⟩ := hih
    rcases List.mem_append.mp hv with hv | hv
    · exact ⟨t, List.mem_cons_self, u, .head ⟨_, _, _, hview, hv⟩ hreach, hm⟩
    · exact ⟨v, List.mem_cons_of_mem _ hv, u, hreach, hm⟩
  fun_induction methodsFrom table visited work with
  | case1 => cases h
  | case2 visited t work owner methods embedded hview hvisited ih =>
    obtain ⟨v, hv, hreach⟩ := ih h
    exact ⟨v, List.mem_cons_of_mem _ hv, hreach⟩
  | case3 visited t work owner methods embedded hview hvisited ih =>
    rcases List.mem_append.mp h with hm | hm
    · exact ⟨t, List.mem_cons_self, t, .refl, by rwa [explicitMethods_of_view hview]⟩
    · exact hfront hview (ih hm)
  | case4 visited t work methods embedded hview ih =>
    rcases List.mem_append.mp h with hm | hm
    · exact ⟨t, List.mem_cons_self, t, .refl, by rwa [explicitMethods_of_view hview]⟩
    · exact hfront hview (ih hm)
  | case5 visited t work hnamed hliteral ih =>
    obtain ⟨v, hv, hreach⟩ := ih h
    exact ⟨v, List.mem_cons_of_mem _ hv, hreach⟩

/-- The walk meets what an interface declares if a way leads there that is clear of the names it has
been to. -/
theorem mem_methodsFrom {visited : List TypeName} {work : List GoType} {m : Object} (ht : t ∈ work)
    (hway : table.Way visited t u) (hm : m ∈ table.explicitMethods u) :
    m ∈ table.methodsFrom visited work := by
  fun_induction methodsFrom table visited work generalizing t with
  | case1 => cases ht
  | case2 visited v work owner methods embedded hview hvisited ih =>
    rcases List.mem_cons.mp ht with rfl | ht
    · exact absurd hvisited (hway.clear owner (by rw [hview]))
    · exact ih ht hway
  | case3 visited v work owner methods embedded hview hvisited ih =>
    rw [← explicitMethods_of_view hview, List.mem_append]
    rcases hway.avoid_of_view hview hm with havoid | hown | ⟨x, hx, hway⟩
    · rcases List.mem_cons.mp ht with rfl | ht
      · exact absurd List.mem_cons_self (havoid.clear owner (by rw [hview]))
      · exact .inr (ih (List.mem_append_right _ ht) havoid)
    · exact .inl hown
    · exact .inr (ih (List.mem_append_left _ hx) hway)
  | case4 visited v work methods embedded hview ih =>
    rw [← explicitMethods_of_view hview, List.mem_append]
    rcases List.mem_cons.mp ht with rfl | ht
    · refine (hway.cases_of_view hview hm).imp_right ?_
      rintro ⟨x, hx, hway⟩
      exact ih (List.mem_append_left _ hx) hway
    · exact .inr (ih (List.mem_append_right _ ht) hway)
  | case5 visited v work hnamed hliteral ih =>
    rcases List.mem_cons.mp ht with rfl | ht
    · obtain ⟨o, ms, es, hinterface⟩ := hway.exists_view hm
      cases o with
      | none => exact absurd hinterface (hliteral ms es)
      | some owner => exact absurd hinterface (hnamed owner ms es)
    · exact ih ht hway

theorem any_id_distinctById (id : String) (seen : List String) (ms : List Object) :
    (∃ m ∈ distinctById seen ms, m.id = id) ↔ id ∉ seen ∧ ∃ m ∈ ms, m.id = id := by
  induction ms generalizing seen with
  | nil => simp [distinctById]
  | cons m ms ih =>
    unfold distinctById
    split
    · rename_i hseen
      rw [ih]
      simp only [List.mem_cons, exists_eq_or_imp, and_congr_right_iff, iff_or_self]
      rintro hnot rfl
      exact absurd hseen hnot
    · rename_i hseen
      simp only [List.mem_cons, exists_eq_or_imp, ih, not_or]
      constructor
      · rintro (rfl | ⟨⟨-, hnot⟩, hms⟩)
        · exact ⟨hseen, .inl rfl⟩
        · exact ⟨hnot, .inr hms⟩
      · rintro ⟨hnot, hm | hms⟩
        · exact .inl hm
        · by_cases hid : id = m.id
          · exact .inl hid.symm
          · exact .inr ⟨⟨hid, hnot⟩, hms⟩

/-- The full method set of an interface has what the interfaces reached from it declare. -/
theorem declares_iff_reaches {id : String} :
    table.declares t id = true ↔
      ∃ u, ReflTransGen table.Embeds t u ∧ table.explicitlyDeclares u id = true := by
  unfold declares explicitlyDeclares allMethods
  simp only [List.any_eq_true, beq_iff_eq]
  rw [any_id_distinctById]
  constructor
  · rintro ⟨-, m, hm, hid⟩
    obtain ⟨v, hv, u, hreach, hu⟩ := reaches_of_mem_methodsFrom hm
    rw [List.mem_singleton] at hv
    subst hv
    exact ⟨u, hreach, m, hu, hid⟩
  · rintro ⟨u, hreach, m, hm, hid⟩
    exact ⟨List.not_mem_nil, m,
      mem_methodsFrom List.mem_cons_self (way_of_reaches hreach) hm, hid⟩

theorem declares_iff_embeds {id : String} :
    table.declares t id = true ↔ table.explicitlyDeclares t id = true ∨
      ∃ u, table.Embeds t u ∧ table.declares u id = true := by
  rw [declares_iff_reaches]
  constructor
  · rintro ⟨u, hreach, hu⟩
    rcases hreach.cases_head with rfl | ⟨v, hstep, hreach⟩
    · exact .inl hu
    · exact .inr ⟨v, hstep, declares_iff_reaches.mpr ⟨u, hreach, hu⟩⟩
  · rintro (ht | ⟨v, hstep, hv⟩)
    · exact ⟨t, .refl, ht⟩
    · obtain ⟨u, hreach, hu⟩ := declares_iff_reaches.mp hv
      exact ⟨u, .head hstep hreach, hu⟩

/-- Only an interface has methods. -/
theorem exists_view_of_declares {id : String} (h : table.declares t id = true) :
    ∃ owner methods embedded, table.view t = (owner, .interface methods embedded) := by
  rcases declares_iff_embeds.mp h with ht | ⟨u, ⟨owner, methods, embedded, hview, -⟩, -⟩
  · obtain ⟨m, hm, -⟩ := List.any_eq_true.mp ht
    exact exists_view_of_mem_explicitMethods hm
  · exact ⟨owner, methods, embedded, hview⟩

theorem isInterface_of_declares {id : String} (h : table.declares t id = true) :
    table.isInterface t = true := by
  obtain ⟨owner, methods, embedded, hview⟩ := exists_view_of_declares h
  simp [isInterface, unname, hview, GoType.kind]

end TypeTable

end UncheckedErrors
