import UncheckedErrors.Proofs.MethodSets

/-!
# Method sets in order of declaration

The members of an interface are its methods and then what it embeds, both in order. A path of
members, told by their numbers, leads from an interface over embedded ones to a declared method
(`TypeTable.DeclaredAt`), and depth-first order is the lexicographic order of these paths. A path
comes to no name twice; interfaces that embed each other in a circle have endless paths otherwise.

The full method set holds, for each identity that is declared at some path, the method at the first
such path, in the order of these paths (`TypeTable.allMethods_in_order`). The walk that collects it
keeps the names it has been to over all paths, and not for each path by itself. So it passes over
paths, but only over such as have no method that is not already found (`TypeTable.Settled`).
-/

namespace UncheckedErrors

namespace TypeTable

open Relation

variable {table : TypeTable} {names visited : List TypeName} {seen : List String} {t u : GoType}
  {ts : List GoType} {n : Nat} {m : Object}

instance (names : List TypeName) (t : GoType) : Decidable (table.Clear names t) :=
  decidable_of_iff ((table.view t).1.all (· ∉ names) = true) <| by
    unfold Clear
    cases (table.view t).1 <;> simp

/-! ## Paths -/

/-- The method `m` is declared at a path of members from `t`. The methods of an interface are
numbered before what it embeds. A path comes to no name twice, nor to one of `names`. -/
inductive DeclaredAt (table : TypeTable) :
    List TypeName → GoType → List Nat → Object → Prop
  | own {names : List TypeName} {t : GoType} {k : Nat} {m : Object} :
    table.Clear names t → (table.explicitMethods t)[k]? = some m → DeclaredAt table names t [k] m
  | embedded {names : List TypeName} {t u : GoType} {owner : Option TypeName}
    {methods : List Method} {embedded : List GoType} {i : Nat} {path : List Nat} {m : Object} :
    table.view t = (owner, .interface methods embedded) → table.Clear names t →
      embedded[i]? = some u → DeclaredAt table (owner.toList ++ names) u path m →
        DeclaredAt table names t ((methods.length + i) :: path) m

/-- The method `m` is declared at this path, and none with its identity is at an earlier one. -/
def FirstDeclared (table : TypeTable) (t : GoType) (path : List Nat) (m : Object) : Prop :=
  table.DeclaredAt [] t path m ∧
    ∀ earlier m', table.DeclaredAt [] t earlier m' → m'.id = m.id →
      ¬ List.Lex (· < ·) earlier path

/-- What is declared at paths from some types, in depth-first order. The types are numbered from `n`
on. -/
def declarations (table : TypeTable) (names : List TypeName) (n : Nat) :
    List GoType → List (List Nat × Object)
  | [] => []
  | t :: ts =>
    match _h : table.view t with
    | (owner, .interface methods embedded) =>
      if table.Clear names t then
        (table.explicitMethods t).mapIdx (fun k m => ([n, k], m)) ++
          ((table.declarations (owner.toList ++ names) methods.length embedded).map
              (fun d => (n :: d.1, d.2)) ++
            table.declarations names (n + 1) ts)
      else table.declarations names (n + 1) ts
    | _ => table.declarations names (n + 1) ts
termination_by ts => (table.unvisited names, GoType.weight ts)
decreasing_by
  · rename_i hclear
    cases owner with
    | none =>
      have hlt := GoType.weight_embedded_lt methods embedded
      rw [← eq_of_view_eq_none _h] at hlt
      exact Prod.Lex.right _ (by rw [GoType.weight_cons]; omega)
    | some owner =>
      have hview : (table.view t).1 = some owner := by rw [_h]
      exact Prod.Lex.left _ _ (unvisited_cons_lt (mem_names_of_view hview) (hclear owner hview))
  all_goals
    have hle := GoType.one_le_sizeOf t
    exact Prod.Lex.right _ (by rw [GoType.weight_cons]; omega)

/-! ## The list of declarations -/

/-- A method is declared at a path from one of some types, which are numbered from `n` on. -/
def DeclaredAmong (table : TypeTable) (names : List TypeName) (n : Nat) (ts : List GoType)
    (path : List Nat) (m : Object) : Prop :=
  ∃ i t rest, ts[i]? = some t ∧ path = (n + i) :: rest ∧ table.DeclaredAt names t rest m

theorem declaredAmong_cons {path : List Nat} :
    table.DeclaredAmong names n (t :: ts) path m ↔
      (∃ rest, path = n :: rest ∧ table.DeclaredAt names t rest m) ∨
        table.DeclaredAmong names (n + 1) ts path m := by
  constructor
  · rintro ⟨i, u, rest, hu, rfl, hdeclared⟩
    cases i with
    | zero =>
      obtain rfl : t = u := Option.some.inj hu
      exact .inl ⟨rest, rfl, hdeclared⟩
    | succ i => exact .inr ⟨i, u, rest, hu, by rw [Nat.succ_add_eq_add_succ], hdeclared⟩
  · rintro (⟨rest, rfl, hdeclared⟩ | ⟨i, u, rest, hu, rfl, hdeclared⟩)
    · exact ⟨0, t, rest, rfl, rfl, hdeclared⟩
    · exact ⟨i + 1, u, rest, hu, by rw [Nat.succ_add_eq_add_succ], hdeclared⟩

theorem declaredAt_iff_of_view {owner : Option TypeName} {methods : List Method}
    {embedded : List GoType} (hview : table.view t = (owner, .interface methods embedded))
    (hclear : table.Clear names t) {path : List Nat} :
    table.DeclaredAt names t path m ↔
      (∃ k, path = [k] ∧ (table.explicitMethods t)[k]? = some m) ∨
        table.DeclaredAmong (owner.toList ++ names) methods.length embedded path m := by
  constructor
  · intro h
    cases h with
    | own _ hm => exact .inl ⟨_, rfl, hm⟩
    | embedded hview' _ hu hdeclared =>
      rw [hview] at hview'
      cases hview'
      exact .inr ⟨_, _, _, hu, rfl, hdeclared⟩
  · rintro (⟨k, rfl, hm⟩ | ⟨i, u, rest, hu, rfl, hdeclared⟩)
    · exact .own hclear hm
    · exact .embedded hview hclear hu hdeclared

theorem DeclaredAt.clear {path : List Nat} (h : table.DeclaredAt names t path m) :
    table.Clear names t := by
  cases h with
  | own hclear _ => exact hclear
  | embedded _ hclear _ _ => exact hclear

/-- Only an interface has declarations. -/
theorem DeclaredAt.exists_view {path : List Nat} (h : table.DeclaredAt names t path m) :
    ∃ owner methods embedded, table.view t = (owner, .interface methods embedded) := by
  cases h with
  | own _ hm => exact exists_view_of_mem_explicitMethods (List.mem_of_getElem? hm)
  | embedded hview _ _ _ => exact ⟨_, _, _, hview⟩

theorem mem_declarations {d : List Nat × Object} :
    d ∈ table.declarations names n ts ↔ table.DeclaredAmong names n ts d.1 d.2 := by
  fun_induction declarations table names n ts generalizing d with
  | case1 => simp [DeclaredAmong]
  | case2 names n t ts owner methods embedded hview hclear ihembedded ihts =>
    obtain ⟨path, m⟩ := d
    rw [List.mem_append, List.mem_append, ihts, declaredAmong_cons, ← or_assoc]
    refine or_congr ?_ Iff.rfl
    simp only [declaredAt_iff_of_view hview hclear, List.mem_mapIdx, List.mem_map, Prod.exists,
      Prod.mk.injEq, ihembedded]
    constructor
    · rintro (⟨k, hk, rfl, rfl⟩ | ⟨rest, m, hamong, rfl, rfl⟩)
      · exact ⟨[k], rfl, .inl ⟨k, rfl, List.getElem?_eq_getElem hk⟩⟩
      · exact ⟨rest, rfl, .inr hamong⟩
    · rintro ⟨rest, rfl, ⟨k, rfl, hm⟩ | hamong⟩
      · obtain ⟨hk, hm⟩ := List.getElem?_eq_some_iff.mp hm
        exact .inl ⟨k, hk, rfl, hm⟩
      · exact .inr ⟨rest, m, hamong, rfl, rfl⟩
  | case3 names n t ts owner methods embedded hview hclear ihts =>
    rw [ihts, declaredAmong_cons, or_iff_right]
    rintro ⟨rest, -, hdeclared⟩
    exact hclear hdeclared.clear
  | case4 names n t ts hview ihts =>
    rw [ihts, declaredAmong_cons, or_iff_right]
    rintro ⟨rest, -, hdeclared⟩
    obtain ⟨owner, methods, embedded, hinterface⟩ := hdeclared.exists_view
    exact hview _ _ _ hinterface

/-- The paths from some types start with the numbers of the types. -/
theorem exists_path_of_mem_declarations {d : List Nat × Object}
    (h : d ∈ table.declarations names n ts) : ∃ k rest, n ≤ k ∧ d.1 = k :: rest := by
  obtain ⟨i, t, rest, -, hpath, -⟩ := mem_declarations.mp h
  exact ⟨n + i, rest, Nat.le_add_right n i, hpath⟩

/-- The paths are listed in depth-first order. -/
theorem pairwise_declarations :
    (table.declarations names n ts).Pairwise fun d d' => List.Lex (· < ·) d.1 d'.1 := by
  fun_induction declarations table names n ts with
  | case1 => exact .nil
  | case2 names n t ts owner methods embedded hview hclear ihembedded ihts =>
    have hlength : (table.explicitMethods t).length = methods.length := by
      rw [explicitMethods_of_view hview, List.length_map]
    rw [List.pairwise_append, List.pairwise_append]
    refine ⟨?_, ⟨?_, ihts, ?_⟩, ?_⟩
    · -- the methods of the interface, by their numbers
      rw [List.pairwise_iff_getElem]
      intro i j hi hj hlt
      simp only [List.getElem_mapIdx]
      exact .cons (.rel hlt)
    · exact List.pairwise_map.mpr (ihembedded.imp .cons)
    · intro d hd later hlater
      obtain ⟨⟨path, m⟩, -, rfl⟩ := List.mem_map.mp hd
      obtain ⟨k, rest, hk, hpath⟩ := exists_path_of_mem_declarations hlater
      rw [hpath]
      exact .rel (by omega)
    · intro d hd later hlater
      obtain ⟨k, hk, rfl⟩ := List.mem_mapIdx.mp hd
      rcases List.mem_append.mp hlater with hlater | hlater
      · obtain ⟨⟨path, m⟩, hmem, rfl⟩ := List.mem_map.mp hlater
        obtain ⟨j, rest, hj, hpath⟩ := exists_path_of_mem_declarations hmem
        obtain rfl : path = j :: rest := hpath
        exact .cons (.rel (by omega))
      · obtain ⟨j, rest, hj, hpath⟩ := exists_path_of_mem_declarations hlater
        rw [hpath]
        exact .rel (by omega)
  | case3 names n t ts owner methods embedded hview hclear ihts => exact ihts
  | case4 names n t ts hview ihts => exact ihts

/-- What is declared at paths from some types, without the paths. -/
def declared (table : TypeTable) (names : List TypeName) (n : Nat) (ts : List GoType) :
    List Object :=
  (table.declarations names n ts).map (·.2)

/-- First comes what the first type declares itself, and then what is declared from what it
embeds. -/
theorem declared_cons {owner : Option TypeName} {methods : List Method} {embedded : List GoType}
    (hview : table.view t = (owner, .interface methods embedded))
    (hclear : table.Clear names t) :
    table.declared names n (t :: ts) = table.explicitMethods t ++
      (table.declared (owner.toList ++ names) methods.length embedded ++
        table.declared names (n + 1) ts) := by
  rw [declared, declarations]
  split
  · rename_i hview'
    rw [hview] at hview'
    cases hview'
    rw [if_pos hclear, List.map_append, List.map_append, List.map_map]
    congr 1
    exact List.ext_getElem (by simp) (by simp)
  · rename_i hno
    exact absurd hview (hno _ _ _)

theorem declared_cons_of_not_clear (hclear : ¬ table.Clear names t) :
    table.declared names n (t :: ts) = table.declared names (n + 1) ts := by
  rw [declared, declarations]
  split
  · rw [if_neg hclear]
    rfl
  · rfl

theorem declared_cons_of_view
    (hview : ∀ owner methods embedded, table.view t ≠ (owner, .interface methods embedded)) :
    table.declared names n (t :: ts) = table.declared names (n + 1) ts := by
  rw [declared, declarations]
  split
  · rename_i hview'
    exact absurd hview' (hview _ _ _)
  · rfl

/-! ## Paths and ways -/

theorem Clear.of_append {names' : List TypeName} (h : table.Clear (names' ++ names) t) :
    table.Clear names t :=
  fun owner howner hmem => h owner howner (List.mem_append_right _ hmem)

theorem Way.of_append {names' : List TypeName} (h : table.Way (names' ++ names) t u) :
    table.Way names t u := by
  induction h with
  | here hclear => exact .here hclear.of_append
  | step hclear hstep _ ih => exact .step hclear.of_append hstep ih

/-- A path goes a way. -/
theorem DeclaredAt.exists_way {path : List Nat} (h : table.DeclaredAt names t path m) :
    ∃ u, table.Way names t u ∧ m ∈ table.explicitMethods u := by
  induction h with
  | own hclear hm => exact ⟨_, .here hclear, List.mem_of_getElem? hm⟩
  | embedded hview hclear hu _ ih =>
    obtain ⟨u, hway, hm⟩ := ih
    exact ⟨u, .step hclear ⟨_, _, _, hview, List.mem_of_getElem? hu⟩ hway.of_append, hm⟩

/-- What is declared at the end of a way is declared at a path, though the way may come to a name
twice. -/
theorem mem_declared_of_way (ht : t ∈ ts) (hway : table.Way names t u)
    (hm : m ∈ table.explicitMethods u) : m ∈ table.declared names n ts := by
  fun_induction declarations table names n ts generalizing t with
  | case1 => cases ht
  | case2 names n v ts owner methods embedded hview hclear ihembedded ihts =>
    rw [declared_cons hview hclear, List.mem_append, List.mem_append]
    rcases List.mem_cons.mp ht with rfl | ht
    · rcases hway.cases_of_view hview hm with hown | ⟨x, hx, hway⟩
      · exact .inl hown
      · exact .inr (.inl (ihembedded hx hway))
    · exact .inr (.inr (ihts ht hway))
  | case3 names n v ts owner methods embedded hview hclear ihts =>
    rw [declared_cons_of_not_clear hclear]
    rcases List.mem_cons.mp ht with rfl | ht
    · exact absurd hway.clear hclear
    · exact ihts ht hway
  | case4 names n v ts hview ihts =>
    rw [declared_cons_of_view hview]
    rcases List.mem_cons.mp ht with rfl | ht
    · obtain ⟨owner, methods, embedded, hinterface⟩ := hway.exists_view hm
      exact absurd hinterface (hview _ _ _)
    · exact ihts ht hway

theorem mem_declared :
    m ∈ table.declared names n ts ↔
      ∃ t ∈ ts, ∃ u, table.Way names t u ∧ m ∈ table.explicitMethods u := by
  constructor
  · intro h
    obtain ⟨d, hd, rfl⟩ := List.mem_map.mp h
    obtain ⟨i, t, rest, ht, -, hdeclared⟩ := mem_declarations.mp hd
    exact ⟨t, List.mem_of_getElem? ht, DeclaredAt.exists_way hdeclared⟩
  · rintro ⟨t, ht, u, hway, hm⟩
    exact mem_declared_of_way ht hway hm

/-! ## Distinct identities -/

theorem distinctById_congr {seen' : List String} {ms : List Object}
    (h : ∀ id, id ∈ seen ↔ id ∈ seen') : distinctById seen ms = distinctById seen' ms := by
  induction ms generalizing seen seen' with
  | nil => rfl
  | cons m ms ih =>
    have hcons (id : String) : id ∈ m.id :: seen ↔ id ∈ m.id :: seen' := by
      rw [List.mem_cons, List.mem_cons, h]
    simp only [distinctById, h, ih h, ih hcons]

theorem distinctById_append (seen : List String) (ms ms' : List Object) :
    distinctById seen (ms ++ ms') =
      distinctById seen ms ++ distinctById (ms.map (·.id) ++ seen) ms' := by
  induction ms generalizing seen with
  | nil => rfl
  | cons m ms ih =>
    rw [List.cons_append, distinctById, distinctById]
    split
    · rename_i hseen
      rw [ih]
      congr 1
      refine distinctById_congr fun id => ?_
      rw [List.map_cons, List.cons_append, List.mem_cons]
      refine (or_iff_right_of_imp ?_).symm
      rintro rfl
      exact List.mem_append_right _ hseen
    · rw [ih, List.cons_append]
      congr 2
      refine distinctById_congr fun id => ?_
      rw [List.map_cons, List.cons_append, List.mem_cons, List.mem_append, List.mem_append,
        List.mem_cons, or_left_comm]

theorem distinctById_append_congr {ms ms₁ ms₂ : List Object}
    (h : distinctById (ms.map (·.id) ++ seen) ms₁ = distinctById (ms.map (·.id) ++ seen) ms₂) :
    distinctById seen (ms ++ ms₁) = distinctById seen (ms ++ ms₂) := by
  rw [distinctById_append, distinctById_append, h]

/-- Methods whose identities came before are dropped. -/
theorem distinctById_append_of_seen {ms : List Object} (h : ∀ m ∈ ms, m.id ∈ seen)
    (ms' : List Object) : distinctById seen (ms ++ ms') = distinctById seen ms' := by
  induction ms with
  | nil => rfl
  | cons m ms ih =>
    rw [List.cons_append, distinctById, if_pos (h m List.mem_cons_self)]
    exact ih fun m' hm' => h m' (List.mem_cons_of_mem _ hm')

theorem nodup_ids_distinctById (seen : List String) (ms : List Object) :
    ((distinctById seen ms).map (·.id)).Nodup := by
  induction ms generalizing seen with
  | nil => exact .nil
  | cons m ms ih =>
    rw [distinctById]
    split
    · exact ih seen
    · refine List.nodup_cons.mpr ⟨fun hmem => ?_, ih _⟩
      obtain ⟨m', hm', hid⟩ := List.mem_map.mp hmem
      have hfresh := (any_id_distinctById m.id (m.id :: seen) ms).mp ⟨m', hm', hid⟩
      exact hfresh.1 List.mem_cons_self

/-- What is kept are the first declarations of their identities, in order. -/
theorem exists_firsts (seen : List String) (ds : List (List Nat × Object)) :
    ∃ firsts : List (List Nat × Object),
      distinctById seen (ds.map (·.2)) = firsts.map (·.2) ∧ firsts.Sublist ds ∧
        ∀ d, d ∈ firsts ↔ d.2.id ∉ seen ∧ ds.find? (·.2.id == d.2.id) = some d := by
  induction ds generalizing seen with
  | nil => exact ⟨[], rfl, .slnil, by simp⟩
  | cons d ds ih =>
    rw [List.map_cons, distinctById]
    split
    · rename_i hseen
      obtain ⟨firsts, hfirsts, hsub, hmem⟩ := ih seen
      refine ⟨firsts, hfirsts, hsub.cons d, fun d' => ?_⟩
      rw [hmem, and_congr_right_iff]
      intro hfresh
      have hne : d.2.id ≠ d'.2.id := fun heq => hfresh (heq ▸ hseen)
      rw [List.find?_cons_of_neg (by simpa using hne)]
    · rename_i hseen
      obtain ⟨firsts, hfirsts, hsub, hmem⟩ := ih (d.2.id :: seen)
      refine ⟨d :: firsts, by rw [hfirsts, List.map_cons], hsub.cons_cons d, fun d' => ?_⟩
      rw [List.mem_cons, hmem, List.mem_cons, not_or]
      by_cases heq : d.2.id = d'.2.id
      · rw [List.find?_cons_of_pos (by simpa using heq), Option.some.injEq]
        constructor
        · rintro (rfl | ⟨⟨hne, -⟩, -⟩)
          · exact ⟨hseen, rfl⟩
          · exact absurd heq.symm hne
        · rintro ⟨-, rfl⟩
          exact .inl rfl
      · rw [List.find?_cons_of_neg (by simpa using heq)]
        constructor
        · rintro (rfl | ⟨⟨-, hfresh⟩, hfind⟩)
          · exact absurd rfl heq
          · exact ⟨hfresh, hfind⟩
        · rintro ⟨hfresh, hfind⟩
          exact .inr ⟨⟨Ne.symm heq, hfresh⟩, hfind⟩

/-- The first of the elements with a property, where the elements stand in an asymmetric order. -/
theorem find?_eq_some_iff_of_pairwise {α : Type} {r : α → α → Prop} {p : α → Bool} {l : List α}
    {a : α} (hl : l.Pairwise r) (hr : ∀ a b, r a b → ¬ r b a) :
    l.find? p = some a ↔ a ∈ l ∧ p a = true ∧ ∀ b ∈ l, p b = true → ¬ r b a := by
  induction l with
  | nil => simp
  | cons x l ih =>
    obtain ⟨hx, hl⟩ := List.pairwise_cons.mp hl
    by_cases hp : p x = true
    · rw [List.find?_cons_of_pos hp, Option.some.injEq]
      constructor
      · rintro rfl
        refine ⟨List.mem_cons_self, hp, fun b hb _ hbx => ?_⟩
        rcases List.mem_cons.mp hb with rfl | hb
        · exact hr _ _ hbx hbx
        · exact hr _ _ hbx (hx b hb)
      · rintro ⟨ha, -, hleast⟩
        rcases List.mem_cons.mp ha with rfl | ha
        · rfl
        · exact absurd (hx a ha) (hleast x List.mem_cons_self hp)
    · rw [List.find?_cons_of_neg hp, ih hl]
      constructor
      · rintro ⟨ha, hpa, hleast⟩
        refine ⟨List.mem_cons_of_mem _ ha, hpa, fun b hb hpb => ?_⟩
        rcases List.mem_cons.mp hb with rfl | hb
        · exact absurd hpb hp
        · exact hleast b hb hpb
      · rintro ⟨ha, hpa, hleast⟩
        rcases List.mem_cons.mp ha with rfl | ha
        · exact absurd hpa hp
        · exact ⟨ha, hpa, fun b hb => hleast b (List.mem_cons_of_mem _ hb)⟩

/-! ## What the walk passes over -/

/-- The walk has been to the names of `visited`, and to those of `names` on the path at hand. It has
seen the identities of `seen`. -/
structure Settled (table : TypeTable) (seen : List String) (names visited : List TypeName) :
    Prop where
  /-- It has been to the names of the path. -/
  subset : names ⊆ visited
  /-- Where it does not go, ways clear of the path lead to nothing new. -/
  covered : ∀ t u, ¬ table.Clear visited t → table.Way names t u →
    ∀ m ∈ table.explicitMethods u, m.id ∈ seen

namespace Settled

variable {owner : Option TypeName} {methods : List Method} {embedded : List GoType}

theorem nil : table.Settled [] [] [] :=
  ⟨List.Subset.refl _, fun _ _ hclear => absurd (fun _ _ => List.not_mem_nil) hclear⟩

theorem mono {seen' : List String} (h : table.Settled seen names visited) (hseen : seen ⊆ seen') :
    table.Settled seen' names visited :=
  ⟨h.subset, fun t u hclear hway m hm => hseen (h.covered t u hclear hway m hm)⟩

/-- The walk goes to no name of the path. -/
theorem clear (h : table.Settled seen names visited) (hclear : table.Clear visited t) :
    table.Clear names t :=
  fun owner howner hmem => hclear owner howner (h.subset hmem)

/-- Going into an interface adds its name to both. -/
theorem enter (h : table.Settled seen names visited) (owner : Option TypeName) :
    table.Settled seen (owner.toList ++ names) (owner.toList ++ visited) where
  subset := List.append_subset.mpr
    ⟨List.subset_append_left _ _, List.Subset.trans h.subset (List.subset_append_right _ _)⟩
  covered t u hclear hway := by
    refine h.covered t u (fun hvisited => hclear ?_) hway.of_append
    intro o ho hmem
    rcases List.mem_append.mp hmem with hmem | hmem
    · exact hway.clear o ho (List.mem_append_left _ hmem)
    · exact hvisited o ho hmem

/-- An interface is left once all that it leads to is seen. -/
theorem leave (h : table.Settled seen (owner.toList ++ names) visited)
    (hview : table.view t = (owner, .interface methods embedded))
    (hown : ∀ m ∈ table.explicitMethods t, m.id ∈ seen)
    (hembedded : ∀ m ∈ table.declared (owner.toList ++ names) n embedded, m.id ∈ seen) :
    table.Settled seen names visited where
  subset := (List.append_subset.mp h.subset).2
  covered v u hclear hway m hm := by
    rcases hway.avoid_of_view hview hm with havoid | hmt | ⟨x, hx, hwayx⟩
    · exact h.covered v u hclear havoid m hm
    · exact hown m hmt
    · exact hembedded m (mem_declared.mpr ⟨x, hx, u, hwayx, hm⟩)

/-- From some types the walk collects what is declared from these, but for identities it has seen
before. Afterwards all these identities are seen. -/
theorem distinctById_methodsFrom (h : table.Settled seen names visited) (work : List GoType) :
    ∃ visited',
      distinctById seen (table.methodsFrom visited (ts ++ work)) =
        distinctById seen (table.declared names n ts ++ table.methodsFrom visited' work) ∧
      table.Settled ((table.declared names n ts).map (·.id) ++ seen) names visited' := by
  fun_induction declarations table names n ts generalizing seen visited work with
  | case1 names n =>
    refine ⟨visited, ?_, ?_⟩
    · rw [declared, declarations]
      rfl
    · rw [declared, declarations]
      exact h
  | case2 names n t ts owner methods embedded hview hclear ihembedded ihts =>
    rw [declared_cons hview hclear, List.cons_append]
    by_cases hvisited : table.Clear visited t
    · -- first comes the interface itself, then what it embeds, then the other types
      have hseen := List.subset_append_right ((table.explicitMethods t).map (·.id)) seen
      obtain ⟨visited₁, hinner, hsettled⟩ :=
        ihembedded ((h.enter owner).mono hseen) (ts ++ work)
      have hleft := hsettled.leave hview
        (fun m hm => List.mem_append_right _
          (List.mem_append_left _ (List.mem_map_of_mem (f := (·.id)) hm)))
        (fun m hm => List.mem_append_left _ (List.mem_map_of_mem (f := (·.id)) hm))
      obtain ⟨visited₂, hrest, hsettled⟩ := ihts hleft work
      refine ⟨visited₂, ?_, hsettled.mono ?_⟩
      · rw [methodsFrom_cons_of_clear hview hvisited, List.append_assoc, List.append_assoc]
        exact distinctById_append_congr (hinner.trans (distinctById_append_congr hrest))
      · intro id
        simp only [List.map_append, List.mem_append]
        grind
    · -- the walk goes past the interface, and all that it leads to is seen
      have hown : ∀ m ∈ table.explicitMethods t, m.id ∈ seen :=
        h.covered t t hvisited (.here hclear)
      have hinner : ∀ m ∈ table.declared (owner.toList ++ names) methods.length embedded,
          m.id ∈ seen := by
        intro m hm
        obtain ⟨x, hx, u, hway, hm⟩ := mem_declared.mp hm
        exact h.covered t u hvisited (.step hclear ⟨_, _, _, hview, hx⟩ hway.of_append) m hm
      obtain ⟨visited', hrest, hsettled⟩ := ihts h work
      refine ⟨visited', ?_, hsettled.mono ?_⟩
      · rw [methodsFrom_cons_of_not_clear hvisited, hrest, List.append_assoc, List.append_assoc,
          distinctById_append_of_seen hown, distinctById_append_of_seen hinner]
      · intro id
        simp only [List.map_append, List.mem_append]
        grind
  | case3 names n t ts owner methods embedded hview hclear ihts =>
    rw [declared_cons_of_not_clear hclear, List.cons_append,
      methodsFrom_cons_of_not_clear fun hvisited => hclear (h.clear hvisited)]
    exact ihts h work
  | case4 names n t ts hview ihts =>
    rw [declared_cons_of_view hview, List.cons_append, methodsFrom_cons_of_view hview]
    exact ihts h work

end Settled

/-! ## The full method set -/

/-- The names that the walk has been to on earlier paths take nothing away from the method set. -/
theorem allMethods_eq (table : TypeTable) (t : GoType) :
    table.allMethods t = distinctById [] (table.declared [] 0 [t]) := by
  have hsettled : table.Settled [] [] [] := .nil
  obtain ⟨visited, hwalk, -⟩ := @hsettled.distinctById_methodsFrom _ _ _ _ [t] 0 []
  rw [methodsFrom, List.append_nil, List.append_nil] at hwalk
  exact hwalk

theorem lex_cons_iff {path later : List Nat} :
    List.Lex (· < ·) (n :: path) (n :: later) ↔ List.Lex (· < ·) path later := by
  constructor
  · intro h
    cases h with
    | rel hlt => exact absurd hlt (Nat.lt_irrefl n)
    | cons h => exact h
  · exact .cons

theorem mem_declarations_root {d : List Nat × Object} :
    d ∈ table.declarations [] 0 [t] ↔ ∃ path, d.1 = 0 :: path ∧ table.DeclaredAt [] t path d.2 := by
  rw [mem_declarations, declaredAmong_cons, or_iff_left]
  rintro ⟨i, u, rest, hu, -⟩
  cases hu

theorem find?_declarations_eq_some {path : List Nat} :
    (table.declarations [] 0 [t]).find? (·.2.id == m.id) = some (0 :: path, m) ↔
      table.FirstDeclared t path m := by
  rw [find?_eq_some_iff_of_pairwise pairwise_declarations fun _ _ hlt => List.lt_asymm hlt]
  simp only [mem_declarations_root, beq_self_eq_true, true_and, beq_iff_eq, List.cons.injEq]
  constructor
  · rintro ⟨⟨_, rfl, hdeclared⟩, hleast⟩
    refine ⟨hdeclared, fun earlier m' hearlier hid hlt => ?_⟩
    exact hleast (0 :: earlier, m') ⟨earlier, rfl, hearlier⟩ hid (lex_cons_iff.mpr hlt)
  · rintro ⟨hdeclared, hleast⟩
    refine ⟨⟨path, rfl, hdeclared⟩, ?_⟩
    rintro ⟨_, m'⟩ ⟨earlier, rfl, hearlier⟩ hid hlt
    exact hleast earlier m' hearlier hid (lex_cons_iff.mp hlt)

/-- The full method set lists the first declarations of all identities in depth-first order. It has
each identity that an interface reached over embeddings declares, and none twice. -/
theorem allMethods_in_order (table : TypeTable) (t : GoType) :
    (∃ firsts : List (List Nat × Object),
      table.allMethods t = firsts.map (·.2) ∧
        (∀ path m, (path, m) ∈ firsts ↔ table.FirstDeclared t path m) ∧
          firsts.Pairwise fun d d' => List.Lex (· < ·) d.1 d'.1) ∧
      ((table.allMethods t).map (·.id)).Nodup ∧
      (∀ id, (∃ m ∈ table.allMethods t, m.id = id) ↔
        ∃ u, ReflTransGen table.Embeds t u ∧ ∃ m ∈ table.explicitMethods u, m.id = id) ∧
      ∀ id, table.declares t id = true ↔
        ∃ u, ReflTransGen table.Embeds t u ∧ table.explicitlyDeclares u id = true := by
  refine ⟨?_, ?_, fun id => ?_, fun id => declares_iff_reaches⟩
  · obtain ⟨firsts, hfirsts, hsub, hmem⟩ := exists_firsts [] (table.declarations [] 0 [t])
    have hroot {d : List Nat × Object} (hd : d ∈ firsts) : d.1 = 0 :: d.1.tail := by
      obtain ⟨path, hpath, -⟩ := mem_declarations_root.mp (hsub.subset hd)
      rw [hpath, List.tail_cons]
    refine ⟨firsts.map fun d => (d.1.tail, d.2), ?_, fun path m => ?_, ?_⟩
    · rw [allMethods_eq, declared, hfirsts, List.map_map]
      rfl
    · have hfirst : (0 :: path, m) ∈ firsts ↔ table.FirstDeclared t path m := by
        rw [hmem, and_iff_right List.not_mem_nil, find?_declarations_eq_some]
      rw [← hfirst, List.mem_map]
      constructor
      · rintro ⟨d, hd, heq⟩
        obtain ⟨rfl, rfl⟩ := Prod.mk.inj heq
        rw [← hroot hd]
        exact hd
      · intro hd
        exact ⟨_, hd, rfl⟩
    · refine List.pairwise_map.mpr ((pairwise_declarations.sublist hsub).imp_of_mem ?_)
      intro d d' hd hd' hlt
      rw [hroot hd, hroot hd'] at hlt
      exact lex_cons_iff.mp hlt
  · exact nodup_ids_distinctById [] _
  · have hdeclares : table.declares t id = true ↔
        ∃ u, ReflTransGen table.Embeds t u ∧ table.explicitlyDeclares u id = true :=
      declares_iff_reaches
    simpa only [declares, explicitlyDeclares, List.any_eq_true, beq_iff_eq] using hdeclares

end TypeTable

end UncheckedErrors
