import Mathlib.Data.List.Forall2
import Mathlib.Data.List.Infix
import Mathlib.Data.List.Nodup
import Mathlib.Data.List.Perm.Basic
import UncheckedErrors.Tree.Walk

/-!
# Every field is walked

`Node.children` lists what is below a node in source order, kind by kind. Here the same is told by
the fields alone: `Node.fields` gives the nodes that each field holds, directly, as an optional one
or as one of several (`Held`), in the order in which the fields are declared. The children of a node
are these nodes, each of them once (`children_perm_fields`).

A node of a tree is then named by the fields that lead to it (`Node.at?`). A walk comes to every
node that can be named so, once, and to a node before what is below it (`walk_once`).
-/

namespace UncheckedErrors

/-- The nodes that a value holds as the content of a field. -/
class Held (α : Type) where
  nodes : α → List Node

namespace Held

instance : Held Expr := ⟨fun x => [.expr x]⟩

instance : Held Ident := ⟨fun id => [Node.ident id]⟩

instance : Held Call := ⟨fun c => [Node.call c]⟩

instance : Held Stmt := ⟨fun s => [.stmt s]⟩

instance : Held Block := ⟨fun b => [Node.block b]⟩

instance : Held ValueSpec := ⟨fun spec => [.valueSpec spec]⟩

instance : Held GenDecl := ⟨fun decl => [.genDecl decl]⟩

instance : Held Decl := ⟨fun d => [Node.decl d]⟩

instance {α : Type} [Held α] : Held (Option α) := ⟨fun x => x.toList.flatMap nodes⟩

instance {α : Type} [Held α] : Held (List α) := ⟨fun xs => xs.flatMap nodes⟩

instance : Held String := ⟨fun _ => []⟩

instance : Held Int := ⟨fun _ => []⟩

instance : Held Nat := ⟨fun _ => []⟩

instance : Held GoType := ⟨fun _ => []⟩

instance : Held Object := ⟨fun _ => []⟩

instance : Held Selection := ⟨fun _ => []⟩

end Held

namespace Node

open Held (nodes)

/-- The nodes in the fields of an expression, one list for each field. -/
def fieldsOfExpr : Expr → List (List Node)
  | .ident ⟨name, pos, obj, type⟩ => [nodes name, nodes pos, nodes obj, nodes type]
  | .basicLit kind value pos type => [nodes kind, nodes value, nodes pos, nodes type]
  | .compositeLit elts lbrace type => [nodes elts, nodes lbrace, nodes type]
  | .funcLit body pos type => [nodes body, nodes pos, nodes type]
  | .paren x lparen type => [nodes x, nodes lparen, nodes type]
  | .selector x sel selection type => [nodes x, nodes sel, nodes selection, nodes type]
  | .index x indices lbrack type => [nodes x, nodes indices, nodes lbrack, nodes type]
  | .slice x lbrack low high max type =>
    [nodes x, nodes lbrack, nodes low, nodes high, nodes max, nodes type]
  | .typeAssert x lparen asserted type => [nodes x, nodes lparen, nodes asserted, nodes type]
  | .call (.mk fn args lparen rparen type ellipsis) =>
    [nodes fn, nodes args, nodes lparen, nodes rparen, nodes type, nodes ellipsis]
  | .star x pos type => [nodes x, nodes pos, nodes type]
  | .unary op x pos type => [nodes op, nodes x, nodes pos, nodes type]
  | .binary op x y opPos type => [nodes op, nodes x, nodes y, nodes opPos, nodes type]
  | .keyValue key value => [nodes key, nodes value]
  | .typeExpr type pos => [nodes type, nodes pos]

/-- The nodes in the fields of a statement, one list for each field. -/
def fieldsOfStmt : Stmt → List (List Node)
  | .decl decl => [nodes decl]
  | .empty pos => [nodes pos]
  | .labeled label s => [nodes label, nodes s]
  | .expr x => [nodes x]
  | .send chan value arrow => [nodes chan, nodes value, nodes arrow]
  | .incDec x tok tokPos => [nodes x, nodes tok, nodes tokPos]
  | .assign lhs tok tokPos rhs => [nodes lhs, nodes tok, nodes tokPos, nodes rhs]
  | .goStmt c pos => [nodes c, nodes pos]
  | .deferStmt c pos => [nodes c, nodes pos]
  | .returnStmt results pos => [nodes results, nodes pos]
  | .branch tok pos label => [nodes tok, nodes pos, nodes label]
  | .block (.mk ss lbrace) => [nodes ss, nodes lbrace]
  | .ifStmt cond body pos init orElse =>
    [nodes cond, nodes body, nodes pos, nodes init, nodes orElse]
  | .caseClause xs body pos => [nodes xs, nodes body, nodes pos]
  | .switchStmt body pos init tag => [nodes body, nodes pos, nodes init, nodes tag]
  | .typeSwitch assign body pos init => [nodes assign, nodes body, nodes pos, nodes init]
  | .commClause comm body pos => [nodes comm, nodes body, nodes pos]
  | .selectStmt body pos => [nodes body, nodes pos]
  | .forStmt body pos init cond post =>
    [nodes body, nodes pos, nodes init, nodes cond, nodes post]
  | .rangeStmt x body pos key value tok =>
    [nodes x, nodes body, nodes pos, nodes key, nodes value, nodes tok]

/-- The nodes in the fields of a node, one list for each field. -/
def fields : Node → List (List Node)
  | .expr x => fieldsOfExpr x
  | .stmt s => fieldsOfStmt s
  | .valueSpec (.mk name others values type) =>
    [nodes (name :: others), nodes values, nodes type]
  | .genDecl (.mk tok specs pos) => [nodes tok, nodes specs, nodes pos]
  | .funcDecl ⟨name, pos, body, recv⟩ => [nodes name, nodes pos, nodes body, nodes recv]
  | .file ⟨packageName, packagePos, decls⟩ =>
    [nodes packageName, nodes packagePos, nodes decls]

/-! ## The nodes of the fields and the children -/

theorem ofExpr_eq (x : Expr) : ofExpr x = (fieldsOfExpr x).flatten := by
  cases x with
  | call c =>
    cases c
    simp [ofExpr, fieldsOfExpr, nodes, exprs, List.map_eq_flatMap]
  | _ => simp [ofExpr, fieldsOfExpr, nodes, exprs, optExpr, List.map_eq_flatMap]

theorem ofStmt_perm (s : Stmt) : (ofStmt s).Perm (fieldsOfStmt s).flatten := by
  -- What a statement cannot do without is declared first, so this order is not that of the source.
  cases s with
  | ifStmt cond body pos init orElse =>
    have hperm := List.perm_append_comm_assoc (optStmt init) [.expr cond, block body]
      (optStmt orElse)
    simpa [ofStmt, fieldsOfStmt, nodes, stmts, optStmt, List.map_eq_flatMap] using hperm
  | switchStmt body pos init tag =>
    have hperm := List.perm_append_singleton (block body) (optStmt init ++ optExpr tag)
    simpa [ofStmt, fieldsOfStmt, nodes, exprs, stmts, optExpr, optStmt, List.map_eq_flatMap]
      using hperm
  | typeSwitch assign body pos init =>
    have hperm : (optStmt init ++ [.stmt assign, block body]).Perm _ := List.perm_append_comm
    simpa [ofStmt, fieldsOfStmt, nodes, stmts, optStmt, List.map_eq_flatMap] using hperm
  | forStmt body pos init cond post =>
    have hperm := List.perm_append_singleton (block body)
      (optStmt init ++ optExpr cond ++ optStmt post)
    simpa [ofStmt, fieldsOfStmt, nodes, exprs, stmts, optExpr, optStmt, List.map_eq_flatMap]
      using hperm
  | rangeStmt x body pos key value tok =>
    have hperm : (optExpr key ++ optExpr value ++ [.expr x, block body]).Perm _ :=
      List.perm_append_comm
    simpa [ofStmt, fieldsOfStmt, nodes, exprs, optExpr, List.map_eq_flatMap] using hperm
  | block b =>
    cases b
    simp [ofStmt, fieldsOfStmt, nodes, stmts, List.map_eq_flatMap]
  | caseClause xs body pos =>
    cases xs <;> simp [ofStmt, fieldsOfStmt, nodes, exprs, stmts, List.map_eq_flatMap]
  | _ => simp [ofStmt, fieldsOfStmt, nodes, exprs, stmts, optStmt, List.map_eq_flatMap]

/-- The children of a node are the nodes in its fields, each of them once. -/
theorem children_perm_fields (n : Node) : n.children.Perm n.fields.flatten := by
  cases n with
  | expr x => exact List.Perm.of_eq (ofExpr_eq x)
  | stmt s => exact ofStmt_perm s
  | valueSpec spec =>
    obtain ⟨name, others, values, type⟩ := spec
    refine List.Perm.of_eq ?_
    simp [children, fields, nodes, exprs, List.map_eq_flatMap]
  | genDecl decl =>
    obtain ⟨tok, specs, pos⟩ := decl
    refine List.Perm.of_eq ?_
    simp [children, fields, nodes, List.map_eq_flatMap]
  | funcDecl decl =>
    refine List.Perm.of_eq ?_
    simp [children, fields, nodes, List.map_eq_flatMap]
  | file f =>
    refine List.Perm.of_eq ?_
    simp [children, fields, nodes, List.map_eq_flatMap]

end Node

/-! ## Naming nodes -/

/-- The keys name the elements of a list: each element by the key at its place, no two of them by
one key, and there is no other key under which anything is found. -/
structure Names {κ α : Type} (find : κ → Option α) (xs : List α) (keys : List κ) : Prop where
  finds : List.Forall₂ (fun x key => find key = some x) xs keys
  once : keys.Nodup
  all : ∀ key, (find key).isSome → key ∈ keys

/-- In another order the elements have the same names. -/
theorem Names.perm {κ α : Type} {find : κ → Option α} {xs ys : List α} {keys : List κ}
    (h : Names find xs keys) (hperm : ys.Perm xs) : ∃ keys', Names find ys keys' := by
  obtain ⟨keys', hfinds, hkeys⟩ := List.perm_comp_forall₂ hperm h.finds
  exact ⟨keys', hfinds, hkeys.nodup_iff.mpr h.once,
    fun key hkey => hkeys.mem_iff.mpr (h.all key hkey)⟩

theorem names_range {α : Type} (xs : List α) : Names (xs[·]?) xs (List.range xs.length) := by
  refine ⟨?_, List.nodup_range, fun i hi => ?_⟩
  · rw [List.forall₂_iff_get]
    refine ⟨List.length_range.symm, fun i h _ => ?_⟩
    simp
  · rw [List.mem_range]
    simpa using hi

section Pairs

variable {κ κ' α β : Type} {outer : κ → Option α} {inner : α → List β} {find : α → κ' → Option β}
  {R : κ' → κ' → Prop} {xs : List α} {keys : List κ}

/-- The names of what the elements of a list hold: the name of an element with the name that it has
for what it holds. -/
theorem exists_pairs (hfinds : List.Forall₂ (fun x key => outer key = some x) xs keys)
    (honce : keys.Nodup)
    (hinner : ∀ x ∈ xs, ∃ keys', Names (find x) (inner x) keys' ∧ keys'.Pairwise R) :
    ∃ pairs : List (κ × κ'),
      List.Forall₂ (fun y pair => (outer pair.1).bind (find · pair.2) = some y) (xs.flatMap inner)
          pairs ∧
        (pairs.Pairwise fun a b => a.1 = b.1 → R a.2 b.2) ∧ (∀ pair ∈ pairs, pair.1 ∈ keys) ∧
        ∀ key ∈ keys, ∀ key', ((outer key).bind (find · key')).isSome → (key, key') ∈ pairs := by
  induction hfinds with
  | nil => exact ⟨[], .nil, .nil, by simp, by simp⟩
  | @cons x key xs keys hx _ ih =>
    rw [List.nodup_cons] at honce
    obtain ⟨keys', hnames, hordered⟩ := hinner x List.mem_cons_self
    obtain ⟨pairs, hfinds, hpairwise, hmem, hall⟩ :=
      ih honce.2 fun x hmem => hinner x (List.mem_cons_of_mem _ hmem)
    refine ⟨keys'.map (Prod.mk key) ++ pairs, ?_, ?_, ?_, ?_⟩
    · rw [List.flatMap_cons]
      refine List.rel_append (List.forall₂_map_right_iff.mpr ?_) hfinds
      simpa only [hx, Option.bind_some] using hnames.finds
    · refine List.pairwise_append.mpr ⟨?_, hpairwise, ?_⟩
      · rw [List.pairwise_map]
        refine hordered.imp fun {a b} hab => ?_
        exact fun _ => hab
      · -- The names of the first element are those with its key, which no other element has.
        rintro a ha b hb heq
        obtain ⟨key', -, rfl⟩ := List.mem_map.mp ha
        dsimp only at heq
        exact absurd (hmem b hb) (heq ▸ honce.1)
    · intro pair hpair
      rcases List.mem_append.mp hpair with hpair | hpair
      · obtain ⟨key', -, rfl⟩ := List.mem_map.mp hpair
        exact List.mem_cons_self
      · exact List.mem_cons_of_mem _ (hmem pair hpair)
    · intro k hk key' hfound
      rcases List.mem_cons.mp hk with rfl | hk
      · rw [hx, Option.bind_some] at hfound
        exact List.mem_append_left _ (List.mem_map_of_mem (hnames.all key' hfound))
      · exact List.mem_append_right _ (hall k hk key' hfound)

/-- What is found in two steps has names of two parts. The order of the second parts is kept where
the first parts are the same. -/
theorem Names.exists_flatMap (h : Names outer xs keys) (hR : ∀ key, ¬ R key key)
    (hinner : ∀ x ∈ xs, ∃ keys', Names (find x) (inner x) keys' ∧ keys'.Pairwise R) :
    ∃ pairs, Names (fun pair : κ × κ' => (outer pair.1).bind (find · pair.2)) (xs.flatMap inner)
        pairs ∧ pairs.Pairwise fun a b => a.1 = b.1 → R a.2 b.2 := by
  obtain ⟨pairs, hpairs, hordered, -, hmem⟩ := exists_pairs h.finds h.once hinner
  refine ⟨pairs, ⟨hpairs, ?_, fun pair hfound => ?_⟩, hordered⟩
  · refine hordered.imp fun {a b} hab heq => ?_
    subst heq
    exact hR _ (hab rfl)
  · obtain ⟨y, hy⟩ := Option.isSome_iff_exists.mp hfound
    obtain ⟨x, hx, -⟩ := Option.bind_eq_some_iff.mp hy
    exact hmem pair.1 (h.all pair.1 (hx ▸ rfl)) pair.2 hfound

end Pairs

namespace Node

/-- The node that a field holds: which field, and which of the nodes in it. -/
def child? (n : Node) (step : Nat × Nat) : Option Node := n.fields[step.1]?.bind (·[step.2]?)

/-- The node that several steps lead to, each into a field of the node before. -/
def at? (n : Node) : List (Nat × Nat) → Option Node
  | [] => some n
  | step :: way => (n.child? step).bind (·.at? way)

/-- The steps into the fields of a node name its children. -/
theorem exists_names_children (n : Node) : ∃ steps, Names n.child? n.children steps := by
  have hfield : ∀ ns ∈ n.fields, ∃ keys, Names (fun i => ns[i]?) (id ns) keys ∧
      keys.Pairwise (· ≠ ·) := fun ns _ => ⟨_, names_range ns, (names_range ns).once⟩
  obtain ⟨steps, hsteps, -⟩ := (names_range n.fields).exists_flatMap (fun _ h => h rfl) hfield
  rw [List.flatMap_id] at hsteps
  exact hsteps.perm n.children_perm_fields

/-- The ways into a tree name its nodes, each node before those that it encloses. -/
theorem exists_names_preorder (n : Node) :
    ∃ ways, Names n.at? n.preorder ways ∧ ways.Pairwise fun a b => ¬ b <+: a := by
  fun_induction preorder n with
  | case1 n ih =>
    rw [← preorder, preorder_eq]
    obtain ⟨steps, hsteps⟩ := exists_names_children n
    obtain ⟨pairs, hpairs, hordered⟩ := hsteps.exists_flatMap
      (R := fun a b => ¬ b <+: a) (fun way h => h List.prefix_rfl) ih
    have hcons : Function.Injective fun pair : (Nat × Nat) × List (Nat × Nat) =>
        pair.1 :: pair.2 := by
      rintro ⟨step, way⟩ ⟨step', way'⟩ h
      exact Prod.ext (List.cons.inj h).1 (List.cons.inj h).2
    refine ⟨[] :: pairs.map fun pair => pair.1 :: pair.2, ⟨?_, ?_, ?_⟩, ?_⟩
    · exact .cons rfl (List.forall₂_map_right_iff.mpr hpairs.finds)
    · rw [List.nodup_cons]
      exact ⟨by simp, List.Nodup.map hcons hpairs.once⟩
    · rintro (_ | ⟨step, way⟩) hfound
      · exact List.mem_cons_self
      · exact List.mem_cons_of_mem _ (List.mem_map_of_mem (f := fun pair => pair.1 :: pair.2)
          (hpairs.all (step, way) hfound))
    · rw [List.pairwise_cons, List.pairwise_map]
      refine ⟨fun way hway => ?_, hordered.imp fun {a b} hab hprefix => ?_⟩
      · obtain ⟨pair, -, rfl⟩ := List.mem_map.mp hway
        simp
      · rw [List.cons_prefix_cons] at hprefix
        exact hab hprefix.1.symm hprefix.2

/-- A walk lists a node and then the walks of its children in order, and the children are the nodes
in the fields, each once. So each place of the walk has a way through fields that leads to what
stands there, every way that leads anywhere is that of one place, and of two ways one of which goes
on from the other the shorter comes first: what encloses a node stands before it. -/
theorem walk_once (n : Node) :
    n.walk = n :: n.children.flatMap walk ∧ n.children.Perm n.fields.flatten ∧
      ∃ ways, Names n.at? n.walk ways ∧ ways.Pairwise fun a b => ¬ b <+: a := by
  have hwalk : walk = preorder := funext walk_eq
  rw [hwalk]
  exact ⟨preorder_eq n, children_perm_fields n, exists_names_preorder n⟩

end Node

end UncheckedErrors
