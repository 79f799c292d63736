import UncheckedErrors.Proofs.Outlines

/-!
# Parentheses around a value

A scan looks at a call or a type assertion where it is a statement of its own, or the one value of
an assignment or a declaration (`Holder`), and there it does not look into parentheses. Hence
parentheses around the value hide what its holder is reported for, and a type assertion that the
holder checks is reported like one that nothing checks (`File.Parenthesized.keys`). What is reported
before and behind that place stays (`Node.Replaces.keys_around`).

Nothing changes exactly if nothing is looked for in the value (`parentheses_unseen_iff`).
-/

namespace UncheckedErrors

/-! ## One place of a tree -/

/-- `n'` is `n` with `m'` in one place where `n` has `m`. -/
inductive Node.Replaces (m m' : Node) : Node → Node → Prop
  | here : Replaces m m' m m'
  | inside {n n' c c' : Node} (before after : List Node) (houtline : n.outline = n'.outline)
      (hchildren : n.children = before ++ c :: after)
      (hchildren' : n'.children = before ++ c' :: after) (hc : Replaces m m' c c') :
      Replaces m m' n n'

namespace Node

section

variable (modes : Modes) (excluded : Call → Bool)

/-- What a node that stands in `parent` and everything below it are reported for. -/
def keys (parent : Option (Node × Nat)) (n : Node) : List (DiagnosticKind × Int) :=
  ((n.occurrences parent).flatMap (·.sites modes excluded)).map Site.key

/-- What the children of a node are reported for, from place `k` on. -/
def keysOfChildren (n : Node) (k : Nat) (children : List Node) : List (DiagnosticKind × Int) :=
  (children.zipIdx k).flatMap fun child => child.1.keys modes excluded (some (n, child.2))

theorem keys_eq (parent : Option (Node × Nat)) (n : Node) :
    n.keys modes excluded parent =
      ((Occurrence.mk n parent).sites modes excluded).map Site.key ++
        n.keysOfChildren modes excluded 0 n.children := by
  rw [keys, occurrences_eq, List.flatMap_cons, List.map_append, List.flatMap_assoc,
    List.map_flatMap]
  rfl

theorem keysOfChildren_append (n : Node) (k : Nat) (before after : List Node) :
    n.keysOfChildren modes excluded k (before ++ after) =
      n.keysOfChildren modes excluded k before ++
        n.keysOfChildren modes excluded (k + before.length) after := by
  rw [keysOfChildren, List.zipIdx_append, List.flatMap_append]
  rfl

theorem keysOfChildren_cons (n : Node) (k : Nat) (child : Node) (after : List Node) :
    n.keysOfChildren modes excluded k (child :: after) =
      child.keys modes excluded (some (n, k)) ++
        n.keysOfChildren modes excluded (k + 1) after := by
  rw [keysOfChildren, List.zipIdx_cons, List.flatMap_cons]
  rfl

/-- Of its context it only matters whether a node is checked there. -/
theorem keys_congr_parent {parent parent' : Option (Node × Nat)} {n : Node}
    (h : (Occurrence.mk n parent).isChecked = (Occurrence.mk n parent').isChecked) :
    n.keys modes excluded parent = n.keys modes excluded parent' := by
  rw [keys_eq, keys_eq]
  simp only [Occurrence.sites, Occurrence.assertionSites, h]

theorem keysOfChildren_congr {n n' : Node} (h : n.checkedPlace? = n'.checkedPlace?) (k : Nat)
    (children : List Node) :
    n.keysOfChildren modes excluded k children = n'.keysOfChildren modes excluded k children := by
  refine List.flatMap_congr fun child _ => keys_congr_parent modes excluded ?_
  simp only [Occurrence.isChecked, h]

/-- Children of which the node checks none are reported as if they stood alone. -/
theorem keysOfChildren_of_unchecked {n : Node} {k : Nat} {children : List Node}
    (h : ∀ i, n.checkedPlace? = some i → k + children.length ≤ i) :
    n.keysOfChildren modes excluded k children =
      children.flatMap (·.keys modes excluded none) := by
  induction children generalizing k with
  | nil => rfl
  | cons child rest ih =>
    have hunchecked : (Occurrence.mk child (some (n, k))).isChecked =
        (Occurrence.mk child none).isChecked := by
      refine beq_eq_false_iff_ne.mpr fun hk => ?_
      have := h k hk
      rw [List.length_cons] at this
      omega
    rw [keysOfChildren_cons, List.flatMap_cons, keys_congr_parent modes excluded hunchecked, ih]
    intro i hi
    have := h i hi
    rw [List.length_cons] at this
    omega

/-- Only an expression can be checked by the node around it. -/
theorem keys_of_ne_expr {n : Node} (hn : ∀ x, n ≠ .expr x) (parent : Option (Node × Nat)) :
    n.keys modes excluded parent = n.keys modes excluded none := by
  rw [keys_eq, keys_eq]
  cases n with
  | expr x => exact absurd rfl (hn x)
  | _ => rfl

end

namespace Replaces

variable {m m' : Node} (hm : ∀ x, m ≠ .expr x) (hm' : ∀ x, m' ≠ .expr x)

variable {n n' : Node}

include hm hm'

theorem alike (h : Replaces m m' n n') : n.Alike n' := by
  induction h with
  | here => exact .others hm hm'
  | inside before after houtline hchildren hchildren' _ ih =>
    exact (Resembles.of_children houtline hchildren hchildren' ih).alike

/-- What is reported around the place stays: the nodes on the way to it resemble what they were, so
they are reported for the same and check the same of their children. -/
theorem keys_around (h : Replaces m m' n n') (modes : Modes) {excluded : Call → Bool}
    (hexcluded : ∀ c, excluded c.shape = excluded c)
    {parent parent' : Option (Node × Nat)}
    (hchecked : (Occurrence.mk n parent).isChecked = (Occurrence.mk n' parent').isChecked) :
    ∃ before after,
      n.keys modes excluded parent = before ++ m.keys modes excluded none ++ after ∧
      n'.keys modes excluded parent' = before ++ m'.keys modes excluded none ++ after := by
  induction h generalizing parent parent' with
  | here =>
    refine ⟨[], [], ?_, ?_⟩
    · rw [keys_of_ne_expr modes excluded hm, List.nil_append, List.append_nil]
    · rw [keys_of_ne_expr modes excluded hm', List.nil_append, List.append_nil]
  | @inside n n' c c' left right houtline hchildren hchildren' hc ih =>
    have hn := Resembles.of_children houtline hchildren hchildren' (hc.alike hm hm')
    have hplaced : (Occurrence.mk c (some (n, left.length))).isChecked =
        (Occurrence.mk c' (some (n', left.length))).isChecked := by
      simp only [Occurrence.isChecked, hn.checkedPlace?]
    obtain ⟨before, after, hkeys, hkeys'⟩ := ih hplaced
    have hleft := keysOfChildren_congr modes excluded hn.checkedPlace? 0 left
    have hright := keysOfChildren_congr modes excluded hn.checkedPlace? (left.length + 1) right
    refine ⟨((Occurrence.mk n' parent').sites modes excluded).map Site.key ++
      (n'.keysOfChildren modes excluded 0 left ++ before),
      after ++ n'.keysOfChildren modes excluded (left.length + 1) right, ?_, ?_⟩
    · rw [keys_eq, hchildren, keysOfChildren_append, keysOfChildren_cons, Nat.zero_add, hkeys,
        hn.keys hexcluded hchecked, hleft, hright]
      simp only [List.append_assoc]
    · rw [keys_eq, hchildren', keysOfChildren_append, keysOfChildren_cons, Nat.zero_add, hkeys']
      simp only [List.append_assoc]

end Replaces

end Node

/-- A scan of a file reports what its root is reported for, and everything below it. -/
theorem File.keys_eq (modes : Modes) (excluded : Call → Bool) (file : File) :
    (file.sites modes excluded).map Site.key = (Node.file file).keys modes excluded none :=
  congrArg (List.map Site.key) (Scan.scanned_node modes excluded (.file file) none [] {}
    (fun _ h => absurd h List.not_mem_nil) (by simp [Occurrence.isChecked])).sites_eq

/-! ## What holds the value -/

/-- A statement or declaration around one value: the value on its own, or assigned to targets, or
given to names that are declared. -/
inductive Holder where
  | alone
  | assigned (lhs : List Expr) (tok : String) (tokPos : Int)
  | declared (name : Ident) (others : List Ident) (type : Option GoType)

namespace Holder

/-- The node around a value. -/
def around : Holder → Expr → Node
  | .alone, value => .stmt (.expr value)
  | .assigned lhs tok tokPos, value => .stmt (.assign lhs tok tokPos [value])
  | .declared name others type, value => .valueSpec (.mk name others [value] type)

/-- What the value is assigned to. -/
def targets : Holder → List Expr
  | .alone => []
  | .assigned lhs _ _ => lhs
  | .declared name others _ => (name :: others).map .ident

variable (holder : Holder) (value : Expr)

theorem around_ne_expr (x : Expr) : holder.around value ≠ .expr x := by
  cases holder <;> rintro ⟨⟩

theorem children_around :
    (holder.around value).children = Node.exprs holder.targets ++ [.expr value] := by
  cases holder with
  | alone => rfl
  | assigned lhs tok tokPos => rfl
  | declared name others type =>
    simp [around, targets, Node.children, Node.exprs, Node.ident, Function.comp_def]

/-- Whether the value is an assertion whose second target tells if it holds. -/
def checks : Bool := value.isAssertion && 2 ≤ holder.targets.length

/-- The value stands behind its targets. -/
theorem checkedPlace?_around :
    (holder.around value).checkedPlace? =
      if holder.checks value then some holder.targets.length else none := by
  cases holder with
  | alone => simp [around, checks, targets, Node.checkedPlace?, Node.assignment?]
  | assigned lhs tok tokPos => rfl
  | declared name others type => rfl

theorem isChecked_value :
    (Occurrence.mk (.expr value) (some (holder.around value, holder.targets.length))).isChecked =
      holder.checks value := by
  show ((holder.around value).checkedPlace? == some holder.targets.length) = _
  rw [checkedPlace?_around]
  cases holder.checks value <;> simp

/-- The sites of the node itself, those of what is below it left aside. -/
def sites (modes : Modes) (excluded : Call → Bool) : List Site :=
  (Occurrence.mk (holder.around value) none).sites modes excluded

variable (modes : Modes) (excluded : Call → Bool)

theorem sites_alone :
    alone.sites value modes excluded =
      (value.asCall?.map (callSites excluded)).getD [] := by
  cases value <;> simp [sites, around, Occurrence.sites, Node.droppedCall?, Node.assignment?,
    Expr.asCall?]

theorem sites_of_ne_alone (h : holder ≠ alone) :
    holder.sites value modes excluded =
      Occurrence.assignedSites modes excluded holder.targets [value] := by
  cases holder with
  | alone => exact absurd rfl h
  | assigned lhs tok tokPos =>
    simp [sites, around, targets, Occurrence.sites, Node.droppedCall?, Node.assignment?]
  | declared name others type =>
    simp [sites, around, targets, Occurrence.sites, Node.droppedCall?, Node.assignment?,
      ValueSpec.values, ValueSpec.names]

/-- Behind parentheses nothing is seen. -/
theorem sites_paren (lparen : Int) (type : Option GoType) :
    holder.sites (.paren value lparen type) modes excluded = [] := by
  cases holder with
  | alone => rfl
  | assigned lhs tok tokPos => rw [sites_of_ne_alone _ _ _ _ (by rintro ⟨⟩)]; rfl
  | declared name others type => rw [sites_of_ne_alone _ _ _ _ (by rintro ⟨⟩)]; rfl

/-- The report of the assertion that is no longer checked. -/
def exposed : List (DiagnosticKind × Int) :=
  if modes.asserts && holder.checks value then [(.uncheckedAssert, value.pos)] else []

/-- What the targets of the value are reported for. -/
def keysOfTargets : List (DiagnosticKind × Int) :=
  (Node.exprs holder.targets).flatMap (·.keys modes excluded none)

theorem keys_around :
    (holder.around value).keys modes excluded none =
      (holder.sites value modes excluded).map Site.key ++ holder.keysOfTargets modes excluded ++
        (Node.expr value).keys modes excluded
          (some (holder.around value, holder.targets.length)) := by
  have htargets :
      (holder.around value).keysOfChildren modes excluded 0 (Node.exprs holder.targets) =
        holder.keysOfTargets modes excluded := by
    refine Node.keysOfChildren_of_unchecked modes excluded fun i hi => ?_
    rw [checkedPlace?_around] at hi
    split at hi
    · obtain rfl := Option.some.inj hi
      simp [Node.exprs]
    · cases hi
  have hlength : (Node.exprs holder.targets).length = holder.targets.length := List.length_map ..
  rw [Node.keys_eq, children_around, Node.keysOfChildren_append, htargets, hlength, Nat.zero_add,
    Node.keysOfChildren_cons, List.append_assoc]
  exact congrArg _ (congrArg _ (List.append_nil _))

/-- An assertion that is not checked is reported ahead of all that stands in it. -/
theorem keys_unchecked :
    (Node.expr value).keys modes excluded none =
      holder.exposed value modes ++
        (Node.expr value).keys modes excluded
          (some (holder.around value, holder.targets.length)) := by
  have hsites (parent : Option (Node × Nat)) :
      (Occurrence.mk (.expr value) parent).sites modes excluded =
        (Occurrence.mk (.expr value) parent).assertionSites modes value := rfl
  have hnone : (Occurrence.mk (.expr value) none).isChecked = false := rfl
  rw [Node.keys_eq, Node.keys_eq, hsites, hsites, Occurrence.assertionSites,
    Occurrence.assertionSites, ← List.append_assoc, isChecked_value, hnone, exposed, checks]
  congr 1
  cases value.isAssertion with
  | false => cases modes.asserts <;> rfl
  | true => cases modes.asserts <;> cases decide (2 ≤ holder.targets.length) <;> rfl

theorem keys_paren (lparen : Int) (type : Option GoType) (parent : Option (Node × Nat)) :
    (Node.expr (.paren value lparen type)).keys modes excluded parent =
      (Node.expr value).keys modes excluded none := by
  rw [Node.keys_eq]
  have hvalue : (Node.expr (.paren value lparen type)).keysOfChildren modes excluded 0
      [.expr value] = [Node.expr value].flatMap (·.keys modes excluded none) :=
    Node.keysOfChildren_of_unchecked modes excluded fun _ h => nomatch h
  exact hvalue.trans (List.append_nil _)

/-- What is looked for in a value. -/
inductive Heeds (modes : Modes) (excluded : Call → Bool) : Holder → Expr → Prop
  /-- A call on its own that returns an error. -/
  | dropped {c : Call} (hreturns : c.returnsError = true) (hreported : excluded c = false) :
      Heeds modes excluded .alone (.call c)
  /-- A call that gives an error to `_`. -/
  | blank {holder : Holder} {c : Call} {i : Nat} {target : Expr} (hblank : modes.blank = true)
      (hreported : excluded c = false) (htarget : holder.targets[i]? = some target)
      (hslot : (target.isBlank && (c.isRecover || c.errorSlots[i]? == some true)) = true) :
      Heeds modes excluded holder (.call c)
  /-- An assertion that is checked. -/
  | checked {holder : Holder} {value : Expr} (hasserts : modes.asserts = true)
      (hchecks : holder.checks value = true) : Heeds modes excluded holder value

variable {holder : Holder} {value : Expr} {modes : Modes} {excluded : Call → Bool}

theorem callSites_ne_nil {c : Call} :
    callSites excluded c ≠ [] ↔ c.returnsError = true ∧ excluded c = false := by
  simp [callSites]

theorem spreadSites_ne_nil {targets : List Expr} {c : Call} :
    Occurrence.spreadSites modes excluded targets c ≠ [] ↔
      modes.blank = true ∧ excluded c = false ∧
        ∃ (i : Nat) (target : Expr), targets[i]? = some target ∧
          (target.isBlank && (c.isRecover || c.errorSlots[i]? == some true)) = true := by
  rw [Occurrence.spreadSites, ne_eq, ite_eq_right_iff, List.filterMap_eq_nil_iff]
  simp only [Bool.and_eq_true, Bool.not_eq_true', Prod.forall, List.mem_zipIdx_iff_getElem?,
    ite_eq_right_iff, reduceCtorEq, imp_false, Classical.not_imp, not_forall, not_not,
    and_assoc]
  rw [exists_comm]

theorem of_okSites_ne_nil {targets : List Expr} (h : Occurrence.okSites modes targets ≠ []) :
    modes.asserts = true ∧ 2 ≤ targets.length := by
  match targets with
  | [] | [_] => exact absurd rfl h
  | _ :: ok :: _ =>
    simp [Occurrence.okSites] at h
    exact ⟨h.2.2, by simp⟩

/-- Something is looked for in the value exactly if its holder is reported for it, or the
parentheses let it be reported. -/
theorem heeds_iff :
    Heeds modes excluded holder value ↔
      holder.sites value modes excluded ≠ [] ∨ holder.exposed value modes ≠ [] := by
  constructor
  · rintro (⟨hreturns, hreported⟩ | ⟨hblank, hreported, htarget, hslot⟩ | ⟨hasserts, hchecks⟩)
    · rw [sites_alone]
      exact .inl (callSites_ne_nil.mpr ⟨hreturns, hreported⟩)
    · have halone : holder ≠ .alone := by rintro rfl; cases htarget
      rw [sites_of_ne_alone _ _ _ _ halone]
      exact .inl (spreadSites_ne_nil.mpr ⟨hblank, hreported, _, _, htarget, hslot⟩)
    · simp [exposed, hasserts, hchecks]
  · rintro (hsites | hexposed)
    · by_cases halone : holder = .alone
      · subst halone
        rw [sites_alone] at hsites
        cases value with
        | call c =>
          obtain ⟨hreturns, hreported⟩ := callSites_ne_nil.mp hsites
          exact .dropped hreturns hreported
        | _ => exact absurd rfl hsites
      · rw [sites_of_ne_alone _ _ _ _ halone] at hsites
        cases value with
        | call c =>
          obtain ⟨hblank, hreported, i, target, htarget, hslot⟩ := spreadSites_ne_nil.mp hsites
          exact .blank hblank hreported htarget hslot
        | typeAssert x lparen asserted type =>
          cases asserted with
          | none => exact absurd rfl hsites
          | some asserted =>
            obtain ⟨hasserts, hlength⟩ := of_okSites_ne_nil hsites
            exact .checked hasserts (decide_eq_true hlength)
        | _ => exact absurd rfl hsites
    · unfold exposed at hexposed
      split at hexposed
      · rename_i h
        exact .checked (Bool.and_eq_true_iff.mp h).1 (Bool.and_eq_true_iff.mp h).2
      · exact absurd rfl hexposed

/-- If the holder checks an assertion, it can only be reported for its second target. -/
theorem offset_of_checks (hchecks : holder.checks value = true) {site : Site}
    (hsite : site ∈ holder.sites value modes excluded) :
    ∃ ok, holder.targets[1]? = some ok ∧ site.offset = ok.pos := by
  obtain ⟨hassertion, hlength⟩ := Bool.and_eq_true_iff.mp hchecks
  have halone : holder ≠ .alone := by rintro rfl; cases hlength
  have hcall : value.asCall? = none := by
    cases value with
    | call c => cases hassertion
    | _ => rfl
  rw [sites_of_ne_alone _ _ _ _ halone, Occurrence.assignedSites_singleton, hcall] at hsite
  simp only [hassertion, if_true, Occurrence.okSites] at hsite
  split at hsite
  · rename_i ok hok
    split at hsite
    · exact ⟨ok, hok, by rw [List.mem_singleton.mp hsite]⟩
    · cases hsite
  · cases hsite

end Holder

/-! ## Files -/

theorem eq_of_cons_eq_append {α : Type} {a b : α} {l : List α} (h : a :: l = l ++ [b]) : a = b := by
  induction l generalizing a with
  | nil => exact (List.cons.inj h).1
  | cons c l ih =>
    obtain ⟨rfl, h⟩ := List.cons.inj h
    exact ih h

/-- `file'` is `file` with parentheses around the value that `holder` holds somewhere in it. -/
def File.Parenthesized (holder : Holder) (value : Expr) (file file' : File) : Prop :=
  ∃ lparen type, Node.Replaces (holder.around value) (holder.around (.paren value lparen type))
    (.file file) (.file file')

section

variable {holder : Holder} {value : Expr} {file file' : File} {modes : Modes}
  {excluded : Call → Bool}

/-- In parentheses a value takes away what its holder is reported for, and adds a report of the
assertion that was checked. -/
theorem File.Parenthesized.keys (h : File.Parenthesized holder value file file') (modes : Modes)
    (hexcluded : ∀ c, excluded c.shape = excluded c) :
    ∃ before after,
      (file.sites modes excluded).map Site.key = before ++
        ((holder.sites value modes excluded).map Site.key ++ holder.keysOfTargets modes excluded) ++
          after ∧
      (file'.sites modes excluded).map Site.key = before ++
        (holder.keysOfTargets modes excluded ++ holder.exposed value modes) ++ after := by
  obtain ⟨lparen, type, h⟩ := h
  have hchecked : (Occurrence.mk (.file file) none).isChecked =
      (Occurrence.mk (.file file') none).isChecked := rfl
  obtain ⟨before, after, hkeys, hkeys'⟩ := h.keys_around (holder.around_ne_expr value)
    (holder.around_ne_expr _) modes hexcluded hchecked
  refine ⟨before, (Node.expr value).keys modes excluded
    (some (holder.around value, holder.targets.length)) ++ after, ?_, ?_⟩
  · rw [File.keys_eq, hkeys, Holder.keys_around]
    simp only [List.append_assoc]
  · rw [File.keys_eq, hkeys', Holder.keys_around, Holder.sites_paren, Holder.keys_paren,
      holder.keys_unchecked]
    simp only [List.map_nil, List.nil_append, List.append_assoc]

/-- The two lists are the same only if neither the holder is reported nor the assertion: one report
does not make up for the other, the second target being apart from the assertion. -/
theorem Holder.not_heeds_of_eq
    (hapart : ∀ ok, holder.targets[1]? = some ok → ok.pos ≠ value.pos)
    (h : holder.keysOfTargets modes excluded ++ holder.exposed value modes =
      (holder.sites value modes excluded).map Site.key ++ holder.keysOfTargets modes excluded) :
    ¬ Holder.Heeds modes excluded holder value := by
  have hlength :
      (holder.exposed value modes).length = (holder.sites value modes excluded).length := by
    have := congrArg List.length h
    simp only [List.length_append, List.length_map] at this
    omega
  suffices hexposed : holder.exposed value modes = [] by
    rw [heeds_iff, hexposed]
    rw [hexposed] at hlength
    simpa using (List.length_eq_zero_iff.mp hlength.symm)
  by_contra hexposed
  unfold exposed at h hlength hexposed
  split at hexposed
  · rename_i hchecks
    rw [if_pos hchecks] at h hlength
    obtain ⟨site, hsites⟩ := List.length_eq_one_iff.mp hlength.symm
    rw [hsites] at h
    have hkey := eq_of_cons_eq_append h.symm
    have hsite : site ∈ holder.sites value modes excluded := by
      rw [hsites]
      exact List.mem_singleton_self _
    obtain ⟨ok, hok, hoffset⟩ := offset_of_checks (Bool.and_eq_true_iff.mp hchecks).2 hsite
    exact hapart ok hok (hoffset.symm.trans (congrArg Prod.snd hkey))
  · exact hexposed rfl

end

/-- Parentheses around the value of a statement or declaration take away the reports of its holder,
and an assertion that the holder checks is reported instead. So what is reported for the file stays
the same if nothing is looked for in the value, and only then, the second target of an assertion
being apart from it. -/
theorem parentheses_unseen_iff (index : ExclusionIndex) (types : TypeTable) (modes : Modes)
    {holder : Holder} {value : Expr} {file file' : File}
    (h : File.Parenthesized holder value file file') :
    let excluded := index.excludes types
    let keys (file : File) := (file.sites modes excluded).map Site.key
    (∃ before after,
      keys file = before ++
        ((holder.sites value modes excluded).map Site.key ++ holder.keysOfTargets modes excluded) ++
          after ∧
      keys file' = before ++
        (holder.keysOfTargets modes excluded ++ holder.exposed value modes) ++ after) ∧
    (¬ Holder.Heeds modes excluded holder value → keys file' = keys file) ∧
    ((∀ ok, holder.targets[1]? = some ok → ok.pos ≠ value.pos) →
      keys file' = keys file → ¬ Holder.Heeds modes excluded holder value) := by
  intro excluded keys
  obtain ⟨before, after, hkeys, hkeys'⟩ := h.keys modes (index.excludes_shape types)
  refine ⟨⟨before, after, hkeys, hkeys'⟩, fun hheeds => ?_, fun hapart hsame => ?_⟩
  · rw [Holder.heeds_iff, not_or, not_not, not_not] at hheeds
    show List.map _ _ = List.map _ _
    rw [hkeys, hkeys', hheeds.1, hheeds.2, List.map_nil, List.nil_append, List.append_nil]
  · refine Holder.not_heeds_of_eq hapart ?_
    have hsame : before ++ _ ++ after = before ++ _ ++ after :=
      hkeys'.symm.trans (hsame.trans hkeys)
    exact List.append_cancel_left (List.append_cancel_right hsame)

/-! ## One statement -/

/-- A file with a function of one statement. -/
def oneStatement (s : Stmt) : File :=
  ⟨"p", 0, [.func ⟨⟨"main", 15, none, none⟩, 10, some (.mk [s] 19), none⟩]⟩

theorem replaces_oneStatement (s s' : Stmt) :
    Node.Replaces (.stmt s) (.stmt s') (.file (oneStatement s)) (.file (oneStatement s')) := by
  have hblock : Node.Replaces (.stmt s) (.stmt s') (Node.block (.mk [s] 19))
      (Node.block (.mk [s'] 19)) :=
    .inside [] [] rfl rfl rfl .here
  exact .inside [] [] rfl rfl rfl
    (.inside [Node.ident ⟨"main", 15, none, none⟩] [] rfl rfl rfl hblock)

/-- A call of `p.g` whose results have a type. -/
def callOfType (type : Option GoType) : Call :=
  .mk (.ident ⟨"g", 22, some (.func (some "p") "g" none none), none⟩) [] 23 24 type none

/-- Parentheses make no difference to a call that returns nothing, and one to a call that returns an
error. -/
theorem parentheses_around_calls :
    let keys (file : File) := (file.sites ⟨false, false⟩
      ((ExclusionIndex.ofSymbols [] false).excludes .initial)).map Site.key
    let bare (type : Option GoType) := oneStatement (.expr (.call (callOfType type)))
    let wrapped (type : Option GoType) :=
      oneStatement (.expr (.paren (.call (callOfType type)) 21 type))
    keys (wrapped none) = keys (bare none) ∧
      keys (wrapped (some .error)) ≠ keys (bare (some .error)) := by
  intro keys bare wrapped
  have hwrapped (type : Option GoType) :
      File.Parenthesized .alone (.call (callOfType type)) (bare type) (wrapped type) :=
    ⟨21, type, replaces_oneStatement _ _⟩
  constructor
  · refine (parentheses_unseen_iff _ _ _ (hwrapped none)).2.1 fun hheeds => ?_
    cases hheeds with
    | dropped hreturns _ => cases hreturns
    | blank hblank _ _ _ => cases hblank
    | checked hasserts _ => cases hasserts
  · intro hsame
    refine (parentheses_unseen_iff _ _ _ (hwrapped (some .error))).2.2 (fun _ h => nomatch h)
      hsame (.dropped rfl ?_)
    decide +kernel

/-- An assertion of a type. -/
def assertionOf (type : GoType) : Expr :=
  .typeAssert (.ident ⟨"x", 36, none, none⟩) 38 (some type) none

/-- Parentheses hide a call whose error is dropped and let an assertion be reported that is
checked. -/
theorem parentheses_hide_and_expose :
    let keys (modes : Modes) (file : File) := (file.sites modes
      ((ExclusionIndex.ofSymbols [] false).excludes .initial)).map Site.key
    (∃ file file', File.Parenthesized .alone (.call (callOfType (some .error))) file file' ∧
      keys ⟨false, false⟩ file = [(.uncheckedCall, 23)] ∧ keys ⟨false, false⟩ file' = []) ∧
    ∃ lhs file file',
      File.Parenthesized (.assigned lhs ":=" 32) (assertionOf (.basic "int")) file file' ∧
        keys ⟨false, true⟩ file = [] ∧ keys ⟨false, true⟩ file' = [(.uncheckedAssert, 36)] := by
  refine ⟨⟨_, _, ⟨21, none, replaces_oneStatement _ _⟩, ?_, ?_⟩,
    [.ident ⟨"v", 26, none, none⟩, .ident ⟨"ok", 29, none, none⟩], _, _,
    ⟨35, none, replaces_oneStatement _ _⟩, ?_, ?_⟩
  · decide +kernel
  · decide +kernel
  · decide +kernel
  · decide +kernel

end UncheckedErrors
