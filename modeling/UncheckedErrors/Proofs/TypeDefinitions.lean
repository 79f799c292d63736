import UncheckedErrors.Proofs.Coherence
import UncheckedErrors.Proofs.Mentions

/-!
# Type definitions of a dump and of its program

The table of a program that is read defines the names that the dump defines, each as the type that
its form was read as (`TypeTable.Holds`, `holds_of_readProgram`). Nothing is defined twice, and
`error` is defined from the start.

Of a form of a type only names and interfaces matter here; `Datum.ReadAs.shapes` says what they are
read as.
-/

namespace UncheckedErrors

/-! ## Forms of types -/

namespace Datum

/-- The form can be read as this type. -/
def ReadAs (d : Datum) (t : GoType) : Prop :=
  ∃ depth steps table table', readTypeWithin depth steps d table = .ok (t, table')

/-- The name of a type that two data write. -/
def typeName? (pkg name : Datum) : Option TypeName :=
  match pkg.asPackage, name.asString with
  | .ok pkg, .ok name => some ⟨pkg, name⟩
  | _, _ => none

/-- The form of a member of an interface can be read as this member, the type of a method left
aside. -/
def MemberReadAs (d : Datum) : InterfaceMember → Prop
  | .method m => ∃ name rest, d = .list (.symbol "method" :: name :: rest) ∧
      name.asString = .ok m.name
  | .embed t => ∃ e rest, d = .list (.symbol "embed" :: e :: rest) ∧ e.ReadAs t

end Datum

theorem typeName?_eq_some {pkg name : Datum} {n : TypeName} :
    Datum.typeName? pkg name = some n ↔
      ∃ path s, pkg.asString = .ok path ∧ name.asString = .ok s ∧ n = .ofPath path s := by
  unfold Datum.typeName? Datum.asPackage
  cases pkg.asString with
  | error e => simp [bind, Except.bind]
  | ok path =>
    cases name.asString with
    | error e => simp
    | ok s =>
      constructor
      · rintro ⟨⟩
        exact ⟨path, s, rfl, rfl, rfl⟩
      · rintro ⟨_, _, ⟨⟩, ⟨⟩, rfl⟩
        rfl

theorem readTypeName_eq_ok {pkg name : Datum} {n : TypeName} {table table' : TypeTable} :
    readTypeName pkg name table = .ok (n, table') ↔
      Datum.typeName? pkg name = some n ∧ table.mention n = table' := by
  simp only [readTypeName, bind_eq_ok, liftM_eq_ok, pure_eq_ok, modify_eq_ok, and_assoc,
    exists_and_left, exists_eq_left', exists_const]
  unfold Datum.typeName?
  cases pkg.asPackage with
  | error e => simp
  | ok p =>
    cases name.asString with
    | error e => simp
    | ok s =>
      simp only [Except.ok.injEq, exists_eq_left', Option.some.injEq]
      exact and_congr_right fun h => by rw [h]

theorem yields_interfaceMember {type : TypeReader}
    (htype : ∀ cost d, Yields (type cost d) d.ReadAs) (d : Datum) :
    Yields (readInterfaceMember type d) d.MemberReadAs := by
  intro table m table' h
  simp only [readInterfaceMember, bind_eq_ok, liftM_eq_ok, and_assoc, exists_and_left,
    exists_eq_left', Form.ofDatum_eq_ok] at h
  obtain ⟨⟨tag, args⟩, rfl, -, h⟩ := h
  dsimp only at h
  split at h
  · simp only [bind_eq_ok, liftM_eq_ok, pure_eq_ok, and_assoc, exists_and_left, exists_eq_left',
      Prod.exists, Form.operands2_eq_ok] at h
    obtain ⟨name, t, rest, rfl, s, hs, u, _, -, rfl, -⟩ := h
    exact ⟨name, t :: rest, rfl, hs⟩
  · simp only [bind_eq_ok, liftM_eq_ok, pure_eq_ok, and_assoc, exists_and_left, exists_eq_left',
      Prod.exists, Form.operand_eq_ok] at h
    obtain ⟨t, rest, rfl, u, _, hu, rfl, -⟩ := h
    exact ⟨t, rest, rfl, htype 2 t _ _ _ hu⟩
  · exact absurd h throw_eq_ok.mp

/-- What a form of a type is read as: a name as that name, an interface as one with the members of
the form, and anything else as something else. -/
def Datum.Shapes (d : Datum) (t : GoType) : Prop :=
  (∃ pkg name rest n, d = .list (.symbol "named" :: pkg :: name :: rest) ∧
      Datum.typeName? pkg name = some n ∧ t = .named n) ∨
    (∃ members ms, d = .list (.symbol "interface" :: members) ∧
      List.Forall₂ Datum.MemberReadAs members ms ∧
      t = .interface (ms.filterMap (·.method?)) (ms.filterMap (·.embed?))) ∨
    (∀ args, d ≠ .list (.symbol "named" :: args) ∧ d ≠ .list (.symbol "interface" :: args)) ∧
      t.kind ≠ .named ∧ t.kind ≠ .interface

theorem shapes_other {tag : String} {args : List Datum} {t : GoType}
    (htag : tag ≠ "named" ∧ tag ≠ "interface") (kind : TypeKind) (hkind : t.kind = kind)
    (hother : kind ≠ .named ∧ kind ≠ .interface) :
    (Datum.list (.symbol tag :: args)).Shapes t := by
  refine .inr (.inr ⟨fun _ => ⟨fun h => ?_, fun h => ?_⟩, hkind ▸ hother⟩)
  · cases h
    exact htag.1 rfl
  · cases h
    exact htag.2 rfl

theorem yields_typeForm {type : TypeReader} (htype : ∀ cost d, Yields (type cost d) d.ReadAs)
    (form : Form) :
    Yields (readTypeForm type form) (Datum.list (.symbol form.tag :: form.args)).Shapes := by
  obtain ⟨tag, args⟩ := form
  intro table t table' h
  unfold readTypeForm at h
  dsimp only at h ⊢
  split at h
  all_goals
    simp only [bind_eq_ok, liftM_eq_ok, pure_eq_ok, throw_eq_ok, and_assoc, exists_and_left,
      exists_eq_left', Prod.exists, Form.operand_eq_ok, Form.operands2_eq_ok] at h
  · obtain ⟨_, _, -, _, -, rfl, -⟩ := h
    exact shapes_other (by decide) .basic rfl (by decide)
  · obtain ⟨pkg, name, rest, rfl, n, _, hn, rfl, -⟩ := h
    exact .inl ⟨pkg, name, rest, n, rfl, (readTypeName_eq_ok.mp hn).1, rfl⟩
  · obtain ⟨_, _, -, _, _, -, rfl, -⟩ := h
    exact shapes_other (by decide) .pointer rfl (by decide)
  · obtain ⟨_, _, -, _, _, -, rfl, -⟩ := h
    exact shapes_other (by decide) .slice rfl (by decide)
  · obtain ⟨_, _, _, -, _, _, -, _, -, rfl, -⟩ := h
    exact shapes_other (by decide) .array rfl (by decide)
  · obtain ⟨_, _, _, -, _, _, -, _, _, -, rfl, -⟩ := h
    exact shapes_other (by decide) .map rfl (by decide)
  · obtain ⟨_, _, -, _, _, -, rfl, -⟩ := h
    exact shapes_other (by decide) .chan rfl (by decide)
  · obtain ⟨_, _, -, rfl, -⟩ := h
    exact shapes_other (by decide) .tuple rfl (by decide)
  · obtain ⟨rfl, -⟩ := h
    exact shapes_other (by decide) .invalid rfl (by decide)
  · obtain ⟨_, _, -, rfl, -⟩ := h
    exact shapes_other (by decide) .struct rfl (by decide)
  · obtain ⟨ms, _, hms, rfl, -⟩ := h
    have hmembers := Yields.mapM (yields_interfaceMember htype) args _ _ _ hms
    exact .inr (.inl ⟨args, ms, rfl, hmembers, rfl⟩)
  · obtain ⟨_, -, _, _, -, _, _, -, rfl, -⟩ := h
    exact shapes_other (by decide) .signature rfl (by decide)

theorem Datum.ReadAs.shapes {d : Datum} {t : GoType} (h : d.ReadAs t) : d.Shapes t := by
  obtain ⟨depth, steps, table, table', h⟩ := h
  cases depth with
  | zero => exact absurd h throw_eq_ok.mp
  | succ depth =>
    rw [readTypeWithin] at h
    refine Yields.within ?_ steps _ _ _ h
    intro table t table' h
    simp only [bind_eq_ok, liftM_eq_ok, and_assoc, exists_and_left, exists_eq_left',
      Form.ofDatum_eq_ok] at h
    obtain ⟨form, rfl, -, h⟩ := h
    refine yields_typeForm ?_ form _ _ _ h
    exact fun cost e s u s' hu => ⟨depth, steps - cost, s, s', hu⟩

namespace Datum.ReadAs

theorem eq_named {pkg name : Datum} {rest : List Datum} {t : GoType} {n : TypeName}
    (h : (Datum.list (.symbol "named" :: pkg :: name :: rest)).ReadAs t)
    (hn : Datum.typeName? pkg name = some n) : t = .named n := by
  rcases h.shapes with ⟨pkg', name', rest', n', hd, hn', rfl⟩ | ⟨_, _, hd, -⟩ | ⟨hother, -⟩
  · cases hd
    rw [hn] at hn'
    cases hn'
    rfl
  · simp at hd
  · exact absurd rfl (hother _).1

theorem eq_interface {members : List Datum} {t : GoType}
    (h : (Datum.list (.symbol "interface" :: members)).ReadAs t) :
    ∃ ms, List.Forall₂ Datum.MemberReadAs members ms ∧
      t = .interface (ms.filterMap (·.method?)) (ms.filterMap (·.embed?)) := by
  rcases h.shapes with ⟨_, _, _, _, hd, -⟩ | ⟨members', ms, hd, hms, rfl⟩ | ⟨hother, -⟩
  · simp at hd
  · cases hd
    exact ⟨ms, hms, rfl⟩
  · exact absurd rfl (hother _).2

theorem named_form {d : Datum} {n : TypeName} (h : d.ReadAs (.named n)) :
    ∃ pkg name rest, d = .list (.symbol "named" :: pkg :: name :: rest) ∧
      Datum.typeName? pkg name = some n := by
  rcases h.shapes with ⟨pkg, name, rest, m, rfl, hm, hn⟩ | ⟨_, _, -, -, ht⟩ | ⟨-, hkind, -⟩
  · cases hn
    exact ⟨pkg, name, rest, rfl, hm⟩
  · cases ht
  · exact absurd rfl hkind

theorem interface_form {d : Datum} {methods : List Method} {embedded : List GoType}
    (h : d.ReadAs (.interface methods embedded)) :
    ∃ members ms, d = .list (.symbol "interface" :: members) ∧
      List.Forall₂ Datum.MemberReadAs members ms ∧
      methods = ms.filterMap (·.method?) ∧ embedded = ms.filterMap (·.embed?) := by
  rcases h.shapes with ⟨_, _, _, _, -, -, ht⟩ | ⟨members, ms, rfl, hms, ht⟩ | ⟨-, -, hkind⟩
  · cases ht
  · cases ht
    exact ⟨members, ms, rfl, hms, rfl, rfl⟩
  · exact absurd rfl hkind

end Datum.ReadAs

/-! ## Definitions -/

namespace Datum

/-- The name and the form of its type in a form `(typedef PKG NAME TYPE ...)`. -/
def typedef? : Datum → Option (TypeName × Datum)
  | .list (.symbol "typedef" :: pkg :: name :: body :: _) => (typeName? pkg name).map (·, body)
  | _ => none

/-- The form of the interface that the predeclared type `error` stands for. -/
def errorForm : Datum :=
  .list [.symbol "interface", .list [.symbol "method", .string "Error",
    .list [.symbol "signature", .list [.symbol "results",
      .list [.symbol "basic", .string "string"]]]]]

/-- The definitions of a form `(program ...)`, that of `error` included. -/
def definitions : Datum → List (TypeName × Datum)
  | .list (_ :: forms) => (.error, errorForm) :: forms.filterMap typedef?
  | _ => [(.error, errorForm)]

end Datum

/-- The table defines the names of these definitions and no others, each as a type that its form can
be read as. -/
structure TypeTable.Holds (table : TypeTable) (definitions : List (TypeName × Datum)) : Prop where
  defined {n : TypeName} {body : Datum} : (n, body) ∈ definitions →
    ∃ t, table.definition? n = some t ∧ body.ReadAs t
  only {n : TypeName} {t : GoType} : table.definition? n = some t →
    ∃ body, (n, body) ∈ definitions ∧ body.ReadAs t

theorem holds_initial : TypeTable.initial.Holds [(.error, Datum.errorForm)] := by
  have hread : Datum.errorForm.ReadAs TypeTable.errorInterface :=
    ⟨stepLimit, stepLimit, .initial, .initial, rfl⟩
  constructor
  · intro n body h
    cases List.mem_singleton.mp h
    exact ⟨TypeTable.errorInterface, by simp, hread⟩
  · intro n t h
    rw [TypeTable.definition?_initial] at h
    split at h
    · rename_i hn
      cases h
      exact ⟨_, List.mem_singleton.mpr (by rw [hn]), hread⟩
    · cases h

/-- A table holds on to its definitions as long as nothing is defined. -/
theorem TypeTable.Holds.congr {table table' : TypeTable} {definitions : List (TypeName × Datum)}
    (h : table.Holds definitions) (heq : ∀ n, table'.definition? n = table.definition? n) :
    table'.Holds definitions where
  defined hmem := by simpa only [heq] using h.defined hmem
  only hdef := h.only (by rwa [heq] at hdef)

theorem TypeTable.Holds.define {table table' : TypeTable} {definitions : List (TypeName × Datum)}
    (h : table.Holds definitions) {n : TypeName} {body : Datum} {t : GoType}
    (hnew : table.definition? n = none) (hbody : body.ReadAs t)
    (heq : ∀ m, table'.definition? m = if n = m then some t else table.definition? m) :
    table'.Holds (definitions ++ [(n, body)]) where
  defined {m form} hmem := by
    rcases List.mem_append.mp hmem with hmem | hmem
    · obtain ⟨u, hu, hread⟩ := h.defined hmem
      have hne : n ≠ m := by
        rintro rfl
        rw [hnew] at hu
        cases hu
      exact ⟨u, by rw [heq, if_neg hne, hu], hread⟩
    · cases List.mem_singleton.mp hmem
      exact ⟨t, by rw [heq, if_pos rfl], hbody⟩
  only {m u} hdef := by
    rw [heq] at hdef
    split at hdef
    · rename_i hm
      cases hdef
      exact ⟨body, List.mem_append_right _ (by rw [hm]; exact List.mem_singleton_self _), hbody⟩
    · obtain ⟨form, hmem, hread⟩ := h.only hdef
      exact ⟨form, List.mem_append_left _ hmem, hread⟩

/-! ## Readers of definitions and programs -/

/-- The methods after a type definition. -/
def readMethods (rest : List Datum) : Reader Unit := do
  for d in rest do
    let methods ← Form.tagged "methods" 0 d
    for m in methods.args do
      let _ ← readObject (typesWithin stepLimit) m

theorem mentions_methods (rest : List Datum) : Mentions ∅ (readMethods rest) fun _ => ∅ := by
  refine (Mentions.forIn (fun d _ => .after fun methods => ?_) rest PUnit.unit).bind fun _ =>
    .pure (Set.empty_subset _)
  refine (Mentions.forIn (fun m _ => ?_) methods.args PUnit.unit).bind fun _ =>
    .pure (Set.empty_subset _)
  exact (mentions_object (mentioning_typesWithin stepLimit) m).bind fun _ =>
    .pure (Set.empty_subset _)

/-- The definition of a type is checked for its name, then its type is read and entered, and last
its methods are read. -/
theorem readTypedef_eq_ok {form : Form} {table table' : TypeTable} :
    readTypedef form table = .ok ((), table') ↔
      ∃ pkg name body rest n t inType inMethods, form.args = pkg :: name :: body :: rest ∧
        Datum.typeName? pkg name = some n ∧ n ≠ .error ∧ table.definition? n = none ∧
        typesWithin stepLimit 2 body .empty = .ok (t, inType) ∧
        readMethods rest .empty = .ok ((), inMethods) ∧
        (((table.mention n).mentionAll inType.names).define n t).mentionAll inMethods.names =
          table' := by
  have hsteps : readTypedef form table = (do
      let operands ← form.operands3
      let n ← readTypeName operands.1 operands.2.1
      if n = .error then throw .errorRedefined
      if ((← get).definition? n).isSome then throw (.duplicateTypedef n.text)
      let t ← typesWithin stepLimit 2 operands.2.2.1
      modify (·.define n t)
      readMethods operands.2.2.2 : Reader Unit) table := rfl
  rw [hsteps]
  simp only [bind_eq_ok, liftM_eq_ok, and_assoc, exists_and_left, exists_eq_left', Prod.exists,
    Form.operands3_eq_ok, readTypeName_eq_ok, get_eq_ok, modify_eq_ok, check_eq_ok, exists_const,
    TypeTable.definition?_mention, Option.not_isSome_iff_eq_none]
  have htype := mentioning_typesWithin stepLimit 2
  constructor
  · rintro ⟨pkg, name, body, rest, hargs, n, hn, hne, hnew, t, _, ht, hmethods⟩
    obtain ⟨inType, hread, rfl⟩ := (htype body).eq_ok_iff.mp ht
    obtain ⟨inMethods, hloop, rfl⟩ := (mentions_methods rest).eq_ok_iff.mp hmethods
    exact ⟨pkg, name, body, rest, hargs, n, hn, hne, hnew, t, inType, hread, inMethods, hloop, rfl⟩
  · rintro ⟨pkg, name, body, rest, hargs, n, hn, hne, hnew, t, inType, ht, inMethods, hmethods, h⟩
    exact ⟨pkg, name, body, rest, hargs, n, hn, hne, hnew, t, _,
      (htype body).eq_ok_iff.mpr ⟨inType, ht, rfl⟩,
      (mentions_methods rest).eq_ok_iff.mpr ⟨inMethods, hmethods, h⟩⟩

/-- A top-level form adds the definition that it is, if it is one. -/
theorem holds_topLevel {root : SourceRoot} {parts parts' : ProgramParts} {d : Datum}
    {table table' : TypeTable} (h : readTopLevel root parts d table = .ok (parts', table'))
    {definitions : List (TypeName × Datum)} (hold : table.Holds definitions) :
    table'.Holds (definitions ++ d.typedef?.toList) := by
  simp only [readTopLevel, bind_eq_ok, Reader.lift_eq_ok, liftM_eq_ok, and_assoc, exists_and_left,
    exists_eq_left', Form.ofDatum_eq_ok] at h
  obtain ⟨⟨tag, args⟩, rfl, -, h⟩ := h
  dsimp only at h
  have hother (htag : tag ≠ "typedef") : (Datum.list (.symbol tag :: args)).typedef? = none := by
    unfold Datum.typedef?
    split
    · rename_i heq
      cases heq
      exact absurd rfl htag
    · rfl
  split at h
  · rw [hother (by decide), Option.toList_none, List.append_nil]
    simp only [bind_eq_ok, Reader.lift_eq_ok, liftM_eq_ok, pure_eq_ok, and_assoc, exists_and_left,
      exists_eq_left'] at h
    obtain ⟨_, -, _, -, -, rfl⟩ := h
    exact hold
  · simp only [bind_eq_ok, Reader.lift_eq_ok, pure_eq_ok] at h
    obtain ⟨_, _, hdef, -, rfl⟩ := h
    obtain ⟨pkg, name, body, rest, n, t, inType, inMethods, hargs, hn, -, hnew, ht, -, rfl⟩ :=
      readTypedef_eq_ok.mp hdef
    dsimp only at hargs
    rw [hargs, Datum.typedef?, hn]
    refine hold.define hnew ⟨stepLimit, stepLimit - 2, .empty, inType, ht⟩ fun m => ?_
    rw [TypeTable.definition?_mentionAll, TypeTable.definition?_define,
      TypeTable.definition?_mentionAll, TypeTable.definition?_mention]
  · rw [hother (by decide), Option.toList_none, List.append_nil]
    obtain ⟨p, _, hp, h⟩ := bind_eq_ok.mp h
    obtain ⟨-, rfl⟩ := pure_eq_ok.mp h
    exact hold.congr (observes_package root _ _ _ _ hp).2
  · exact absurd h throw_eq_ok.mp

theorem holds_topLevels {root : SourceRoot} {parts parts' : ProgramParts} {ds : List Datum}
    {table table' : TypeTable}
    (h : ds.foldlM (readTopLevel root) parts table = .ok (parts', table'))
    {definitions : List (TypeName × Datum)} (hold : table.Holds definitions) :
    table'.Holds (definitions ++ ds.filterMap Datum.typedef?) := by
  induction ds generalizing parts table definitions with
  | nil =>
    obtain ⟨-, rfl⟩ := pure_eq_ok.mp h
    rwa [List.filterMap_nil, List.append_nil]
  | cons d ds ih =>
    rw [List.foldlM_cons] at h
    obtain ⟨parts₁, table₁, hd, h⟩ := bind_eq_ok.mp h
    have hds := ih h (holds_topLevel hd hold)
    rw [List.append_assoc] at hds
    rw [List.filterMap_cons]
    cases htypedef : d.typedef? with
    | none => simpa [htypedef] using hds
    | some definition => simpa [htypedef] using hds

/-- The types of a program that is read are those that the dump defines. -/
theorem holds_of_readProgram {root : SourceRoot} {d : Datum} {program : Program}
    (h : readProgram root d = .ok program) : program.types.Holds d.definitions := by
  unfold readProgram at h
  obtain ⟨⟨parts, types⟩, hread, h⟩ := exceptBind_eq_ok.mp h
  cases h
  simp only [StateT.run, bind_eq_ok, Reader.lift_eq_ok, liftM_eq_ok, and_assoc, exists_and_left,
    exists_eq_left', Form.tagged_eq_ok] at hread
  obtain ⟨form, rfl, -, -, hparts⟩ := hread
  exact holds_topLevels hparts holds_initial

end UncheckedErrors
