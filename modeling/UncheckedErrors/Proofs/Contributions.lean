import UncheckedErrors.Proofs.TypeDefinitions

/-!
# What top-level forms contribute

A top-level form is read the same way wherever it stands: what it contributes to a program can be
told from the form alone (`Datum.contribution?`), by reading it on the empty table. A sequence of
forms is read exactly if each of them contributes something and the type definitions among them fit
together, and then the program and its table of named types are put together from what they
contribute (`readTopLevels_eq_ok`).
-/

namespace UncheckedErrors

namespace TypeTable

/-- What happens to a table. -/
inductive Event where
  /-- A name is looked up, and entered if it is not there. -/
  | lookUp (n : TypeName)
  /-- A name gets its definition. -/
  | define (n : TypeName) (t : GoType)

/-- The table after an event. -/
def perform (table : TypeTable) : Event → TypeTable
  | .lookUp n => table.mention n
  | .define n t => table.define n t

/-- The table after several events, first to last. -/
def performAll (table : TypeTable) (events : List Event) : TypeTable := events.foldl perform table

theorem performAll_append (table : TypeTable) (events events' : List Event) :
    table.performAll (events ++ events') = (table.performAll events).performAll events' :=
  List.foldl_append

theorem performAll_lookUps (table : TypeTable) (names : List TypeName) :
    table.performAll (names.map .lookUp) = table.mentionAll names :=
  List.foldl_map

end TypeTable

/-- What a top-level form contributes to a program, with the names that are looked up for it. -/
inductive Contribution where
  | mod (mode : String)
  /-- The definition of a named type. Names are looked up in its type, and in its methods, which are
  not kept. -/
  | definition (n : TypeName) (t : GoType) (inType inMethods : List TypeName)
  | package (p : Package) (names : List TypeName)

namespace Contribution

/-- What happens to the table of named types when the form is read. -/
def events : Contribution → List TypeTable.Event
  | .mod _ => []
  | .definition n t inType inMethods =>
    .lookUp n :: (inType.map .lookUp ++ .define n t :: inMethods.map .lookUp)
  | .package _ names => names.map .lookUp

/-- The name that is defined. -/
def defined? : Contribution → Option TypeName
  | .definition n _ _ _ => some n
  | .mod _ | .package _ _ => none

/-- The parts of a program with the contribution added. -/
def addTo : Contribution → ProgramParts → ProgramParts
  | .mod mode, parts => { parts with mod := some mode }
  | .definition _ _ _ _, parts => parts
  | .package p _, parts => { parts with packages := parts.packages ++ [p] }

/-- The contribution can be taken in with this table: a definition is one of a new name, and not of
`error`. -/
def Fits (c : Contribution) (table : TypeTable) : Prop :=
  ∀ n ∈ c.defined?, n ≠ .error ∧ table.definition? n = none

end Contribution

/-- What a top-level form contributes, read by itself. -/
def Datum.contribution? (root : SourceRoot) : Datum → Option Contribution
  | .list (.symbol "mod" :: mode :: _) =>
    match mode.asString with
    | .ok s => some (.mod s)
    | .error _ => none
  | .list (.symbol "typedef" :: pkg :: name :: body :: rest) =>
    match typeName? pkg name, typesWithin stepLimit 2 body .empty, readMethods rest .empty with
    | some n, .ok (t, inType), .ok ((), inMethods) =>
      some (.definition n t inType.names inMethods.names)
    | _, _, _ => none
  | .list (.symbol "package" :: args) =>
    match readPackage root (.list (.symbol "package" :: args)) .empty with
    | .ok (p, table) => some (.package p table.names)
    | .error _ => none
  | _ => none

/-! ## One form -/

theorem performAll_definition (table : TypeTable) (n : TypeName) (t : GoType)
    (inType inMethods : List TypeName) :
    table.performAll (Contribution.definition n t inType inMethods).events =
      (((table.mention n).mentionAll inType).define n t).mentionAll inMethods := by
  show ((table.mention n).performAll (inType.map .lookUp ++ _)) = _
  rw [TypeTable.performAll_append, TypeTable.performAll_lookUps]
  show (((table.mention n).mentionAll inType).define n t).performAll (inMethods.map .lookUp) = _
  rw [TypeTable.performAll_lookUps]

section

variable {root : SourceRoot} {parts parts' : ProgramParts} {d : Datum} {table table' : TypeTable}

/-- What a top-level form is read as is its contribution, and it fits. -/
theorem exists_contribution_of_readTopLevel
    (h : readTopLevel root parts d table = .ok (parts', table')) :
    ∃ c, d.contribution? root = some c ∧ c.Fits table ∧ c.addTo parts = parts' ∧
      table.performAll c.events = table' := by
  simp only [readTopLevel, bind_eq_ok, Reader.lift_eq_ok, liftM_eq_ok, and_assoc, exists_and_left,
    exists_eq_left', Form.ofDatum_eq_ok] at h
  obtain ⟨⟨tag, args⟩, rfl, -, h⟩ := h
  dsimp only at h
  split at h
  · simp only [bind_eq_ok, Reader.lift_eq_ok, liftM_eq_ok, pure_eq_ok, and_assoc, exists_and_left,
      exists_eq_left', Prod.exists, Form.operand_eq_ok] at h
    obtain ⟨mode, rest, rfl, s, hs, rfl, rfl⟩ := h
    refine ⟨.mod s, ?_, (fun _ hn => absurd hn (Option.some_ne_none _).symm), rfl, rfl⟩
    rw [Datum.contribution?, hs]
  · simp only [bind_eq_ok, Reader.lift_eq_ok, pure_eq_ok] at h
    obtain ⟨_, _, hdef, rfl, rfl⟩ := h
    obtain ⟨pkg, name, body, rest, n, t, inType, inMethods, hargs, hn, hne, hnew, ht, hmethods,
      rfl⟩ := readTypedef_eq_ok.mp hdef
    refine ⟨.definition n t inType.names inMethods.names, ?_, ?_, rfl, performAll_definition ..⟩
    · rw [show args = _ from hargs, Datum.contribution?, hn, ht, hmethods]
    · rintro _ ⟨⟩
      exact ⟨hne, hnew⟩
  · obtain ⟨p, _, hp, h⟩ := bind_eq_ok.mp h
    obtain ⟨rfl, rfl⟩ := pure_eq_ok.mp h
    obtain ⟨first, hfirst, rfl⟩ := (mentions_package root _).eq_ok_iff.mp hp
    refine ⟨.package p first.names, ?_, (fun _ hn => absurd hn (Option.some_ne_none _).symm), rfl,
      TypeTable.performAll_lookUps ..⟩
    rw [Datum.contribution?, hfirst]
  · exact absurd h throw_eq_ok.mp

/-- A top-level form that contributes something is read if this fits. -/
theorem readTopLevel_of_contribution {c : Contribution} (hc : d.contribution? root = some c)
    (hfits : c.Fits table) :
    readTopLevel root parts d table = .ok (c.addTo parts, table.performAll c.events) := by
  simp only [readTopLevel, bind_eq_ok, Reader.lift_eq_ok, liftM_eq_ok, and_assoc, exists_and_left,
    exists_eq_left', Form.ofDatum_eq_ok]
  unfold Datum.contribution? at hc
  split at hc
  · rename_i mode rest
    split at hc
    · rename_i s hs
      cases hc
      refine ⟨⟨"mod", mode :: rest⟩, rfl, Nat.le_add_left .., ?_⟩
      simp only [bind_eq_ok, Reader.lift_eq_ok, liftM_eq_ok, pure_eq_ok, and_assoc,
        exists_and_left, exists_eq_left', Prod.exists, Form.operand_eq_ok]
      exact ⟨mode, rest, rfl, s, hs, rfl, rfl⟩
    · cases hc
  · rename_i pkg name body rest
    split at hc
    · rename_i n t inType inMethods hn ht hmethods
      cases hc
      obtain ⟨hne, hnew⟩ := hfits n rfl
      refine ⟨⟨"typedef", pkg :: name :: body :: rest⟩, rfl, Nat.le_add_left .., ?_⟩
      simp only [bind_eq_ok, Reader.lift_eq_ok, pure_eq_ok]
      refine ⟨(), _, readTypedef_eq_ok.mpr ?_, rfl, (performAll_definition ..).symm⟩
      exact ⟨pkg, name, body, rest, n, t, inType, inMethods, rfl, hn, hne, hnew, ht, hmethods,
        rfl⟩
    · cases hc
  · rename_i args
    split at hc
    · rename_i p first hfirst
      cases hc
      refine ⟨⟨"package", args⟩, rfl, Nat.le_add_left .., bind_eq_ok.mpr ⟨p, _, ?_, rfl⟩⟩
      exact (mentions_package root _).eq_ok_iff.mpr
        ⟨first, hfirst, (TypeTable.performAll_lookUps ..).symm⟩
    · cases hc
  · cases hc

/-- A top-level form is read exactly if it contributes something that fits. -/
theorem readTopLevel_eq_ok :
    readTopLevel root parts d table = .ok (parts', table') ↔
      ∃ c, d.contribution? root = some c ∧ c.Fits table ∧ c.addTo parts = parts' ∧
        table.performAll c.events = table' := by
  refine ⟨exists_contribution_of_readTopLevel, ?_⟩
  rintro ⟨c, hc, hfits, rfl, rfl⟩
  exact readTopLevel_of_contribution hc hfits

end

/-! ## Many forms -/

/-- What top-level forms contribute, in their order. -/
def contributions (root : SourceRoot) (forms : List Datum) : List Contribution :=
  forms.filterMap (Datum.contribution? root)

/-- What happens to the table of named types when top-level forms are read. -/
def tableEvents (root : SourceRoot) (forms : List Datum) : List TypeTable.Event :=
  (contributions root forms).flatMap Contribution.events

/-- The parts of a program with several contributions added, first to last. -/
def ProgramParts.addAll (parts : ProgramParts) (cs : List Contribution) : ProgramParts :=
  cs.foldl (fun parts c => c.addTo parts) parts

/-- Contributions fit together if no name is defined twice, neither by them nor in the table. -/
structure FitTogether (cs : List Contribution) (table : TypeTable) : Prop where
  nodup : (cs.filterMap Contribution.defined?).Nodup
  new {n : TypeName} : n ∈ cs.filterMap Contribution.defined? →
    n ≠ .error ∧ table.definition? n = none

theorem definition?_events (c : Contribution) (table : TypeTable) (m : TypeName) :
    (table.performAll c.events).definition? m =
      match c with
      | .definition n t _ _ => if n = m then some t else table.definition? m
      | _ => table.definition? m := by
  cases c with
  | mod mode => rfl
  | definition n t inType inMethods =>
    rw [performAll_definition, TypeTable.definition?_mentionAll, TypeTable.definition?_define,
      TypeTable.definition?_mentionAll, TypeTable.definition?_mention]
  | package p names =>
    rw [Contribution.events, TypeTable.performAll_lookUps, TypeTable.definition?_mentionAll]

theorem definition?_events_eq_none {c : Contribution} {table : TypeTable} {m : TypeName} :
    (table.performAll c.events).definition? m = none ↔
      m ∉ c.defined? ∧ table.definition? m = none := by
  rw [definition?_events]
  cases c with
  | mod mode => simp [Contribution.defined?]
  | package p names => simp [Contribution.defined?]
  | definition n t inType inMethods =>
    by_cases h : n = m <;> simp [Contribution.defined?, h]

theorem fitTogether_nil (table : TypeTable) : FitTogether [] table :=
  ⟨List.nodup_nil, fun h => absurd h List.not_mem_nil⟩

theorem FitTogether.of_sublist {cs cs' : List Contribution} {table : TypeTable}
    (h : FitTogether cs table) (hsub : cs'.Sublist cs) : FitTogether cs' table where
  nodup := h.nodup.sublist (hsub.filterMap _)
  new hn := h.new ((hsub.filterMap _).subset hn)

theorem fitTogether_cons {c : Contribution} {cs : List Contribution} {table : TypeTable} :
    FitTogether (c :: cs) table ↔ c.Fits table ∧ FitTogether cs (table.performAll c.events) := by
  constructor
  · rintro ⟨hnodup, hnew⟩
    refine ⟨fun n hn => hnew ?_, hnodup.sublist ((List.sublist_cons_self c cs).filterMap _), ?_⟩
    · exact List.mem_filterMap.mpr ⟨c, List.mem_cons_self, hn⟩
    · intro n hn
      obtain ⟨hne, hnone⟩ := hnew (((List.sublist_cons_self c cs).filterMap _).subset hn)
      refine ⟨hne, definition?_events_eq_none.mpr ⟨fun hc => ?_, hnone⟩⟩
      rw [List.filterMap_cons, Option.mem_def.mp hc] at hnodup
      exact (List.nodup_cons.mp hnodup).1 hn
  · rintro ⟨hfits, hnodup, hnew⟩
    simp only [definition?_events_eq_none] at hnew
    cases hc : c.defined? with
    | none =>
      have hnames : (c :: cs).filterMap Contribution.defined? =
          cs.filterMap Contribution.defined? := by rw [List.filterMap_cons, hc]
      exact ⟨hnames ▸ hnodup, fun hn => ⟨(hnew (hnames ▸ hn)).1, (hnew (hnames ▸ hn)).2.2⟩⟩
    | some n =>
      have hnames : (c :: cs).filterMap Contribution.defined? =
          n :: cs.filterMap Contribution.defined? := by rw [List.filterMap_cons, hc]
      refine ⟨hnames ▸ List.nodup_cons.mpr ⟨fun hn => (hnew hn).2.1 hc, hnodup⟩, fun hm => ?_⟩
      rw [hnames, List.mem_cons] at hm
      rcases hm with rfl | hm
      · exact hfits _ hc
      · exact ⟨(hnew hm).1, (hnew hm).2.2⟩

/-- Top-level forms are read exactly if each of them contributes something and the contributions fit
together. -/
theorem readTopLevels_eq_ok {root : SourceRoot} {forms : List Datum} {parts parts' : ProgramParts}
    {table table' : TypeTable} :
    forms.foldlM (readTopLevel root) parts table = .ok (parts', table') ↔
      (∀ d ∈ forms, (d.contribution? root).isSome) ∧ FitTogether (contributions root forms) table ∧
        parts.addAll (contributions root forms) = parts' ∧
        table.performAll (tableEvents root forms) = table' := by
  induction forms generalizing parts table with
  | nil =>
    rw [List.foldlM_nil, pure_eq_ok]
    simp [contributions, tableEvents, fitTogether_nil, ProgramParts.addAll, TypeTable.performAll]
  | cons d forms ih =>
    rw [List.foldlM_cons, bind_eq_ok]
    simp only [readTopLevel_eq_ok, ih]
    cases hd : d.contribution? root with
    | none => simp [hd]
    | some c =>
      have hcontributions : contributions root (d :: forms) = c :: contributions root forms := by
        rw [contributions, List.filterMap_cons, hd, contributions]
      have hevents : tableEvents root (d :: forms) = c.events ++ tableEvents root forms := by
        rw [tableEvents, hcontributions, List.flatMap_cons, tableEvents]
      rw [hcontributions, hevents, fitTogether_cons, TypeTable.performAll_append]
      simp only [Option.some.injEq, exists_eq_left', List.forall_mem_cons, hd, Option.isSome_some,
        true_and, ProgramParts.addAll, List.foldl_cons, and_assoc, exists_and_left]
      exact and_left_comm

/-- Contributions that fit together define what they say, and nothing else. -/
theorem definition?_of_fitTogether {cs : List Contribution} {table : TypeTable}
    (h : FitTogether cs table) {m : TypeName} {t : GoType} :
    (table.performAll (cs.flatMap Contribution.events)).definition? m = some t ↔
      table.definition? m = some t ∨
        ∃ inType inMethods, Contribution.definition m t inType inMethods ∈ cs := by
  induction cs generalizing table with
  | nil => simp [TypeTable.performAll]
  | cons c cs ih =>
    obtain ⟨hfits, hcs⟩ := fitTogether_cons.mp h
    rw [List.flatMap_cons, TypeTable.performAll_append, ih hcs, definition?_events]
    cases c with
    | mod mode => simp
    | package p names => simp
    | definition n u inType inMethods =>
      by_cases hn : n = m
      · subst hn
        simp [(hfits n rfl).2, exists_or, eq_comm]
      · simp [hn, Ne.symm hn]

/-- A package among the parts of a program is one of those that were added. -/
theorem mem_packages_addAll {parts : ProgramParts} {cs : List Contribution} {p : Package} :
    p ∈ (parts.addAll cs).packages ↔
      p ∈ parts.packages ∨ ∃ names, Contribution.package p names ∈ cs := by
  induction cs generalizing parts with
  | nil => simp [ProgramParts.addAll]
  | cons c cs ih =>
    show p ∈ ((c.addTo parts).addAll cs).packages ↔ _
    rw [ih]
    cases c with
    | mod mode => simp [Contribution.addTo]
    | definition n t inType inMethods => simp [Contribution.addTo]
    | package q names =>
      simp [Contribution.addTo, exists_or, or_assoc]

/-! ## Names -/

/-- The names in what is contributed are looked up for it. -/
def Contribution.Covered : Contribution → Prop
  | .mod _ => True
  | .definition _ t inType _ => t.names ⊆ {n | n ∈ inType}
  | .package p names => namesIn ParsedFile.names p.files ⊆ {n | n ∈ names}

theorem covered_of_contribution? {root : SourceRoot} {d : Datum} {c : Contribution}
    (h : d.contribution? root = some c) : c.Covered := by
  unfold Datum.contribution? at h
  split at h
  · split at h
    · cases h
      trivial
    · cases h
  · split at h
    · rename_i ht _
      cases h
      exact (mentioning_typesWithin stepLimit 2 _).subset_names ht
    · cases h
  · split at h
    · rename_i hfirst
      cases h
      exact (mentions_package root _).subset_names hfirst
    · cases h
  · cases h

end UncheckedErrors
