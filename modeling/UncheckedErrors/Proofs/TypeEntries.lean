import Mathlib.Data.List.Nodup
import UncheckedErrors.Proofs.Contributions
import UncheckedErrors.Proofs.PackageSelection

/-!
# Entries of named types

While top-level forms are read, names are looked up in the table of named types and get their
definitions there. What happens is lawful: only a name that was looked up is defined, it is defined
once, and `error` is not (`TypeTable.Lawful`, `lawful_tableEvents`). So at every point of a run each
name has at most one entry, which it keeps, with at most one definition, which stays
(`TypeTable.Canonical`).

Every named type that occurs in a program has an entry, and the predeclared `error` is the type of
the first one (`named_types_canonical`).
-/

namespace UncheckedErrors

namespace TypeTable

/-! ## Lawful events -/

/-- The name that is looked up. -/
def Event.lookedUp? : Event → Option TypeName
  | .lookUp n => some n
  | .define _ _ => none

/-- The name that gets its definition. -/
def Event.defined? : Event → Option TypeName
  | .lookUp _ => none
  | .define n _ => some n

/-- The names looked up in some events, in order. -/
def lookedUp (events : List Event) : List TypeName := events.filterMap Event.lookedUp?

/-- The names defined in some events, in order. -/
def defined (events : List Event) : List TypeName := events.filterMap Event.defined?

@[simp] theorem lookedUp_append (events events' : List Event) :
    lookedUp (events ++ events') = lookedUp events ++ lookedUp events' :=
  List.filterMap_append

@[simp] theorem defined_append (events events' : List Event) :
    defined (events ++ events') = defined events ++ defined events' :=
  List.filterMap_append

@[simp] theorem lookedUp_lookUps (ns : List TypeName) : lookedUp (ns.map .lookUp) = ns := by
  simp [lookedUp, List.filterMap_map, Function.comp_def, Event.lookedUp?]

@[simp] theorem defined_lookUps (ns : List TypeName) : defined (ns.map .lookUp) = [] := by
  simp [defined, List.filterMap_map, Function.comp_def, Event.defined?]

/-- Only a name that was looked up gets a definition, it gets one once, and `error` gets none. -/
def Lawful (events : List Event) : Prop :=
  ∀ before n t, before ++ [.define n t] <+: events →
    n ≠ .error ∧ n ∈ lookedUp before ∧ n ∉ defined before

theorem Lawful.earlier {before events : List Event} (h : Lawful events)
    (hbefore : before <+: events) : Lawful before :=
  fun first n t hfirst => h first n t (hfirst.trans hbefore)

theorem lawful_nil : Lawful [] := fun _ _ _ h => by simp at h

/-- It is enough to look at the last event. -/
theorem lawful_concat {events : List Event} {e : Event} :
    Lawful (events ++ [e]) ↔ Lawful events ∧
      ∀ n t, e = .define n t → n ≠ .error ∧ n ∈ lookedUp events ∧ n ∉ defined events := by
  constructor
  · intro h
    refine ⟨h.earlier (List.prefix_append ..), ?_⟩
    rintro n t rfl
    exact h events n t List.prefix_rfl
  · rintro ⟨h, hlast⟩ before n t hbefore
    rcases List.prefix_concat_iff.mp hbefore with heq | hbefore
    · obtain ⟨rfl, he⟩ := List.append_inj' heq rfl
      exact hlast n t (List.singleton_inj.mp he).symm
    · exact h before n t hbefore

theorem Lawful.lookUps {events : List Event} (h : Lawful events) (ns : List TypeName) :
    Lawful (events ++ ns.map .lookUp) := by
  induction ns using List.reverseRecOn with
  | nil => simpa using h
  | append_singleton ns n ih =>
    rw [List.map_append, ← List.append_assoc]
    exact lawful_concat.mpr ⟨ih, fun _ _ he => nomatch he⟩

/-! ## Entries -/

theorem names_define (table : TypeTable) (n : TypeName) (t : GoType) :
    (table.define n t).names = if n ∈ table.names then table.names else table.names ++ [n] :=
  OrderedMap.keys_insert ..

/-- An entry keeps its place. -/
theorem names_prefix_perform (table : TypeTable) (e : Event) :
    table.names <+: (table.perform e).names := by
  have hgrow (n : TypeName) :
      table.names <+: if n ∈ table.names then table.names else table.names ++ [n] := by
    split
    · exact List.prefix_rfl
    · exact List.prefix_append ..
  cases e with
  | lookUp n => exact (names_mention table n).symm ▸ hgrow n
  | define n t => exact (names_define table n t).symm ▸ hgrow n

theorem names_prefix_performAll (table : TypeTable) (events : List Event) :
    table.names <+: (table.performAll events).names := by
  induction events generalizing table with
  | nil => exact List.prefix_rfl
  | cons e events ih => exact (names_prefix_perform table e).trans (ih _)

/-- No name gets a second entry. -/
theorem nodup_names_perform {table : TypeTable} (h : table.names.Nodup) (e : Event) :
    (table.perform e).names.Nodup := by
  cases e with
  | lookUp n =>
    show (table.mention n).names.Nodup
    unfold mention
    split
    · exact h
    · exact OrderedMap.nodup_keys_insert h _ _
  | define n t => exact OrderedMap.nodup_keys_insert h _ _

theorem nodup_names_performAll {table : TypeTable} (h : table.names.Nodup) (events : List Event) :
    (table.performAll events).names.Nodup := by
  induction events generalizing table with
  | nil => exact h
  | cons e events ih => exact ih (nodup_names_perform h e)

theorem eraseDups_concat (ns : List TypeName) (n : TypeName) :
    (ns ++ [n]).eraseDups = if n ∈ ns then ns.eraseDups else ns.eraseDups ++ [n] := by
  rw [List.eraseDups_append]
  split
  · rename_i h
    rw [List.removeAll, List.filter_cons_of_neg (by simpa using h), List.filter_nil,
      List.eraseDups_nil, List.append_nil]
  · rename_i h
    rw [List.removeAll, List.filter_cons_of_pos (by simpa using h), List.filter_nil]
    rfl

/-- The entries are those of `error` and of the names looked up, in order of first look-up. -/
theorem names_performAll {events : List Event} (h : Lawful events) :
    (initial.performAll events).names = (.error :: lookedUp events).eraseDups := by
  induction events using List.reverseRecOn with
  | nil => rfl
  | append_singleton events e ih =>
    obtain ⟨hevents, he⟩ := lawful_concat.mp h
    have hnames := ih hevents
    have hmem (n : TypeName) : n ∈ (initial.performAll events).names ↔
        n ∈ TypeName.error :: lookedUp events := by rw [hnames, List.mem_eraseDups]
    rw [performAll_append, lookedUp_append, ← List.cons_append]
    cases e with
    | lookUp n =>
      show ((initial.performAll events).mention n).names = ((_ :: _) ++ [n]).eraseDups
      rw [names_mention, eraseDups_concat, hnames]
      simp only [List.mem_eraseDups]
    | define n t =>
      show ((initial.performAll events).define n t).names = ((_ :: _) ++ []).eraseDups
      have hn : n ∈ TypeName.error :: lookedUp events := List.mem_cons_of_mem _ (he n t rfl).2.1
      rw [names_define, if_pos ((hmem n).mpr hn), List.append_nil, hnames]

/-! ## Definitions -/

theorem mem_defined {events : List Event} {n : TypeName} :
    n ∈ defined events ↔ ∃ t, .define n t ∈ events := by
  rw [defined, List.mem_filterMap]
  constructor
  · rintro ⟨_ | ⟨m, t⟩, he, hn⟩
    · cases hn
    · cases hn
      exact ⟨t, he⟩
  · rintro ⟨t, ht⟩
    exact ⟨_, ht, rfl⟩

/-- A definition is that of `error`, or was entered. -/
theorem definition?_performAll {events : List Event} (h : Lawful events) {n : TypeName}
    {t : GoType} :
    (initial.performAll events).definition? n = some t ↔
      n = .error ∧ t = errorInterface ∨ .define n t ∈ events := by
  induction events using List.reverseRecOn with
  | nil =>
    show initial.definition? n = some t ↔ _
    rw [definition?_initial]
    grind
  | append_singleton events e ih =>
    obtain ⟨hevents, he⟩ := lawful_concat.mp h
    rw [performAll_append]
    cases e with
    | lookUp m =>
      show ((initial.performAll events).mention m).definition? n = some t ↔ _
      rw [definition?_mention, ih hevents]
      simp
    | define m u =>
      show ((initial.performAll events).define m u).definition? n = some t ↔ _
      rw [definition?_define]
      by_cases hm : m = n
      · subst hm
        obtain ⟨hne, -, hnew⟩ := he m u rfl
        have hfirst : .define m t ∉ events := fun ht => hnew (mem_defined.mpr ⟨t, ht⟩)
        simp [hne, hfirst, eq_comm]
      · rw [if_neg hm, ih hevents]
        simp [Ne.symm hm]

theorem definition?_performAll_eq_none {events : List Event} (h : Lawful events) {n : TypeName} :
    (initial.performAll events).definition? n = none ↔ n ≠ .error ∧ n ∉ defined events := by
  rw [Option.eq_none_iff_forall_ne_some]
  simp only [ne_eq, definition?_performAll h, mem_defined]
  grind

/-- A name is defined once, and `error` is not. -/
theorem nodup_defined {events : List Event} (h : Lawful events) :
    (defined events).Nodup ∧ .error ∉ defined events := by
  induction events using List.reverseRecOn with
  | nil => exact ⟨List.nodup_nil, List.not_mem_nil⟩
  | append_singleton events e ih =>
    obtain ⟨hevents, he⟩ := lawful_concat.mp h
    obtain ⟨hnodup, herror⟩ := ih hevents
    rw [defined_append]
    cases e with
    | lookUp n =>
      show (defined events ++ []).Nodup ∧ .error ∉ defined events ++ []
      rw [List.append_nil]
      exact ⟨hnodup, herror⟩
    | define n t =>
      obtain ⟨hne, -, hnew⟩ := he n t rfl
      show (defined events ++ [n]).Nodup ∧ .error ∉ defined events ++ [n]
      rw [← List.concat_eq_append]
      refine ⟨hnodup.concat hnew, ?_⟩
      simp [herror, Ne.symm hne]

/-- What is undefined has been looked up, and is listed in order of first look-up. -/
theorem undefined_performAll {events : List Event} (h : Lawful events) :
    (initial.performAll events).undefined =
      ((lookedUp events).filter (· ≠ .error)).eraseDups.filter (· ∉ defined events) := by
  have herror : ((initial.performAll events).definition? .error).isNone = false := by
    rw [Option.isNone_eq_false_iff, Option.isSome_iff_exists]
    exact ⟨_, (definition?_performAll h).mpr (.inl ⟨rfl, rfl⟩)⟩
  have hother : (fun n => !n == TypeName.error) = fun n => decide (n ≠ .error) := by
    funext n
    rw [decide_not, beq_eq_decide]
  rw [undefined, names_performAll h, List.eraseDups_cons,
    List.filter_cons_of_neg (by simp [herror]), hother]
  refine List.filter_congr fun n hn => ?_
  have hne : n ≠ .error := of_decide_eq_true (List.mem_filter.mp (List.mem_eraseDups.mp hn)).2
  rw [Bool.eq_iff_iff, Option.isNone_iff_eq_none, definition?_performAll_eq_none h,
    decide_eq_true_iff]
  exact and_iff_right hne

/-! ## A run -/

/-- Every name keeps one entry of its own, with at most one definition, at all points of a run in
which `events` happen. A point of the run is told by what has happened `before` it. -/
structure Canonical (events : List Event) : Prop where
  /-- A name that is looked up has an entry then, and the entry carries the name. -/
  entered {before : List Event} {n : TypeName} : before ++ [.lookUp n] <+: events →
    ∃ i : Nat, (initial.performAll (before ++ [.lookUp n])).names[i]? = some n
  /-- A name that has an entry can be looked up again, and nothing changes. -/
  again {before : List Event} {n : TypeName} {i : Nat} : before <+: events →
    (initial.performAll before).names[i]? = some n →
    (initial.performAll before).perform (.lookUp n) = initial.performAll before
  /-- At any two points, two entries are the same exactly if their names are. -/
  same_iff {before before' : List Event} {n m : TypeName} {i j : Nat} : before <+: events →
    before' <+: events → (initial.performAll before).names[i]? = some n →
    (initial.performAll before').names[j]? = some m → (i = j ↔ n = m)
  /-- The first entry is that of `error`, which stands for its interface. -/
  error {before : List Event} : before <+: events →
    (initial.performAll before).names[0]? = some .error ∧
      (initial.performAll before).definition? .error = some errorInterface
  /-- A name is defined once, and `error` is not. -/
  definedOnce : (defined events).Nodup ∧ .error ∉ defined events
  /-- A definition comes into being where it is entered. -/
  define {before : List Event} {n : TypeName} {t : GoType} : before ++ [.define n t] <+: events →
    (initial.performAll before).definition? n = none ∧
      (initial.performAll (before ++ [.define n t])).definition? n = some t
  /-- Entries and definitions stay as they are. -/
  stays {before before' : List Event} {n : TypeName} : before <+: before' → before' <+: events →
    (∀ i : Nat, (initial.performAll before).names[i]? = some n →
      (initial.performAll before').names[i]? = some n) ∧
    ∀ t, (initial.performAll before).definition? n = some t →
      (initial.performAll before').definition? n = some t
  /-- What is undefined are the names other than `error` that were looked up and have had no
  definition, in order of first look-up. -/
  undefined {before : List Event} : before <+: events →
    (initial.performAll before).undefined =
      ((lookedUp before).filter (· ≠ .error)).eraseDups.filter (· ∉ defined before)

theorem getElem?_names_later {before before' : List Event} (h : before <+: before')
    {n : TypeName} {i : Nat} (hi : (initial.performAll before).names[i]? = some n) :
    (initial.performAll before').names[i]? = some n := by
  obtain ⟨rest, rfl⟩ := h
  rw [performAll_append]
  obtain ⟨more, hmore⟩ := names_prefix_performAll (initial.performAll before) rest
  rw [← hmore, List.getElem?_append_left (List.getElem?_eq_some_iff.mp hi).1, hi]

theorem Lawful.canonical {events : List Event} (h : Lawful events) : Canonical events where
  entered {before n} hbefore := by
    refine List.mem_iff_getElem?.mp ?_
    rw [names_performAll (h.earlier hbefore), List.mem_eraseDups, lookedUp_append]
    exact List.mem_cons_of_mem _ (List.mem_append_right _ (List.mem_singleton_self n))
  again _ hi := mention_of_mem (List.mem_of_getElem? hi)
  same_iff {before before' n m i j} hbefore hbefore' hi hj := by
    replace hi := getElem?_names_later hbefore hi
    replace hj := getElem?_names_later hbefore' hj
    have hnodup : (initial.performAll events).names.Nodup :=
      nodup_names_performAll (show initial.names.Nodup from List.nodup_singleton _) events
    rw [← List.getElem?_inj (List.getElem?_eq_some_iff.mp hi).1 hnodup, hi, hj, Option.some.injEq]
  error {before} hbefore := by
    refine ⟨getElem?_names_later List.nil_prefix rfl, ?_⟩
    exact (definition?_performAll (h.earlier hbefore)).mpr (.inl ⟨rfl, rfl⟩)
  definedOnce := nodup_defined h
  define {before n t} hbefore := by
    obtain ⟨hne, -, hnew⟩ := h before n t hbefore
    refine ⟨(definition?_performAll_eq_none (h.earlier ?_)).mpr ⟨hne, hnew⟩, ?_⟩
    · exact (List.prefix_append ..).trans hbefore
    · refine (definition?_performAll (h.earlier hbefore)).mpr (.inr ?_)
      exact List.mem_append_right _ (List.mem_singleton_self _)
  stays {before before' n} hle hbefore' := by
    refine ⟨fun i hi => getElem?_names_later hle hi, fun t ht => ?_⟩
    rw [definition?_performAll (h.earlier hbefore')]
    rw [definition?_performAll (h.earlier (hle.trans hbefore'))] at ht
    exact ht.imp_right (hle.subset ·)
  undefined hbefore := undefined_performAll (h.earlier hbefore)

end TypeTable

/-! ## The events of top-level forms -/

theorem defined_events (c : Contribution) : TypeTable.defined c.events = c.defined?.toList := by
  cases c with
  | mod mode => rfl
  | package p names => exact TypeTable.defined_lookUps names
  | definition n t inType inMethods =>
    show TypeTable.defined ((n :: inType).map .lookUp ++ ([.define n t] ++ inMethods.map .lookUp)) =
      [n]
    rw [TypeTable.defined_append, TypeTable.defined_append, TypeTable.defined_lookUps,
      TypeTable.defined_lookUps]
    rfl

theorem defined_contributions (cs : List Contribution) :
    TypeTable.defined (cs.flatMap Contribution.events) = cs.filterMap Contribution.defined? := by
  induction cs with
  | nil => rfl
  | cons c cs ih =>
    rw [List.flatMap_cons, TypeTable.defined_append, ih, defined_events, List.filterMap_cons]
    cases c.defined? with
    | none => rfl
    | some n => rfl

/-- Contributions that fit together define nothing but what is looked up. -/
theorem FitTogether.lawful {cs : List Contribution} (h : FitTogether cs .initial) :
    TypeTable.Lawful (cs.flatMap Contribution.events) := by
  induction cs using List.reverseRecOn with
  | nil => exact TypeTable.lawful_nil
  | append_singleton cs c ih =>
    have hcs := ih (h.of_sublist (List.sublist_append_left ..))
    rw [List.flatMap_append, List.flatMap_singleton]
    cases c with
    | mod mode => simpa [Contribution.events] using hcs
    | package p names => exact hcs.lookUps names
    | definition n t inType inMethods =>
      have hnodup := h.nodup
      have hnames : (cs ++ [Contribution.definition n t inType inMethods]).filterMap
          Contribution.defined? = cs.filterMap Contribution.defined? ++ [n] := by
        rw [List.filterMap_append]
        rfl
      have hne : n ≠ .error := (h.new (hnames ▸ by simp)).1
      have hnew : n ∉ TypeTable.defined (cs.flatMap Contribution.events) := by
        rw [defined_contributions]
        rw [hnames, List.nodup_append] at hnodup
        exact fun hn => hnodup.2.2 n hn n (List.mem_singleton_self n) rfl
      have hevents : cs.flatMap Contribution.events ++
          (Contribution.definition n t inType inMethods).events =
          (cs.flatMap Contribution.events ++ (n :: inType).map .lookUp ++ [.define n t]) ++
            inMethods.map .lookUp := by
        simp [Contribution.events]
      rw [hevents]
      refine (TypeTable.lawful_concat.mpr ⟨hcs.lookUps _, ?_⟩).lookUps _
      rintro _ _ ⟨⟩
      rw [TypeTable.lookedUp_append, TypeTable.lookedUp_lookUps, TypeTable.defined_append,
        TypeTable.defined_lookUps, List.append_nil]
      exact ⟨hne, List.mem_append_right _ List.mem_cons_self, hnew⟩

/-! ## The types of a program -/

theorem GoType.isError_iff {t : GoType} : t.isError = true ↔ t = .named .error := by
  cases t <;> simp [isError]

/-- A type occurs in a program if a type at a node of a tree is built with it, or a definition. -/
inductive Program.Occurs (program : Program) (t : GoType) : Prop
  | inTree {p : Package} {file : ParsedFile} {m : Node} {u : GoType} (hp : p ∈ program.packages)
      (hfile : file ∈ p.files) (hm : m ∈ (Node.file file.tree).preorder) (hu : u ∈ m.types)
      (ht : t ∈ u.parts)
  | inDefinition {n : TypeName} {u : GoType} (hu : program.types.definition? n = some u)
      (ht : t ∈ u.parts)

theorem mem_events_define {c : Contribution} {n : TypeName} {t : GoType}
    (h : .define n t ∈ c.events) : ∃ inType inMethods, c = .definition n t inType inMethods := by
  cases c with
  | mod mode => cases h
  | package p names =>
    obtain ⟨_, -, hlookUp⟩ := List.mem_map.mp h
    cases hlookUp
  | definition m u inType inMethods =>
    simp only [Contribution.events, List.mem_cons, List.mem_append, List.mem_map, reduceCtorEq,
      and_false, exists_false, false_or, or_false, TypeTable.Event.define.injEq] at h
    obtain ⟨rfl, rfl⟩ := h
    exact ⟨inType, inMethods, rfl⟩

section

variable {root : SourceRoot} {forms : List Datum} {parts : ProgramParts} {table : TypeTable}
  (h : forms.foldlM (readTopLevel root) ⟨none, []⟩ .initial = .ok (parts, table))

include h

theorem lawful_tableEvents : TypeTable.Lawful (tableEvents root forms) :=
  (readTopLevels_eq_ok.mp h).2.1.lawful

theorem performAll_tableEvents : TypeTable.initial.performAll (tableEvents root forms) = table :=
  (readTopLevels_eq_ok.mp h).2.2.2

/-- What is looked up for a form has an entry. -/
theorem mem_names_of_lookUp {c : Contribution} (hc : c ∈ contributions root forms) {n : TypeName}
    (hn : .lookUp n ∈ c.events) : n ∈ table.names := by
  rw [← performAll_tableEvents h, TypeTable.names_performAll (lawful_tableEvents h),
    List.mem_eraseDups]
  refine List.mem_cons_of_mem _ (List.mem_filterMap.mpr ⟨.lookUp n, ?_, rfl⟩)
  exact List.mem_flatMap.mpr ⟨c, hc, hn⟩

/-- A named type that occurs in a program has been looked up. -/
theorem mem_names_of_occurs {config : LoadConfig} {program : Program}
    (hprogram : (config.select ⟨parts.packages, parts.mod, table⟩).2 = .ok program) {n : TypeName}
    (hn : program.Occurs (.named n)) : n ∈ table.names := by
  have hcovered {c : Contribution} (hc : c ∈ contributions root forms) : c.Covered := by
    obtain ⟨d, -, hd⟩ := List.mem_filterMap.mp hc
    exact covered_of_contribution? hd
  have hparts := (readTopLevels_eq_ok.mp h).2.2.1
  cases hn with
  | @inTree p file m u hp hfile hm hu ht =>
    obtain ⟨q, hq, hfile⟩ := LoadConfig.mem_of_select hprogram hp hfile
    rw [← hparts, mem_packages_addAll] at hq
    rcases hq with hq | ⟨names, hq⟩
    · cases hq
    · have hmem : n ∈ names := hcovered hq ⟨file, hfile, m, hm, u, hu, ht⟩
      exact mem_names_of_lookUp h hq (List.mem_map_of_mem hmem)
  | @inDefinition m u hu ht =>
    rw [LoadConfig.types_of_select hprogram, ← performAll_tableEvents h] at hu
    rcases (TypeTable.definition?_performAll (lawful_tableEvents h)).mp hu with
      ⟨-, rfl⟩ | hdefine
    · simp [TypeTable.errorInterface, GoType.parts, GoType.partsOfMethods, GoType.partsOfAll] at ht
    · obtain ⟨c, hc, he⟩ := List.mem_flatMap.mp hdefine
      obtain ⟨inType, inMethods, rfl⟩ := mem_events_define he
      have hmem : n ∈ inType := hcovered hc ht
      refine mem_names_of_lookUp h hc (List.mem_cons_of_mem _ (List.mem_append_left _ ?_))
      exact List.mem_map_of_mem hmem

/-- A run of the readers over top-level forms enters every name once and defines it at most once,
and a type in the program is the predeclared `error` exactly if it is that of the first entry. -/
theorem named_types_canonical :
    -- the events of the forms lead from form to form, and to the table at the end
    TypeTable.initial.performAll (tableEvents root forms) = table ∧
    (∀ first, first <+: forms → tableEvents root first <+: tableEvents root forms ∧
      ∃ parts', first.foldlM (readTopLevel root) ⟨none, []⟩ .initial =
        .ok (parts', TypeTable.initial.performAll (tableEvents root first))) ∧
    TypeTable.Canonical (tableEvents root forms) ∧
    -- a look-up gives the name that is written, where an empty path stands for no package
    (∀ pkg name n now next, readTypeName pkg name now = .ok (n, next) ↔
      ∃ path s, pkg.asString = .ok path ∧ name.asString = .ok s ∧ n = .ofPath path s ∧
        next = now.perform (.lookUp n)) ∧
    ∀ (config : LoadConfig) program t,
      (config.select ⟨parts.packages, parts.mod, table⟩).2 = .ok program → program.Occurs t →
      (∀ n, t = .named n → ∃ i : Nat, table.names[i]? = some n) ∧
      (t.isError = true ↔ ∃ n, t = .named n ∧ table.names[0]? = some n) := by
  have hcanonical := (lawful_tableEvents h).canonical
  refine ⟨performAll_tableEvents h, ?_, hcanonical, ?_, ?_⟩
  · rintro first ⟨rest, rfl⟩
    obtain ⟨hread, hfit, -, -⟩ := readTopLevels_eq_ok.mp h
    have hsplit : contributions root (first ++ rest) =
      contributions root first ++ contributions root rest := List.filterMap_append
    refine ⟨?_, _, readTopLevels_eq_ok.mpr ⟨?_, ?_, rfl, rfl⟩⟩
    · rw [tableEvents, tableEvents, hsplit, List.flatMap_append]
      exact List.prefix_append ..
    · exact fun d hd => hread d (List.mem_append_left _ hd)
    · exact hfit.of_sublist (hsplit ▸ List.sublist_append_left ..)
  · intro pkg name n now next
    rw [readTypeName_eq_ok]
    simp only [typeName?_eq_some]
    constructor
    · rintro ⟨⟨path, s, hpath, hs, rfl⟩, rfl⟩
      exact ⟨path, s, hpath, hs, rfl, rfl⟩
    · rintro ⟨path, s, hpath, hs, rfl, rfl⟩
      exact ⟨⟨path, s, hpath, hs, rfl⟩, rfl⟩
  · intro config program t hprogram ht
    refine ⟨?_, ?_⟩
    · rintro n rfl
      exact List.mem_iff_getElem?.mp (mem_names_of_occurs h hprogram ht)
    · have herror := (hcanonical.error List.prefix_rfl).1
      rw [performAll_tableEvents h] at herror
      rw [herror, GoType.isError_iff]
      simp

end

/-- A type that embeds `error`, and a variable of a type that is defined nowhere. -/
def formsWithUndefined : List Datum :=
  [.list [.symbol "typedef", .string "p", .string "T", .list [.symbol "interface",
      .list [.symbol "embed", .list [.symbol "named", .string "", .string "error"]]]],
    .list [.symbol "package", .string "p", .string "p", .list [.symbol "file", .string "a.go",
      .list [.symbol "gen-decl", .string "var", .int 10, .list [.symbol "value-spec",
        .list [.symbol "names", .list [.symbol "ident", .string "x", .int 14]],
        .list [.symbol "type", .list [.symbol "named", .string "q", .string "U"]]]],
      .list [.symbol "source", .string "package p"]]]]

theorem formsWithUndefined_canonical :
    ∃ parts table,
      formsWithUndefined.foldlM (readTopLevel ⟨⟨[], []⟩, .ofString "."⟩) ⟨none, []⟩ .initial =
        .ok (parts, table) ∧
      table.names = [.error, ⟨some "p", "T"⟩, ⟨some "q", "U"⟩] ∧
      table.undefined = [⟨some "q", "U"⟩] ∧
      TypeTable.Canonical (tableEvents ⟨⟨[], []⟩, .ofString "."⟩ formsWithUndefined) :=
  ⟨_, _, rfl, rfl, rfl, (named_types_canonical rfl).2.2.1⟩

end UncheckedErrors
