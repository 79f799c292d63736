import Mathlib.Data.List.Chain
import UncheckedErrors.Proofs.Descents

/-!
# Chains of selections

The chain of a selection goes through the fields that its indices select, and from there down to the
interface that declares the method: a way through fields (`TypeTable.FieldWay`) and a descent.

`selection_chain_iff` reads this off the list of types, for every selection and whatever circles the
definitions have. `selection_chain_exists_iff` says when there is a chain, if the way through the
fields ends at an interface whose embeddings have no circles.
-/

namespace UncheckedErrors

namespace TypeTable

open Relation

variable {table : TypeTable} {t u : GoType} {rest : List GoType} {selection : Selection}
  {ts : List GoType}

/-! ## Fields -/

/-- The field with this index of the struct under the first type, or under what it points to, has
the second type. -/
def Selects (table : TypeTable) (t : GoType) (i : Int) (u : GoType) : Prop :=
  ∃ fields field, table.unname t.deref = .struct fields ∧ 0 ≤ i ∧
    fields[i.toNat]? = some field ∧ field.type = u

/-- A way through the fields with these indices: the types on it but the last one, and that. -/
inductive FieldWay (table : TypeTable) : GoType → List Int → List GoType → GoType → Prop
  | here {t : GoType} : FieldWay table t [] [] t
  | step {t u v : GoType} {i : Int} {indices : List Int} {path : List GoType} :
    table.Selects t i u → FieldWay table u indices path v →
      FieldWay table t (i :: indices) (t :: path) v

theorem exists_fieldWay_of_fieldPath {indices : List Int}
    (h : table.fieldPath t indices = .ok ts) :
    ∃ path v, table.FieldWay t indices path v ∧ ts = path ++ [v] := by
  induction indices generalizing t ts with
  | nil =>
    cases h
    exact ⟨[], t, .here, rfl⟩
  | cons i indices ih =>
    rw [fieldPath] at h
    split at h
    · rename_i fields hstruct
      split at h
      · rename_i hi
        split at h
        · rename_i field hfield
          cases hrest : table.fieldPath field.type indices with
          | error e => rw [hrest] at h; cases h
          | ok us =>
            rw [hrest] at h
            cases h
            obtain ⟨path, v, hway, rfl⟩ := ih hrest
            exact ⟨t :: path, v, .step ⟨fields, field, hstruct, hi, hfield, rfl⟩ hway, rfl⟩
        · cases h
      · cases h
    · cases h

theorem FieldWay.fieldPath_eq {indices : List Int} {path : List GoType}
    (h : table.FieldWay t indices path u) : table.fieldPath t indices = .ok (path ++ [u]) := by
  induction h with
  | here => rfl
  | step hselects _ ih =>
    obtain ⟨fields, field, hstruct, hi, hfield, rfl⟩ := hselects
    rw [fieldPath, hstruct]
    simp only [hi, ↓reduceIte, hfield, ih]
    rfl

/-- A way through fields, read off the list of its types: the next one is each time the type of the
field. -/
theorem fieldWay_iff {indices : List Int} {path : List GoType} (rest : List GoType) :
    table.FieldWay t indices path u ↔
      path.length = indices.length ∧ (path ++ u :: rest).head? = some t ∧
        ∀ k i, indices[k]? = some i → ∃ v w, (path ++ u :: rest)[k]? = some v ∧
          (path ++ u :: rest)[k + 1]? = some w ∧ table.Selects v i w := by
  constructor
  · intro h
    induction h with
    | here => exact ⟨rfl, rfl, by simp⟩
    | @step t v u i indices path hselects _ ih =>
      obtain ⟨hlength, hhead, hfields⟩ := ih
      refine ⟨congrArg (· + 1) hlength, rfl, fun k j hj => ?_⟩
      cases k with
      | zero =>
        cases hj
        refine ⟨t, v, rfl, ?_, hselects⟩
        rw [List.cons_append, List.getElem?_cons_succ, ← List.head?_eq_getElem?, hhead]
      | succ k => exact hfields k j hj
  · rintro ⟨hlength, hhead, hfields⟩
    induction indices generalizing t path with
    | nil =>
      obtain rfl := List.eq_nil_of_length_eq_zero hlength
      cases hhead
      exact .here
    | cons i indices ih =>
      cases path with
      | nil => cases hlength
      | cons p path =>
        cases hhead
        obtain ⟨v, w, hv, hw, hselects⟩ := hfields 0 i rfl
        cases hv
        rw [List.cons_append, List.getElem?_cons_succ, ← List.head?_eq_getElem?] at hw
        exact .step hselects (ih (Nat.succ.inj hlength) hw fun k j hj => hfields (k + 1) j hj)

/-- A descent, read off the list of its types. -/
theorem descent_iff {id : String} :
    table.Descent id t rest ↔ (t :: rest).IsChain (table.Supplier id) ∧
      ∃ others last, t :: rest = others ++ [last] ∧ table.explicitlyDeclares last id = true ∧
        ∀ u ∈ others, table.explicitlyDeclares u id = false := by
  constructor
  · intro h
    induction h with
    | @here t hself => exact ⟨.singleton t, [], t, rfl, hself, by simp⟩
    | @step t u rest hself hsupplier _ ih =>
      obtain ⟨hchain, others, last, hsplit, hlast, hothers⟩ := ih
      refine ⟨.cons_cons hsupplier hchain, t :: others, last, ?_, hlast, ?_⟩
      · rw [hsplit, List.cons_append]
      · exact List.forall_mem_cons.mpr ⟨hself, hothers⟩
  · rintro ⟨hchain, others, last, hsplit, hlast, hothers⟩
    induction rest generalizing t others with
    | nil =>
      cases others with
      | nil =>
        cases hsplit
        exact .here hlast
      | cons => simp at hsplit
    | cons u rest ih =>
      cases others with
      | nil => simp at hsplit
      | cons o others =>
        rw [List.cons_append] at hsplit
        obtain ⟨rfl, hrest⟩ := List.cons.inj hsplit
        obtain ⟨hself, hothers⟩ := List.forall_mem_cons.mp hothers
        obtain ⟨hsupplier, hchain⟩ := List.isChain_cons_cons.mp hchain
        exact .step hself hsupplier (ih hchain others hrest hothers)

/-! ## Chains -/

/-- Where a way through the fields ends at an interface, the search goes on from there. -/
theorem chain?_of_fieldWay {path : List GoType} {start : GoType}
    (hkind : selection.obj.kind = .func) (hrecv : selection.recv.kind ≠ .invalid)
    (hway : table.FieldWay selection.recv selection.index.dropLast path start) :
    table.chain? selection = if table.isInterface start then
      (table.descend selection.obj.id [] start).map (path ++ start :: ·) else none := by
  unfold chain? chain
  rw [if_neg (by simp [hkind, hrecv]), hway.fieldPath_eq]
  change Except.toOption (if (!table.isInterface ((path ++ [start]).getLast?.getD _)) = true
    then _ else _) = _
  rw [List.getLast?_concat, Option.getD_some]
  cases table.isInterface start with
  | false => rfl
  | true =>
    simp only [Bool.not_true, Bool.false_eq_true, ↓reduceIte]
    cases table.descend selection.obj.id [] start with
    | none => rfl
    | some rest =>
      show some (path ++ [start] ++ rest) = some (path ++ start :: rest)
      rw [List.append_assoc, List.singleton_append]

/-- A selection with a chain is one of a function, and its indices lead through fields. -/
theorem exists_fieldWay_of_chain? (h : table.chain? selection = some ts) :
    selection.obj.kind = .func ∧ selection.recv.kind ≠ .invalid ∧ ∃ path start,
      table.FieldWay selection.recv selection.index.dropLast path start := by
  unfold chain? chain at h
  split at h
  · cases h
  · rename_i hguard
    simp only [Bool.or_eq_true, decide_eq_true_eq, not_or, ne_eq, not_not] at hguard
    refine ⟨hguard.1, hguard.2, ?_⟩
    cases hpath : table.fieldPath selection.recv selection.index.dropLast with
    | error e => rw [hpath] at h; cases h
    | ok us =>
      obtain ⟨path, start, hway, -⟩ := exists_fieldWay_of_fieldPath hpath
      exact ⟨path, start, hway⟩

/-- A chain consists of a way through fields and a descent from where it ends. -/
theorem chain?_eq_some_iff :
    table.chain? selection = some ts ↔
      selection.obj.kind = .func ∧ selection.recv.kind ≠ .invalid ∧ ∃ path start rest,
        table.FieldWay selection.recv selection.index.dropLast path start ∧
          table.Descent selection.obj.id start rest ∧ ts = path ++ start :: rest := by
  constructor
  · intro h
    obtain ⟨hkind, hrecv, path, start, hway⟩ := exists_fieldWay_of_chain? h
    rw [chain?_of_fieldWay hkind hrecv hway] at h
    split at h
    · obtain ⟨rest, hrest, rfl⟩ := Option.map_eq_some_iff.mp h
      exact ⟨hkind, hrecv, path, start, rest, hway, descend_eq_some_iff.mp hrest, rfl⟩
    · cases h
  · rintro ⟨hkind, hrecv, path, start, rest, hway, hdescent, rfl⟩
    rw [chain?_of_fieldWay hkind hrecv hway, if_pos hdescent.isInterface,
      descend_eq_some_iff.mpr hdescent, Option.map_some]

/-- What the chain of a selection looks like. -/
structure IsChainOf (table : TypeTable) (selection : Selection) (ts : List GoType) : Prop where
  /-- It starts at the receiver. -/
  receiver : ts.head? = some selection.recv
  /-- For each index but the last one the next type is that of the field. -/
  fields : ∀ k i, selection.index.dropLast[k]? = some i →
    ∃ t u, ts[k]? = some t ∧ ts[k + 1]? = some u ∧ table.Selects t i u
  /-- From the last field on, each type is the supplier of the one before. -/
  suppliers : (ts.drop (selection.index.length - 1)).IsChain (table.Supplier selection.obj.id)
  /-- The last type declares the method, and none before it from the last field on. -/
  declared : ∃ others last, ts.drop (selection.index.length - 1) = others ++ [last] ∧
    table.explicitlyDeclares last selection.obj.id = true ∧
      ∀ t ∈ others, table.explicitlyDeclares t selection.obj.id = false
  /-- No two types from the last field on stand for the same interface. -/
  distinct : (ts.drop (selection.index.length - 1)).Pairwise fun t u =>
    table.view t ≠ table.view u

theorem isChainOf_iff :
    table.IsChainOf selection ts ↔ ∃ path start rest,
      table.FieldWay selection.recv selection.index.dropLast path start ∧
        table.Descent selection.obj.id start rest ∧ ts = path ++ start :: rest := by
  constructor
  · rintro ⟨hreceiver, hfields, hsuppliers, hdeclared, -⟩
    obtain ⟨others, last, hsplit, hlast, hothers⟩ := hdeclared
    cases hdrop : ts.drop (selection.index.length - 1) with
    | nil => rw [hdrop] at hsplit; simp at hsplit
    | cons start rest =>
      have hts : ts = ts.take (selection.index.length - 1) ++ start :: rest := by
        rw [← hdrop, List.take_append_drop]
      have hlength : (ts.take (selection.index.length - 1)).length =
          selection.index.dropLast.length := by
        have := congrArg List.length hdrop
        rw [List.length_drop, List.length_cons] at this
        rw [List.length_take, List.length_dropLast]
        omega
      rw [hdrop] at hsuppliers hsplit
      refine ⟨_, start, rest, (fieldWay_iff rest).mpr ⟨hlength, ?_, ?_⟩,
        descent_iff.mpr ⟨hsuppliers, others, last, hsplit, hlast, hothers⟩, hts⟩
      · rw [← hts, hreceiver]
      · rw [← hts]
        exact hfields
  · rintro ⟨path, start, rest, hway, hdescent, rfl⟩
    obtain ⟨hlength, hhead, hfields⟩ := (fieldWay_iff rest).mp hway
    obtain ⟨hsuppliers, hdeclared⟩ := descent_iff.mp hdescent
    have hdrop : (path ++ start :: rest).drop (selection.index.length - 1) = start :: rest := by
      rw [← List.length_dropLast, ← hlength, List.drop_left]
    refine ⟨hhead, hfields, ?_, ?_, ?_⟩
    · rw [hdrop]; exact hsuppliers
    · rw [hdrop]; exact hdeclared
    · rw [hdrop]; exact hdescent.pairwise

theorem head?_of_chain? (h : table.chain? selection = some ts) :
    ts.head? = some selection.recv :=
  (isChainOf_iff.mpr (chain?_eq_some_iff.mp h).2.2).receiver

theorem kind_ne_invalid_of_isInterface (h : table.isInterface t = true) : t.kind ≠ .invalid := by
  intro hkind
  cases t with
  | invalid => cases h
  | _ => cases hkind

/-- A selection that goes through no field has a chain exactly if its receiver is an interface with
the method. -/
theorem chain?_isSome_iff (hacyclic : table.Acyclic) (hobj : selection.obj.kind = .func)
    (hindex : selection.index.length ≤ 1) :
    (table.chain? selection).isSome = true ↔
      table.declares selection.recv selection.obj.id = true := by
  have hpath : selection.index.dropLast = [] := List.eq_nil_of_length_eq_zero (by simp; omega)
  constructor
  · intro h
    obtain ⟨ts, hts⟩ := Option.isSome_iff_exists.mp h
    obtain ⟨-, -, path, start, rest, hway, hdescent, -⟩ := chain?_eq_some_iff.mp hts
    rw [hpath] at hway
    cases hway
    exact hdescent.declares
  · intro h
    have hinterface := isInterface_of_declares h
    have hway : table.FieldWay selection.recv selection.index.dropLast [] selection.recv := by
      rw [hpath]
      exact .here
    rw [chain?_of_fieldWay hobj (kind_ne_invalid_of_isInterface hinterface) hway,
      if_pos hinterface, Option.isSome_map, isSome_descend_iff (hacyclic.acyclicFrom _)]
    exact h

/-- The search for the interface that declares a method never goes on for ever, and a selection has
a chain exactly if it is one of a function on a valid type and the chain is as described. -/
theorem selection_chain_iff (table : TypeTable) (selection : Selection) :
    (WellFounded fun next state => table.Turn selection.obj.id state next) ∧
      ∀ ts, table.chain? selection = some ts ↔
        selection.obj.kind = .func ∧ selection.recv.kind ≠ .invalid ∧
          table.IsChainOf selection ts := by
  refine ⟨wellFounded_turn table selection.obj.id, fun ts => ?_⟩
  rw [chain?_eq_some_iff, isChainOf_iff]

/-- Of a method that is selected through fields up to an interface whose embeddings have no circles,
there is a chain exactly if the full method set of the interface has it, that is, if an interface
within reach declares it. Wherever the search stands, it succeeds if it does from any interface that
is embedded there. -/
theorem selection_chain_exists_iff {path : List GoType} {start : GoType}
    (hkind : selection.obj.kind = .func) (hrecv : selection.recv.kind ≠ .invalid)
    (hway : table.FieldWay selection.recv selection.index.dropLast path start)
    (hinterface : table.isInterface start = true) (hacyclic : table.AcyclicFrom start) :
    ((table.chain? selection).isSome = true ↔ table.declares start selection.obj.id = true) ∧
      (table.declares start selection.obj.id = true ↔ ∃ u, ReflTransGen table.Embeds start u ∧
        table.explicitlyDeclares u selection.obj.id = true) ∧
      ∀ t u, ReflTransGen table.Embeds start t → table.Embeds t u →
        (table.descend selection.obj.id [] u).isSome = true →
          (table.descend selection.obj.id [] t).isSome = true := by
  refine ⟨?_, declares_iff_reaches, fun t u hreach hstep hu => ?_⟩
  · rw [← isSome_descend_iff hacyclic, chain?_of_fieldWay hkind hrecv hway, if_pos hinterface,
      Option.isSome_map]
  · have ht : table.AcyclicFrom t := fun v hv => hacyclic v (hreach.trans hv)
    have hdeclares : table.declares u selection.obj.id = true :=
      declares_of_isSome_descend hu
    exact (isSome_descend_iff ht).mpr (declares_iff_embeds.mpr (.inr ⟨u, hstep, hdeclares⟩))

/-! ## Two ways to one interface -/

/-- A name in the package `p`. -/
def inPackage (name : String) : TypeName := ⟨some "p", name⟩

/-- `p.A` embeds a type without methods, `p.B` and `p.C`. Both of these embed `p.D`, which declares
the method `M`. -/
def diamond : TypeTable :=
  initial
    |>.define (inPackage "A")
      (.interface [] [.basic "int", .named (inPackage "B"), .named (inPackage "C")])
    |>.define (inPackage "B") (.interface [] [.named (inPackage "D")])
    |>.define (inPackage "C") (.interface [] [.named (inPackage "D")])
    |>.define (inPackage "D") (.interface [.mk "M" (.signature [] [] false)] [])

/-- The method `M` of a pointer to a struct that embeds `p.A`. -/
def diamondSelection : Selection where
  kind := .methodVal
  recv := .pointer (.struct [.mk "A" (.named (inPackage "A")) true])
  obj := .func (some "p") "M" none none
  index := [0, 0]

theorem acyclic_diamond : diamond.Acyclic := by
  refine not_transGen_of_rank
    (fun n => if n = inPackage "A" then 2 else if n = inPackage "D" then 0 else 1) ?_
  rintro n m ⟨t, hdef, hlead⟩
  simp only [diamond, definition?_define, definition?_initial] at hdef
  split at hdef
  · cases hdef
    simp at hlead
  split at hdef
  · subst n
    cases hdef
    obtain rfl : inPackage "D" = m := by simpa using hlead
    decide
  split at hdef
  · subst n
    cases hdef
    obtain rfl : inPackage "D" = m := by simpa using hlead
    decide
  split at hdef
  · subst n
    cases hdef
    obtain rfl | rfl : inPackage "B" = m ∨ inPackage "C" = m := by simpa using hlead
    · decide
    · decide
  split at hdef
  · cases hdef
    simp [errorInterface] at hlead
  · cases hdef

/-- The search finds the method on one of the two ways. -/
theorem diamond_chain_exists :
    diamond.FieldWay diamondSelection.recv diamondSelection.index.dropLast [diamondSelection.recv]
        (.named (inPackage "A")) ∧
      diamond.AcyclicFrom (.named (inPackage "A")) ∧
      (diamond.chain? diamondSelection).isSome = true := by
  have hway : diamond.FieldWay diamondSelection.recv diamondSelection.index.dropLast
      [diamondSelection.recv] (.named (inPackage "A")) :=
    .step ⟨_, _, rfl, by decide, rfl, rfl⟩ .here
  have hexists := selection_chain_exists_iff rfl (by decide) hway (by decide)
    (acyclic_diamond.acyclicFrom _)
  have hreach : ReflTransGen diamond.Embeds (.named (inPackage "A")) (.named (inPackage "D")) :=
    .head ⟨_, _, _, rfl, .tail _ (.head _)⟩ (.single ⟨_, _, _, rfl, .head _⟩)
  exact ⟨hway, acyclic_diamond.acyclicFrom _,
    hexists.1.mpr (hexists.2.1.mpr ⟨_, hreach, by decide⟩)⟩

end TypeTable

end UncheckedErrors
