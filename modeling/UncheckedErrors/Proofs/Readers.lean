import Mathlib.Data.List.Forall2
import Mathlib.Data.List.Nodup
import UncheckedErrors.Dump.Program

/-!
# Laws of the readers

What a reader that succeeds has done, step by step: `bind_eq_ok` and its companions take a reader
apart, and the lemmas on forms say which data the reader was given. `splitOptions_eq_ok` is the
specification of the separation of options from the other elements of a form.

An expression is read from the inside of its spine outwards, which amounts to reading the leading
operand and then the form around it (`readExprWith_first`, `readExprWith_third`). All forms on the
spine but the last are left-anchored (`leading_of_spine`).
-/

namespace UncheckedErrors

/-! ## Steps of a reader -/

section

variable {σ ε α β : Type} {s s' : σ}

theorem bind_eq_ok {r : StateT σ (Except ε) α} {f : α → StateT σ (Except ε) β} {b : β} :
    (r >>= f) s = .ok (b, s') ↔ ∃ a middle, r s = .ok (a, middle) ∧ f a middle = .ok (b, s') := by
  show (r s >>= fun (a, middle) => f a middle) = _ ↔ _
  cases r s with
  | error e => simp [bind, Except.bind]
  | ok p =>
    obtain ⟨a, middle⟩ := p
    constructor
    · intro h
      exact ⟨a, middle, rfl, h⟩
    · rintro ⟨_, _, h, hf⟩
      cases h
      exact hf

theorem pure_eq_ok {a b : α} :
    (pure a : StateT σ (Except ε) α) s = .ok (b, s') ↔ a = b ∧ s = s' := by
  show Except.ok (a, s) = _ ↔ _
  rw [Except.ok.injEq, Prod.mk.injEq]

theorem throw_eq_ok {e : ε} {a : α} :
    (throw e : StateT σ (Except ε) α) s = .ok (a, s') ↔ False := by
  show Except.error e = _ ↔ _
  simp

theorem liftM_eq_ok {x : Except ε α} {a : α} :
    (liftM x : StateT σ (Except ε) α) s = .ok (a, s') ↔ x = .ok a ∧ s = s' := by
  show (x >>= fun a => pure (a, s)) = _ ↔ _
  cases x with
  | error e => simp [bind, Except.bind]
  | ok b => simp [bind, Except.bind, pure, Except.pure]

theorem get_eq_ok {a : σ} :
    (get : StateT σ (Except ε) σ) s = .ok (a, s') ↔ s = a ∧ s = s' := by
  show Except.ok (s, s) = _ ↔ _
  rw [Except.ok.injEq, Prod.mk.injEq]

theorem modify_eq_ok {f : σ → σ} {u : Unit} :
    (modify f : StateT σ (Except ε) Unit) s = .ok (u, s') ↔ f s = s' := by
  show Except.ok ((), f s) = _ ↔ _
  rw [Except.ok.injEq, Prod.mk.injEq]
  exact and_iff_right rfl

/-- A check that fails with `e` if `c` holds, and what comes after it. -/
theorem check_eq_ok {c : Prop} [Decidable c] {e : ε} {r : StateT σ (Except ε) α} {a : α} :
    (if c then (throw e : StateT σ (Except ε) Unit) >>= fun _ => r else r) s = .ok (a, s') ↔
      ¬c ∧ r s = .ok (a, s') := by
  by_cases hc : c
  · simp only [hc, if_true, not_true, false_and, iff_false]
    exact fun h => let ⟨_, _, hthrow, _⟩ := bind_eq_ok.mp h; throw_eq_ok.mp hthrow
  · simp only [hc, if_false, not_false_eq_true, true_and]

/-- Whatever a reader gives satisfies `P`. -/
def Yields (r : StateT σ (Except ε) α) (P : α → Prop) : Prop :=
  ∀ s a s', r s = .ok (a, s') → P a

theorem Yields.imp {r : StateT σ (Except ε) α} {P Q : α → Prop} (h : Yields r P)
    (hpq : ∀ a, P a → Q a) : Yields r Q :=
  fun s a s' ha => hpq a (h s a s' ha)

theorem Yields.bind {r : StateT σ (Except ε) α} {f : α → StateT σ (Except ε) β} {P : α → Prop}
    {Q : β → Prop} (h : Yields r P) (hf : ∀ a, P a → Yields (f a) Q) : Yields (r >>= f) Q := by
  intro s b s' hb
  obtain ⟨a, middle, ha, hb⟩ := bind_eq_ok.mp hb
  exact hf a (h _ _ _ ha) _ _ _ hb

/-- What a list of data gives, it gives one by one. -/
theorem Yields.mapM {f : α → StateT σ (Except ε) β} {P : α → β → Prop}
    (h : ∀ a, Yields (f a) (P a)) (as : List α) : Yields (as.mapM f) (List.Forall₂ P as) := by
  induction as with
  | nil =>
    intro s bs s' hbs
    rw [List.mapM_nil, pure_eq_ok] at hbs
    rw [← hbs.1]
    exact .nil
  | cons a as ih =>
    intro s bs s' hbs
    simp only [List.mapM_cons, bind_eq_ok, pure_eq_ok] at hbs
    obtain ⟨b, _, hb, rest, _, hrest, rfl, -⟩ := hbs
    exact .cons (h a _ _ _ hb) (ih _ _ _ hrest)

theorem Yields.optionMapM {f : α → StateT σ (Except ε) β} {P : α → β → Prop}
    (h : ∀ a, Yields (f a) (P a)) (a : Option α) :
    Yields (a.mapM f) fun b => List.Forall₂ P a.toList b.toList := by
  cases a with
  | none =>
    intro s b s' hb
    cases pure_eq_ok.mp hb |>.1
    exact .nil
  | some a =>
    intro s b s' hb
    rw [Option.mapM_some, map_eq_pure_bind, bind_eq_ok] at hb
    obtain ⟨b, _, hb, hsome⟩ := hb
    cases pure_eq_ok.mp hsome |>.1
    exact .cons (h a _ _ _ hb) .nil

end

/-- Of lists that are related one by one, each element on the left has one on the right. -/
theorem exists_right_of_forall₂ {α β : Type} {R : α → β → Prop} {as : List α} {bs : List β}
    (h : List.Forall₂ R as bs) {a : α} (ha : a ∈ as) : ∃ b ∈ bs, R a b := by
  induction h with
  | nil => cases ha
  | @cons a' b' _ _ hab _ ih =>
    rcases List.mem_cons.mp ha with rfl | ha
    · exact ⟨b', List.mem_cons_self, hab⟩
    · obtain ⟨b, hb, hR⟩ := ih ha
      exact ⟨b, List.mem_cons_of_mem _ hb, hR⟩

/-- Of lists that are related one by one, each element on the right has one on the left. -/
theorem exists_left_of_forall₂ {α β : Type} {R : α → β → Prop} {as : List α} {bs : List β}
    (h : List.Forall₂ R as bs) {b : β} (hb : b ∈ bs) : ∃ a ∈ as, R a b :=
  exists_right_of_forall₂ h.flip hb

theorem Yields.within {α : Type} {r : Reader α} {P : α → Prop} (h : Yields r P) (steps : Nat) :
    Yields (r.within steps) P := by
  intro table a table' ha
  unfold Reader.within at ha
  split at ha
  · cases ha
  · cases hr : r table with
    | error e =>
      rw [hr] at ha
      cases ha
    | ok p =>
      rw [hr] at ha
      cases ha
      exact h _ _ _ hr

theorem Reader.lift_eq_ok {α : Type} {r : Reader α} {table table' : TypeTable} {a : α} :
    Reader.lift r table = .ok (a, table') ↔ r table = .ok (a, table') := by
  unfold Reader.lift
  cases r table with
  | error e => simp [Except.mapError]
  | ok p => simp [Except.mapError]

theorem Yields.lift {α : Type} {r : Reader α} {P : α → Prop} (h : Yields r P) :
    Yields (Reader.lift r) P :=
  fun table a table' ha => h table a table' (Reader.lift_eq_ok.mp ha)

/-! ## Forms -/

theorem exceptPure_eq_ok {ε α : Type} {a b : α} : (pure a : Except ε α) = .ok b ↔ a = b := by
  show Except.ok a = _ ↔ _
  rw [Except.ok.injEq]

theorem exceptThrow_eq_ok {ε α : Type} {e : ε} {a : α} :
    (throw e : Except ε α) = .ok a ↔ False := by
  show Except.error e = _ ↔ _
  simp

theorem exceptBind_eq_ok {ε α β : Type} {x : Except ε α} {f : α → Except ε β} {b : β} :
    (x >>= f) = .ok b ↔ ∃ a, x = .ok a ∧ f a = .ok b := by
  cases x with
  | error e => simp [bind, Except.bind]
  | ok a => simp [bind, Except.bind]

namespace Form

variable {form : Form} {a b c d : Datum} {rest : List Datum}

theorem operand_eq_ok : form.operand = .ok (a, rest) ↔ form.args = a :: rest := by
  unfold operand
  split
  · rename_i h
    simp [h, exceptPure_eq_ok]
  · rename_i h
    simpa [exceptThrow_eq_ok] using h _ _

theorem operands2_eq_ok : form.operands2 = .ok (a, b, rest) ↔ form.args = a :: b :: rest := by
  unfold operands2
  split
  · rename_i h
    simp [h, exceptPure_eq_ok]
  · rename_i h
    simpa [exceptThrow_eq_ok] using h _ _ _

theorem operands3_eq_ok :
    form.operands3 = .ok (a, b, c, rest) ↔ form.args = a :: b :: c :: rest := by
  unfold operands3
  split
  · rename_i h
    simp [h, exceptPure_eq_ok]
  · rename_i h
    simpa [exceptThrow_eq_ok] using h _ _ _ _

theorem operands4_eq_ok :
    form.operands4 = .ok (a, b, c, d, rest) ↔ form.args = a :: b :: c :: d :: rest := by
  unfold operands4
  split
  · rename_i h
    simp [h, exceptPure_eq_ok]
  · rename_i h
    simpa [exceptThrow_eq_ok] using h _ _ _ _ _

theorem atLeast_eq_ok {least : Nat} {u : Unit} :
    form.atLeast least = .ok u ↔ least ≤ form.args.length + 1 := by
  unfold atLeast
  split
  · rename_i h
    simp only [exceptThrow_eq_ok, false_iff]
    omega
  · rename_i h
    simp only [exceptPure_eq_ok, true_iff]
    omega

theorem ofItems_eq_ok {least : Nat} {items : List Datum} :
    ofItems least items = .ok form ↔ items = .symbol form.tag :: form.args := by
  obtain ⟨tag, args⟩ := form
  unfold ofItems
  split
  · simp [exceptThrow_eq_ok]
  · simp [exceptPure_eq_ok]
  · rename_i h
    simp only [exceptThrow_eq_ok, false_iff, List.cons.injEq, not_and]
    intro hd
    exact absurd hd (h _)

theorem ofDatum_eq_ok {least : Nat} :
    ofDatum least d = .ok form ↔
      d = .list (.symbol form.tag :: form.args) ∧ least ≤ form.args.length + 1 := by
  unfold ofDatum
  split
  · rename_i items
    simp only [exceptBind_eq_ok, ofItems_eq_ok, exceptPure_eq_ok, atLeast_eq_ok, Datum.list.injEq]
    constructor
    · rintro ⟨f, hitems, _, hleast, rfl⟩
      exact ⟨hitems, hleast⟩
    · rintro ⟨hitems, hleast⟩
      exact ⟨form, hitems, (), hleast, rfl⟩
  · rename_i h
    simp only [exceptThrow_eq_ok, false_iff, not_and]
    intro hd
    exact absurd hd (h _)

theorem tagged_eq_ok {tag : String} {least : Nat} :
    tagged tag least d = .ok form ↔
      d = .list (.symbol tag :: form.args) ∧ form.tag = tag ∧ least ≤ form.args.length + 1 := by
  obtain ⟨ftag, fargs⟩ := form
  unfold tagged
  split
  · simp [exceptThrow_eq_ok]
  · rename_i actual args
    split
    · rename_i hne
      simp only [exceptBind_eq_ok, exceptThrow_eq_ok, false_and, exists_false, Datum.list.injEq,
        List.cons.injEq, Datum.symbol.injEq, false_iff, not_and]
      rintro ⟨rfl, _⟩
      exact absurd rfl hne
    · rename_i heq
      simp only [exceptBind_eq_ok, exceptPure_eq_ok, atLeast_eq_ok, Datum.list.injEq, mk.injEq,
        List.cons.injEq, Datum.symbol.injEq]
      grind
  · rename_i h
    simp only [exceptThrow_eq_ok, Datum.list.injEq, List.cons.injEq, false_iff, not_and]
    rintro ⟨hd, _⟩
    exact absurd hd (h _)
  · rename_i h
    simp only [exceptThrow_eq_ok, false_iff, not_and]
    intro hd
    exact absurd hd (h _ _)

theorem ofDatum_list {least : Nat} {tag : String} {args : List Datum}
    (h : least ≤ args.length + 1) :
    ofDatum least (.list (.symbol tag :: args)) = .ok ⟨tag, args⟩ :=
  ofDatum_eq_ok.mpr ⟨rfl, h⟩

theorem tagged_list {least : Nat} {tag : String} {args : List Datum}
    (h : least ≤ args.length + 1) :
    tagged tag least (.list (.symbol tag :: args)) = .ok ⟨tag, args⟩ :=
  tagged_eq_ok.mpr ⟨rfl, rfl, h⟩

end Form

/-! ## Options -/

theorem optionKey?_eq_some {keys : List String} {d : Datum} {key : String} {args : List Datum} :
    optionKey? keys d = some (key, args) ↔ d = .list (.symbol key :: args) ∧ key ∈ keys := by
  unfold optionKey?
  split
  · rename_i tag rest
    by_cases htag : tag ∈ keys
    · simp [htag]
      grind
    · simp [htag]
      grind
  · rename_i h
    simp only [reduceCtorEq, false_iff, not_and]
    intro hd
    exact absurd hd (h _ _)

theorem Options.get?_isSome {options : Options} {key : String} :
    (options.get? key).isSome ↔ key ∈ options.map (·.1) := by
  simp [get?, List.find?_isSome]

theorem Options.getAll_of_not_mem {options : Options} {key : String}
    (h : key ∉ options.map (·.1)) : options.getAll key = [] := by
  rw [← get?_isSome, Option.not_isSome_iff_eq_none] at h
  rw [getAll, h, Option.getD_none]

theorem Options.getAll_cons (options : Options) (key key' : String) (args : List Datum) :
    getAll ((key, args) :: options) key' = if key = key' then args else options.getAll key' := by
  by_cases h : key = key'
  · simp [getAll, get?, h]
  · simp [getAll, get?, h]

theorem Options.getAll_of_single? {options : Options} {key : String} {d : Option Datum}
    (h : options.single? key = .ok d) : options.getAll key = d.toList := by
  unfold single? at h
  split at h
  · rename_i hget
    rw [exceptPure_eq_ok] at h
    rw [getAll, hget, ← h]
    rfl
  · rename_i d hget
    rw [exceptPure_eq_ok] at h
    rw [getAll, hget, ← h]
    rfl
  · cases exceptThrow_eq_ok.mp h

theorem Options.getAll_of_required {options : Options} {tag key : String} {d : Datum}
    (h : options.required tag key = .ok d) : options.getAll key = [d] := by
  unfold required at h
  obtain ⟨found, hfound, h⟩ := exceptBind_eq_ok.mp h
  rw [getAll_of_single? hfound]
  cases found with
  | none => cases exceptThrow_eq_ok.mp h
  | some d => rw [← exceptPure_eq_ok.mp h, Option.toList_some]

theorem splitOptionsFrom_eq_ok {keys : List String} {seen options : Options}
    {items others : List Datum} (hseen : (seen.map (·.1)).Nodup) :
    splitOptionsFrom keys seen items = .ok (others, options) ↔
      others = items.filter (fun d => (optionKey? keys d).isNone) ∧
        options = seen ++ items.filterMap (optionKey? keys) ∧ (options.map (·.1)).Nodup := by
  induction items generalizing seen others with
  | nil =>
    simp only [splitOptionsFrom, exceptPure_eq_ok, Prod.mk.injEq, List.filter_nil,
      List.filterMap_nil, List.append_nil]
    constructor
    · rintro ⟨rfl, rfl⟩
      exact ⟨rfl, rfl, hseen⟩
    · rintro ⟨rfl, rfl, -⟩
      exact ⟨rfl, rfl⟩
  | cons d items ih =>
    unfold splitOptionsFrom
    split
    · rename_i key args hkey
      rw [List.filterMap_cons_some hkey]
      split
      · rename_i hdup
        rw [Options.get?_isSome] at hdup
        simp only [exceptThrow_eq_ok, false_iff, not_and]
        rintro - rfl
        -- The key stands in `seen` and comes again.
        simp only [List.map_append, List.map_cons, List.nodup_append, not_and]
        intro _ _ hne
        exact hne key hdup key List.mem_cons_self rfl
      · rename_i hnew
        rw [Options.get?_isSome] at hnew
        rw [ih (by simp [List.nodup_append, hseen]; grind)]
        simp [hkey, List.append_assoc]
    · rename_i hkey
      simp only [exceptBind_eq_ok, Prod.exists, exceptPure_eq_ok, Prod.mk.injEq]
      rw [List.filterMap_cons_none hkey, List.filter_cons_of_pos (by simp [hkey])]
      grind

/-- The options are those of the elements that have one of the keys, each key at most once, and the
others are the other elements; both are in order. -/
theorem splitOptions_eq_ok {keys : List String} {options : Options} {items others : List Datum} :
    splitOptions keys items = .ok (others, options) ↔
      others = items.filter (fun d => (optionKey? keys d).isNone) ∧
        options = items.filterMap (optionKey? keys) ∧ (options.map (·.1)).Nodup :=
  splitOptionsFrom_eq_ok List.nodup_nil

theorem optionsOf_eq_ok {keys : List String} {options : Options} {items : List Datum} :
    optionsOf keys items = .ok options ↔
      ∃ others, splitOptions keys items = .ok (others, options) := by
  unfold optionsOf
  cases splitOptions keys items with
  | error e => simp [Functor.map, Except.map]
  | ok p => simp [Functor.map, Except.map, Prod.ext_iff]

/-! ## Spines -/

theorem cons_spine_eq_ok {form : Form} {d : Datum} {outer : List Form} {leaf : Form}
    (h : (spine d >>= fun (outer, leaf) => return (form :: outer, leaf)) =
      .ok (outer, leaf)) :
    ∃ rest, outer = form :: rest ∧ spine d = .ok (rest, leaf) := by
  cases hd : spine d with
  | error e =>
    rw [hd] at h
    cases h
  | ok p =>
    rw [hd] at h
    cases h
    exact ⟨p.1, rfl, rfl⟩

/-- The forms along the leading operands are left-anchored. -/
theorem leading_of_spine {d : Datum} {outer : List Form} {leaf : Form}
    (h : spine d = .ok (outer, leaf)) :
    ∀ form ∈ outer, (leading? form.tag).isSome := by
  fun_induction spine d generalizing outer with
  | case1 =>
    cases h
    simp
  | case2 tag x rest htag ih | case3 tag op pos x rest htag ih =>
    obtain ⟨outer, rfl, hx⟩ := cons_spine_eq_ok h
    exact List.forall_mem_cons.mpr ⟨by rw [htag]; rfl, ih hx⟩
  | case4 | case5 | case6 | case7 | case8 => cases h

/-- An expression whose spine is known. -/
theorem readExprWith_of_spine (inner : InnerReaders) {d : Datum} {outer : List Form} {leaf : Form}
    (h : spine d = .ok (outer, leaf)) :
    readExprWith inner d =
      readLeaf inner leaf >>= fun x =>
        outer.reverse.foldlM (fun x form => readChain inner form x) x := by
  unfold readExprWith
  rw [h]
  rfl

/-- One more form around the leading operand is read last. -/
theorem readExprWith_of_leading (inner : InnerReaders) {d x : Datum} {form : Form}
    (h : spine d = spine x >>= fun (outer, leaf) => return (form :: outer, leaf)) :
    readExprWith inner d = readExprWith inner x >>= readChain inner form := by
  cases hx : spine x with
  | error e =>
    unfold readExprWith
    rw [h, hx]
    rfl
  | ok p =>
    obtain ⟨outer, leaf⟩ := p
    rw [hx] at h
    rw [readExprWith_of_spine inner h, readExprWith_of_spine inner hx, bind_assoc]
    simp only [List.reverse_cons, List.foldlM_append, List.foldlM_cons, List.foldlM_nil, bind_pure]

theorem readExprWith_first (inner : InnerReaders) {tag : String} {x : Datum} {rest : List Datum}
    (h : leading? tag = some .first) :
    readExprWith inner (.list (.symbol tag :: x :: rest)) =
      readExprWith inner x >>= readChain inner ⟨tag, x :: rest⟩ :=
  readExprWith_of_leading inner (by simp only [spine, h])

theorem readExprWith_third (inner : InnerReaders) {tag : String} {op pos x : Datum}
    {rest : List Datum} (h : leading? tag = some .third) :
    readExprWith inner (.list (.symbol tag :: op :: pos :: x :: rest)) =
      readExprWith inner x >>= readChain inner ⟨tag, op :: pos :: x :: rest⟩ :=
  readExprWith_of_leading inner (by simp only [spine, h])

theorem yields_of_spine_error {inner : InnerReaders} {d : Datum} {e : ShapeError}
    {P : Expr → Prop} (h : spine d = .error e) : Yields (readExprWith inner d) P := by
  intro table x table' hx
  unfold readExprWith at hx
  rw [h] at hx
  cases hx

theorem readExprWith_leaf (inner : InnerReaders) {tag : String} {args : List Datum}
    (h : leading? tag = none) :
    readExprWith inner (.list (.symbol tag :: args)) = readLeaf inner ⟨tag, args⟩ := by
  have hspine : spine (.list (.symbol tag :: args)) = .ok ([], ⟨tag, args⟩) := by
    simp only [spine, h]
    rfl
  rw [readExprWith_of_spine inner hspine]
  exact bind_pure _

/-! ## Names -/

theorem eq_map_of_identsOf? {xs : List Expr} {ids : List Ident} (h : identsOf? xs = some ids) :
    xs = ids.map .ident := by
  fun_induction identsOf? xs generalizing ids with
  | case1 =>
    cases h
    rfl
  | case2 id xs ih =>
    obtain ⟨rest, hrest, rfl⟩ := Option.map_eq_some_iff.mp h
    rw [ih hrest, List.map_cons]
  | case3 => cases h

end UncheckedErrors
