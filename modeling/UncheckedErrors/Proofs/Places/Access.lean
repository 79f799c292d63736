import UncheckedErrors.Proofs.Readers

/-!
# Looking up places

The readers of this project take a form apart by its shape, so none of them can reach past its end.
Here they are written another way: a form is checked for its length and its parts are then looked up
by number, with no regard to whether there is such a part. A lookup of a place that is not there has
no outcome at all, not even an error, and neither has a lookup in something that is no list.

`found r` has the outcome of the reader `r`. A computation that equals it therefore finds every
place that it looks up. `Places.bind_operand` and its companions say this of the operands of a form,
`Places.splitOptions_eq` of its options.
-/

namespace UncheckedErrors

/-- A computation that looks up places, with the table of named types at hand. -/
abbrev Lookup (ε : Type) := StateT TypeTable (ExceptT ε Option)

/-- What a reader does, as a computation that has an outcome always. -/
def found {ε α : Type} (r : StateT TypeTable (Except ε) α) : Lookup ε α := fun table =>
  some (r table)

section

variable {ε α β : Type}

@[simp] theorem found_pure (a : α) :
    found (pure a : StateT TypeTable (Except ε) α) = pure a := rfl

@[simp] theorem found_throw (e : ε) :
    found (throw e : StateT TypeTable (Except ε) α) = throw e := rfl

@[simp] theorem found_get :
    found (get : StateT TypeTable (Except ε) TypeTable) = get := rfl

@[simp] theorem found_modify (f : TypeTable → TypeTable) :
    found (modify f : StateT TypeTable (Except ε) PUnit) = modify f := rfl

@[simp] theorem found_bind (r : StateT TypeTable (Except ε) α)
    (f : α → StateT TypeTable (Except ε) β) :
    found (r >>= f) = found r >>= fun a => found (f a) := by
  funext table
  show some (r table >>= fun (a, middle) => f a middle) = _
  cases h : r table with
  | error e =>
    simp [found, h, bind, StateT.bind, ExceptT.bind, ExceptT.mk, ExceptT.bindCont, Except.bind]
  | ok p =>
    simp [found, h, bind, StateT.bind, ExceptT.bind, ExceptT.mk, ExceptT.bindCont, Except.bind]

@[simp] theorem found_map (f : α → β) (r : StateT TypeTable (Except ε) α) :
    found (f <$> r) = f <$> found r := by
  rw [map_eq_pure_bind, map_eq_pure_bind, found_bind]
  rfl

@[simp] theorem found_liftM (x : Except ε α) :
    found (liftM x : StateT TypeTable (Except ε) α) = liftM x := by
  cases x with
  | error e => rfl
  | ok a => rfl

@[simp] theorem found_ite {c : Prop} [Decidable c] (r s : StateT TypeTable (Except ε) α) :
    found (if c then r else s) = if c then found r else found s :=
  apply_ite found c r s

@[simp] theorem found_mapM (f : α → StateT TypeTable (Except ε) β) (as : List α) :
    found (as.mapM f) = as.mapM fun a => found (f a) := by
  induction as with
  | nil => rfl
  | cons a as ih => simp only [List.mapM_cons, found_bind, found_pure, ih]

@[simp] theorem found_optionMapM (f : α → StateT TypeTable (Except ε) β) (a : Option α) :
    found (a.mapM f) = a.mapM fun a => found (f a) := by
  cases a with
  | none => rfl
  | some a => simp only [Option.mapM_some, found_map]

@[simp] theorem found_foldlM (f : β → α → StateT TypeTable (Except ε) β) (b : β) (as : List α) :
    found (as.foldlM f b) = as.foldlM (fun b a => found (f b a)) b := by
  induction as generalizing b with
  | nil => rfl
  | cons a as ih => simp only [List.foldlM_cons, found_bind, ih]

@[simp] theorem found_forIn (f : α → β → StateT TypeTable (Except ε) (ForInStep β)) (b : β)
    (as : List α) : found (forIn as b f) = forIn as b fun a b => found (f a b) := by
  induction as generalizing b with
  | nil => rfl
  | cons a as ih =>
    rw [List.forIn_cons, List.forIn_cons, found_bind]
    congr 1
    funext step
    cases step with
    | done b => rfl
    | yield b => exact ih b

@[simp] theorem liftM_ok_lookup (a : α) : (liftM (.ok a : Except ε α) : Lookup ε α) = pure a := rfl

@[simp] theorem liftM_pure_lookup (a : α) :
    (liftM (pure a : Except ε α) : Lookup ε α) = pure a := rfl

@[simp] theorem liftM_throw_lookup (e : ε) :
    (liftM (throw e : Except ε α) : Lookup ε α) = throw e := rfl

@[simp] theorem liftM_some_lookup (a : α) : (liftM (some a) : Lookup ε α) = pure a := rfl

@[simp] theorem liftM_bind_lookup (x : Except ε α) (f : α → Except ε β) :
    (liftM (x >>= f) : Lookup ε β) = (liftM x : Lookup ε α) >>= fun a => liftM (f a) := by
  cases x with
  | error e => rfl
  | ok a => rfl

@[simp] theorem throw_bind_lookup (e : ε) (f : α → Lookup ε β) :
    (throw e : Lookup ε α) >>= f = throw e := rfl

@[simp] theorem map_throw_lookup (f : α → β) (e : ε) :
    f <$> (throw e : Lookup ε α) = throw e := rfl

end

/-! ## Parts of a datum -/

/-- The elements of a round list. Nothing else has any. -/
def Datum.items? : Datum → Option (List Datum)
  | .list items => some items
  | _ => none

/-- The list that a form is. -/
def Form.datum (form : Form) : Datum := .list (.symbol form.tag :: form.args)

namespace Places

/-- The entry of a list at a place. Places are never counted from the end. -/
def entry {α : Type} (as : List α) (i : Int) : Option α :=
  if 0 ≤ i then as[i.toNat]? else none

theorem entry_of_nonneg {α : Type} {as : List α} {i : Int} (h : 0 ≤ i) :
    entry as i = as[i.toNat]? := if_pos h

/-- The part of a form at a place. The tag is at place 0. -/
def place (d : Datum) (i : Nat) : Lookup ShapeError Datum := do
  let items ← d.items?
  items[i]?

/-- The parts of a form from a place on. -/
def placesFrom (d : Datum) (i : Nat) : Lookup ShapeError (List Datum) := do
  let items ← d.items?
  return items.drop i

/-- Number of places. -/
def count (d : Datum) : Lookup ShapeError Nat := do
  let items ← d.items?
  return items.length

/-- The part of a form at a place, if the form is long enough to have it. -/
def placeIfAny (d : Datum) (i : Nat) : Lookup ShapeError (Option Datum) := do
  if i < (← count d) then return some (← place d i) else return none

/-- The name of a symbol. -/
def symbolName : Datum → Shape String
  | .symbol name => return name
  | d => throw (.notSymbol d)

/-- The tag of a form. -/
def head (d : Datum) : Lookup ShapeError String := do
  symbolName (← place d 0)

/-- Checks that a datum is a list with at least `least` places. -/
def expect (least : Nat) (d : Datum) : Lookup ShapeError Unit := do
  match d.items? with
  | none => throw (.notList none d)
  | some items =>
    if items.length < least then
      let tag ← if items.isEmpty then pure "" else head d
      throw (.tooShort tag least items.length)

/-- Checks that a datum is a form with the given tag and at least `least` places. -/
def expectTag (tag : String) (least : Nat) (d : Datum) : Lookup ShapeError Unit := do
  match d.items? with
  | none => throw (.notList (some tag) d)
  | some items =>
    if items.isEmpty then throw (.wrongTag tag none)
    let actual ← head d
    if actual ≠ tag then throw (.wrongTag tag (some actual))
    expect least d

/-! ## Places of a form -/

section

variable (form : Form)

@[simp] theorem head_datum : head form.datum = pure form.tag := rfl

@[simp] theorem place_datum (i : Nat) : place form.datum (i + 1) = liftM form.args[i]? := rfl

@[simp] theorem placesFrom_datum (i : Nat) :
    placesFrom form.datum (i + 1) = pure (form.args.drop i) := rfl

@[simp] theorem count_datum : count form.datum = pure (form.args.length + 1) := rfl

@[simp] theorem placeIfAny_datum (i : Nat) :
    placeIfAny form.datum (i + 1) = pure form.args[i]? := by
  rw [placeIfAny, count_datum, pure_bind, place_datum]
  by_cases h : i < form.args.length
  · rw [if_pos (Nat.succ_lt_succ h), List.getElem?_eq_getElem h]
    rfl
  · rw [if_neg (fun hi => h (Nat.succ_lt_succ_iff.mp hi)),
      List.getElem?_eq_none (Nat.not_lt.mp h)]

@[simp] theorem expect_datum (least : Nat) :
    expect least form.datum = liftM (form.atLeast least) := by
  unfold Form.atLeast
  split
  · rename_i h
    exact if_pos h
  · rename_i h
    exact if_neg h

theorem expectTag_datum (tag : String) (least : Nat) :
    expectTag tag least form.datum =
      if form.tag ≠ tag then throw (.wrongTag tag (some form.tag))
      else liftM (form.atLeast least) := by
  rw [← expect_datum]
  by_cases h : form.tag ≠ tag
  · rw [if_pos h]
    exact if_pos h
  · rw [if_neg h]
    exact if_neg h

theorem ofDatum_datum (least : Nat) :
    Form.ofDatum least form.datum = form.atLeast least >>= fun _ => pure form := rfl

theorem tagged_datum (tag : String) (least : Nat) :
    Form.tagged tag least form.datum =
      if form.tag ≠ tag then throw (.wrongTag tag (some form.tag))
      else form.atLeast least >>= fun _ => pure form := by
  by_cases h : form.tag ≠ tag
  · rw [if_pos h]
    exact if_pos h
  · rw [if_neg h]
    exact if_neg h

variable {form}

theorem atLeast_eq_pure {least : Nat} (h : least ≤ form.args.length + 1) :
    form.atLeast least = pure () :=
  if_neg (Nat.not_lt.mpr h)

/-- A form of two places has an operand. -/
theorem exists_operand (h : 2 ≤ form.args.length + 1) : ∃ a rest, form.args = a :: rest :=
  match hargs : form.args with
  | [] => by simp [hargs] at h
  | a :: rest => ⟨a, rest, rfl⟩

/-- A form of three places has two operands. -/
theorem exists_operands2 (h : 3 ≤ form.args.length + 1) :
    ∃ a b rest, form.args = a :: b :: rest :=
  match hargs : form.args with
  | [] | [_] => by simp [hargs] at h
  | a :: b :: rest => ⟨a, b, rest, rfl⟩

end

/-! ## Checks and what they are for

Each check of a length and a tag fails if, and as, the part of a form that it precedes is refused
by the readers. -/

section

variable {x : Datum}

/-- A nonempty list of data is a form, unless it starts with something else than a symbol. -/
theorem form_or_notSymbol (x : Datum) (args : List Datum) :
    (∃ form : Form, .list (x :: args) = form.datum) ∨ symbolName x = throw (.notSymbol x) := by
  cases x with
  | symbol tag => exact .inl ⟨⟨tag, args⟩, rfl⟩
  | string | int | real | list | brackets | quoted => exact .inr rfl

theorem head_of_notSymbol (h : symbolName x = throw (.notSymbol x)) (args : List Datum) :
    head (.list (x :: args)) = throw (.notSymbol x) := by
  show (liftM (symbolName x) : Lookup ShapeError String) = _
  rw [h]
  rfl

theorem ofDatum_of_notSymbol (h : symbolName x = throw (.notSymbol x)) (args : List Datum)
    (least : Nat) : Form.ofDatum least (.list (x :: args)) = throw (.notSymbol x) := by
  cases x with
  | symbol tag => cases h
  | string | int | real | list | brackets | quoted => rfl

theorem tagged_of_notSymbol (h : symbolName x = throw (.notSymbol x)) (args : List Datum)
    (tag : String) (least : Nat) :
    Form.tagged tag least (.list (x :: args)) = throw (.notSymbol x) := by
  cases x with
  | symbol tag => cases h
  | string | int | real | list | brackets | quoted => rfl

theorem expect_list_cons (args : List Datum) (least : Nat) :
    expect least (.list (x :: args)) =
      if args.length + 1 < least then
        head (.list (x :: args)) >>= fun tag => throw (.tooShort tag least (args.length + 1))
      else pure () := rfl

theorem expect_head {least : Nat} (hleast : 0 < least) (d : Datum) :
    (expect least d >>= fun _ => head d) =
      liftM (Form.ofDatum least d) >>= fun form => pure form.tag := by
  cases d with
  | list items =>
    cases items with
    | nil =>
      have hexpect : expect least (.list []) = throw (.tooShort "" least 0) := if_pos hleast
      rw [hexpect, throw_bind_lookup]
      rfl
    | cons x args =>
      rcases form_or_notSymbol x args with ⟨form, hform⟩ | hx
      · rw [hform, expect_datum, head_datum, ofDatum_datum]
        simp
      · rw [ofDatum_of_notSymbol hx, expect_list_cons, head_of_notSymbol hx]
        split <;> simp
  | symbol | string | int | real | brackets | quoted => rfl

theorem expectTag_eq (tag : String) (least : Nat) (d : Datum) :
    expectTag tag least d = liftM (Form.tagged tag least d) >>= fun _ => pure () := by
  cases d with
  | list items =>
    cases items with
    | nil => rfl
    | cons x args =>
      rcases form_or_notSymbol x args with ⟨form, hform⟩ | hx
      · rw [hform, expectTag_datum, tagged_datum]
        split <;> simp
      · have hexpect : expectTag tag least (.list (x :: args)) = throw (.notSymbol x) := by
          show (head (.list (x :: args)) >>= fun _ => _) = _
          rw [head_of_notSymbol hx]
          rfl
        rw [tagged_of_notSymbol hx, hexpect]
        rfl
  | symbol | string | int | real | brackets | quoted => rfl

theorem expect_operand (form : Form) :
    expect 2 form.datum = liftM form.operand >>= fun _ => pure () := by
  rw [expect_datum]
  unfold Form.operand
  rcases hargs : form.args with _ | ⟨a, rest⟩
  · simp [Form.atLeast, hargs]
  · simp [atLeast_eq_pure, hargs]

theorem expect_operands2 (form : Form) :
    expect 3 form.datum = liftM form.operands2 >>= fun _ => pure () := by
  rw [expect_datum]
  unfold Form.operands2
  rcases hargs : form.args with _ | ⟨a, _ | ⟨b, rest⟩⟩
  · simp [Form.atLeast, hargs]
  · simp [Form.atLeast, hargs]
  · simp [atLeast_eq_pure, hargs]

theorem expect_operands3 (form : Form) :
    expect 4 form.datum = liftM form.operands3 >>= fun _ => pure () := by
  rw [expect_datum]
  unfold Form.operands3
  rcases hargs : form.args with _ | ⟨a, _ | ⟨b, _ | ⟨c, rest⟩⟩⟩
  · simp [Form.atLeast, hargs]
  · simp [Form.atLeast, hargs]
  · simp [Form.atLeast, hargs]
  · simp [atLeast_eq_pure, hargs]

theorem expect_operands4 (form : Form) :
    expect 5 form.datum = liftM form.operands4 >>= fun _ => pure () := by
  rw [expect_datum]
  unfold Form.operands4
  rcases hargs : form.args with _ | ⟨a, _ | ⟨b, _ | ⟨c, _ | ⟨d, rest⟩⟩⟩⟩
  · simp [Form.atLeast, hargs]
  · simp [Form.atLeast, hargs]
  · simp [Form.atLeast, hargs]
  · simp [Form.atLeast, hargs]
  · simp [atLeast_eq_pure, hargs]

end

/-! ## After a check -/

section

variable {α β γ : Type} {form : Form} {d : Datum} {k : Lookup ShapeError α}

/-- A check `look` of what `x` takes apart, and what is done with the parts. -/
theorem bind_check {look : Lookup ShapeError β} {x : Shape γ} {f : γ → β}
    {k : β → Lookup ShapeError α} {g : γ → Lookup ShapeError α}
    (hlook : look = liftM x >>= fun c => pure (f c)) (h : ∀ c, x = .ok c → k (f c) = g c) :
    look >>= k = liftM x >>= g := by
  cases x with
  | error e =>
    rw [hlook]
    rfl
  | ok c =>
    rw [hlook, liftM_ok_lookup, pure_bind, pure_bind, pure_bind, h c rfl]

theorem bind_check_found {look : Lookup ShapeError β} {x : Shape γ} {f : γ → β}
    {k : β → Lookup ShapeError α} {g : γ → Reader α}
    (hlook : look = liftM x >>= fun c => pure (f c)) (h : ∀ c, x = .ok c → k (f c) = found (g c)) :
    look >>= k = found (liftM x >>= g) := by
  rw [found_bind, found_liftM]
  exact bind_check hlook h

theorem bind_ofDatum {least : Nat} (hleast : 0 < least) {k : String → Lookup ShapeError α}
    {g : Form → Reader α}
    (h : ∀ form : Form, d = form.datum → least ≤ form.args.length + 1 →
      k form.tag = found (g form)) :
    (expect least d >>= fun _ => head d >>= k) = found (liftM (Form.ofDatum least d) >>= g) := by
  rw [← bind_assoc]
  exact bind_check_found (expect_head hleast d) fun form hform =>
    h form (Form.ofDatum_eq_ok.mp hform).1 (Form.ofDatum_eq_ok.mp hform).2

theorem bind_tagged {tag : String} {least : Nat} {g : Form → Reader α}
    (h : ∀ form : Form, d = form.datum → least ≤ form.args.length + 1 → k = found (g form)) :
    (expectTag tag least d >>= fun _ => k) = found (liftM (Form.tagged tag least d) >>= g) :=
  bind_check_found (expectTag_eq tag least d) fun form hform => by
    obtain ⟨hd, rfl, hlength⟩ := Form.tagged_eq_ok.mp hform
    exact h form hd hlength

/-- The elements after a given tag. -/
@[simp] theorem expectTag_placesFrom {tag : String} {least : Nat}
    {g : List Datum → Lookup ShapeError α} :
    (expectTag tag least d >>= fun _ => placesFrom d 1 >>= g) =
      liftM (Form.tagged tag least d) >>= fun form => g form.args :=
  bind_check (expectTag_eq tag least d) fun form hform => by
    obtain ⟨rfl, rfl, -⟩ := Form.tagged_eq_ok.mp hform
    rfl

theorem bind_operand {g : Datum × List Datum → Reader α}
    (h : ∀ a rest, form.args = a :: rest → k = found (g (a, rest))) :
    (expect 2 form.datum >>= fun _ => k) = found (liftM form.operand >>= g) :=
  bind_check_found (expect_operand form) fun _ hargs => h _ _ (Form.operand_eq_ok.mp hargs)

theorem bind_operands2 {g : Datum × Datum × List Datum → Reader α}
    (h : ∀ a b rest, form.args = a :: b :: rest → k = found (g (a, b, rest))) :
    (expect 3 form.datum >>= fun _ => k) = found (liftM form.operands2 >>= g) :=
  bind_check_found (expect_operands2 form) fun _ hargs =>
    h _ _ _ (Form.operands2_eq_ok.mp hargs)

theorem bind_operands3 {g : Datum × Datum × Datum × List Datum → Reader α}
    (h : ∀ a b c rest, form.args = a :: b :: c :: rest → k = found (g (a, b, c, rest))) :
    (expect 4 form.datum >>= fun _ => k) = found (liftM form.operands3 >>= g) :=
  bind_check_found (expect_operands3 form) fun _ hargs =>
    h _ _ _ _ (Form.operands3_eq_ok.mp hargs)

theorem bind_operands4 {g : Datum × Datum × Datum × Datum × List Datum → Reader α}
    (h : ∀ a b c d rest, form.args = a :: b :: c :: d :: rest →
      k = found (g (a, b, c, d, rest))) :
    (expect 5 form.datum >>= fun _ => k) = found (liftM form.operands4 >>= g) :=
  bind_check_found (expect_operands4 form) fun _ hargs =>
    h _ _ _ _ _ (Form.operands4_eq_ok.mp hargs)

end

/-! ## Options -/

/-- Whether a datum is an option with one of the keys. -/
def isOption (keys : List String) (d : Datum) : Lookup ShapeError Bool := do
  match d.items? with
  | none => return false
  | some items =>
    if items.isEmpty then return false
    match ← place d 0 with
    | .symbol name => return keys.contains name
    | _ => return false

/-- Separates the options with one of the `keys` from the other elements of a form. -/
def splitOptionsFrom (keys : List String) (seen : Options) :
    List Datum → Lookup ShapeError (List Datum × Options)
  | [] => return ([], seen)
  | d :: rest => do
    if ← isOption keys d then
      let name ← head d
      if (seen.get? name).isSome then throw (.duplicateOption name)
      splitOptionsFrom keys (seen ++ [(name, ← placesFrom d 1)]) rest
    else
      let (others, options) ← splitOptionsFrom keys seen rest
      return (d :: others, options)

/-- Separates the options with one of the `keys` from the other elements of a form. -/
def splitOptions (keys : List String) (items : List Datum) :
    Lookup ShapeError (List Datum × Options) :=
  splitOptionsFrom keys [] items

/-- The options with one of the `keys` among the elements of a form. -/
def optionsOf (keys : List String) (items : List Datum) : Lookup ShapeError Options :=
  (·.2) <$> splitOptions keys items

/-- The one element of an option, if the option is there. -/
def single? (options : Options) (key : String) : Lookup ShapeError (Option Datum) := do
  match options.get? key with
  | none => return none
  | some items =>
    if items.length ≠ 1 then throw (.notSingle key)
    return some (← items[0]?)

/-- The one element of an option that the form `tag` has to have. -/
def required (options : Options) (tag key : String) : Lookup ShapeError Datum := do
  match ← single? options key with
  | some d => return d
  | none => throw (.missingOption tag key)

/-- A datum is an option, in which case it is a form, or it is none. -/
theorem isOption_eq (keys : List String) (d : Datum) :
    (∃ form : Form, d = form.datum ∧ isOption keys d = pure true ∧
        optionKey? keys d = some (form.tag, form.args)) ∨
      isOption keys d = pure false ∧ optionKey? keys d = none := by
  cases d with
  | list items =>
    cases items with
    | nil => exact .inr ⟨rfl, rfl⟩
    | cons x args =>
      cases x with
      | symbol tag =>
        have hoption : isOption keys (.list (.symbol tag :: args)) = pure (keys.contains tag) := rfl
        by_cases h : keys.contains tag = true
        · exact .inl ⟨⟨tag, args⟩, rfl, by rw [hoption, h], if_pos h⟩
        · rw [Bool.not_eq_true] at h
          exact .inr ⟨by rw [hoption, h], if_neg (by rw [h]; decide)⟩
      | string | int | real | list | brackets | quoted => exact .inr ⟨rfl, rfl⟩
  | symbol | string | int | real | brackets | quoted => exact .inr ⟨rfl, rfl⟩

theorem splitOptionsFrom_eq (keys : List String) (seen : Options) (items : List Datum) :
    splitOptionsFrom keys seen items =
      liftM (UncheckedErrors.splitOptionsFrom keys seen items) := by
  induction items generalizing seen with
  | nil => rfl
  | cons d rest ih =>
    rcases isOption_eq keys d with ⟨form, hd, hoption, hkey⟩ | ⟨hoption, hkey⟩
    · subst hd
      by_cases hseen : (seen.get? form.tag).isSome = true
      · simp [splitOptionsFrom, UncheckedErrors.splitOptionsFrom, hoption, hkey, hseen]
      · simp [splitOptionsFrom, UncheckedErrors.splitOptionsFrom, hoption, hkey, hseen, ih]
    · simp only [splitOptionsFrom, UncheckedErrors.splitOptionsFrom, hoption, hkey, ih]
      simp

@[simp] theorem splitOptions_eq (keys : List String) (items : List Datum) :
    splitOptions keys items = liftM (UncheckedErrors.splitOptions keys items) :=
  splitOptionsFrom_eq keys [] items

@[simp] theorem optionsOf_eq (keys : List String) (items : List Datum) :
    optionsOf keys items = liftM (UncheckedErrors.optionsOf keys items) := by
  rw [optionsOf, splitOptions_eq, UncheckedErrors.optionsOf]
  cases UncheckedErrors.splitOptions keys items <;> rfl

@[simp] theorem single?_eq (options : Options) (key : String) :
    single? options key = liftM (options.single? key) := by
  unfold single? Options.single?
  rcases options.get? key with _ | _ | ⟨d, _ | ⟨d', rest⟩⟩ <;> rfl

@[simp] theorem required_eq (options : Options) (tag key : String) :
    required options tag key = liftM (options.required tag key) := by
  rw [required, single?_eq, Options.required, liftM_bind_lookup]
  congr 1
  funext d
  cases d <;> rfl

end Places

/-! ## Steps at hand -/

/-- Looks places up with `steps` steps at hand. -/
def Lookup.within {α : Type} (steps : Nat) (lookup : Lookup ShapeError α) : Lookup ShapeError α :=
  fun table =>
    if steps < leafSteps then some (.error .tooDeep)
    else Option.map (·.mapError (·.within steps)) (lookup table)

@[simp] theorem found_within {α : Type} (steps : Nat) (reader : Reader α) :
    (found reader).within steps = found (reader.within steps) := by
  funext table
  unfold Lookup.within found Reader.within
  split <;> rfl

end UncheckedErrors
