import UncheckedErrors.Proofs.Readers

/-!
# Leading operands read by recursion

An expression is read along its spine: first down to the innermost form, then outwards again. Plain
recursion takes one form after the other: it checks a left-anchored form up to its leading operand,
reads that operand, and goes on with the form (`readBy`).

Nothing is read on the way down, so the lengths of the forms are checked in the same order, and all
of them before anything is read. Both ways therefore give the same tree and the same table of types,
or the same first mistake (`readExpr_eq_readExprRecursively`).
-/

namespace UncheckedErrors

/-- The leading operand of a form. A form that ends in front of it is too short. -/
def Form.leadingOperand (form : Form) : Leading → Shape Datum
  | .first => do
    let (x, _) ← form.operand
    return x
  | .third => do
    let (_, _, x, _) ← form.operands3
    return x

/-- A form of an expression whose leading operand, if it has one, is read by `operand`. -/
def readFormBy (inner : InnerReaders) (operand : Datum → Reader Expr) (form : Form) :
    Reader Expr :=
  match leading? form.tag with
  | none => readLeaf inner form
  | some leading => do
    let x ← form.leadingOperand leading
    readChain inner form (← operand x)

/-- An expression whose leading operand, if it has one, is read by `operand`. -/
def readBy (inner : InnerReaders) (operand : Datum → Reader Expr) (d : Datum) : Reader Expr := do
  readFormBy inner operand (← Form.ofDatum 1 d)

theorem Form.sizeOf_leadingOperand_lt {form : Form} {leading : Leading} {d x : Datum}
    (hform : Form.ofDatum 1 d = .ok form) (hx : form.leadingOperand leading = .ok x) :
    sizeOf x < sizeOf d := by
  have hmem : x ∈ form.args := by
    cases leading with
    | first =>
      obtain ⟨⟨y, rest⟩, hargs, hy⟩ := exceptBind_eq_ok.mp hx
      rw [operand_eq_ok.mp hargs, ← exceptPure_eq_ok.mp hy]
      exact List.mem_cons_self
    | third =>
      obtain ⟨⟨a, b, y, rest⟩, hargs, hy⟩ := exceptBind_eq_ok.mp hx
      rw [operands3_eq_ok.mp hargs, ← exceptPure_eq_ok.mp hy]
      simp
  have hargs := List.sizeOf_lt_of_mem hmem
  rw [(ofDatum_eq_ok.mp hform).1]
  simp only [Datum.list.sizeOf_spec, List.cons.sizeOf_spec]
  omega

/-- An expression read by recursion on its leading operand. -/
def readRecursively (inner : InnerReaders) (d : Datum) : Reader Expr :=
  match _hform : Form.ofDatum 1 d with
  | .error e => throw e
  | .ok form =>
    match leading? form.tag with
    | none => readLeaf inner form
    | some leading =>
      match _hx : form.leadingOperand leading with
      | .error e => throw e
      | .ok x => readRecursively inner x >>= readChain inner form
termination_by sizeOf d
decreasing_by exact Form.sizeOf_leadingOperand_lt _hform _hx

/-- The readers with `steps` steps at hand that read leading operands by recursion. These take no
steps, as they take none along a spine. -/
def recursiveReaders : Nat → Nat → InnerReaders
  | 0, _ => ⟨fun _ _ => throw .tooDeep, fun _ _ => throw .tooDeep, fun _ _ => throw .tooDeep⟩
  | depth + 1, steps => {
      exprAt cost d :=
        Reader.within (steps - cost) (readRecursively (recursiveReaders depth (steps - cost)) d)
      stmtAt cost d :=
        Reader.within (steps - cost) (readStmtWith (recursiveReaders depth (steps - cost)) d)
      typeAt := typesWithin steps }

/-- An expression, with leading operands read by recursion at any depth. -/
def readExprRecursively (d : Datum) : Reader Expr := (recursiveReaders stepLimit stepLimit).expr d

/-! ## One form at a time -/

section

variable {inner : InnerReaders} {operand : Datum → Reader Expr} {form : Form} {leading : Leading}
  {d x : Datum} {e : ShapeError}

theorem readBy_of_error (h : Form.ofDatum 1 d = .error e) : readBy inner operand d = throw e := by
  rw [readBy, h]
  rfl

theorem readBy_of_form (h : Form.ofDatum 1 d = .ok form) :
    readBy inner operand d = readFormBy inner operand form := by
  rw [readBy, h]
  rfl

theorem readFormBy_leaf (h : leading? form.tag = none) :
    readFormBy inner operand form = readLeaf inner form := by
  rw [readFormBy, h]

theorem readFormBy_of_error (h : leading? form.tag = some leading)
    (hx : form.leadingOperand leading = .error e) :
    readFormBy inner operand form = throw e := by
  rw [readFormBy, h]
  show (liftM (form.leadingOperand leading) >>= _) = _
  rw [hx]
  rfl

theorem readFormBy_of_operand (h : leading? form.tag = some leading)
    (hx : form.leadingOperand leading = .ok x) :
    readFormBy inner operand form = operand x >>= readChain inner form := by
  rw [readFormBy, h]
  show (liftM (form.leadingOperand leading) >>= _) = _
  rw [hx]
  rfl

/-- Recursion takes one form after the other. -/
theorem readRecursively_eq_readBy (inner : InnerReaders) (d : Datum) :
    readRecursively inner d = readBy inner (readRecursively inner) d := by
  rw [readRecursively]
  split
  · rename_i e hform
    rw [readBy_of_error hform]
  · rename_i form hform
    rw [readBy_of_form hform]
    split
    · rename_i hleading
      rw [readFormBy_leaf hleading]
    · rename_i leading hleading
      split
      · rename_i e hx
        rw [readFormBy_of_error hleading hx]
      · rename_i x hx
        rw [readFormBy_of_operand hleading hx]

/-! ## The spine -/

/-- What is no form has no spine. -/
theorem spine_of_error (h : Form.ofDatum 1 d = .error e) : spine d = .error e := by
  cases d with
  | list items =>
    cases items with
    | nil =>
      cases h
      rw [spine]
      rfl
    | cons head rest =>
      cases head with
      | symbol tag =>
        rw [Form.ofDatum_list (by omega)] at h
        cases h
      | string | int | real | list | brackets | quoted =>
        cases h
        rw [spine]
        · rfl
        · intro tag heq
          cases heq
  | symbol | string | int | real | brackets | quoted =>
    cases h
    rw [spine]
    · rfl
    all_goals
      intros
      contradiction

theorem spine_of_short (h : leading? form.tag = some leading)
    (hx : form.leadingOperand leading = .error e) :
    spine (.list (.symbol form.tag :: form.args)) = .error e := by
  obtain ⟨tag, args⟩ := form
  cases leading with
  | first =>
    cases args with
    | nil =>
      cases hx
      simp only [spine, h]
      rfl
    | cons x rest => cases hx
  | third =>
    rcases args with _ | ⟨op, _ | ⟨pos, _ | ⟨x, rest⟩⟩⟩
    · cases hx
      simp only [spine, h]
      rfl
    · cases hx
      simp only [spine, h]
      rfl
    · cases hx
      simp only [spine, h]
      rfl
    · cases hx

theorem spine_of_operand (h : leading? form.tag = some leading)
    (hx : form.leadingOperand leading = .ok x) :
    spine (.list (.symbol form.tag :: form.args)) =
      spine x >>= fun (outer, leaf) => return (form :: outer, leaf) := by
  obtain ⟨tag, args⟩ := form
  cases leading with
  | first =>
    obtain ⟨⟨y, rest⟩, hargs, hy⟩ := exceptBind_eq_ok.mp hx
    obtain rfl : args = y :: rest := Form.operand_eq_ok.mp hargs
    cases exceptPure_eq_ok.mp hy
    simp only [spine, h]
  | third =>
    obtain ⟨⟨op, pos, y, rest⟩, hargs, hy⟩ := exceptBind_eq_ok.mp hx
    obtain rfl : args = op :: pos :: y :: rest := Form.operands3_eq_ok.mp hargs
    cases exceptPure_eq_ok.mp hy
    simp only [spine, h]

theorem readExprWith_of_error (h : spine d = .error e) : readExprWith inner d = throw e := by
  rw [readExprWith, h]
  rfl

/-- The way along the spine takes one form after the other, too. -/
theorem readExprWith_eq_readBy (inner : InnerReaders) (d : Datum) :
    readExprWith inner d = readBy inner (readExprWith inner) d := by
  cases hform : Form.ofDatum 1 d with
  | error e =>
    rw [readBy_of_error hform, readExprWith_of_error (spine_of_error hform)]
  | ok form =>
    obtain ⟨rfl, -⟩ := Form.ofDatum_eq_ok.mp hform
    rw [readBy_of_form hform]
    cases hleading : leading? form.tag with
    | none => rw [readFormBy_leaf hleading, readExprWith_leaf inner hleading]
    | some leading =>
      cases hx : form.leadingOperand leading with
      | error e =>
        rw [readFormBy_of_error hleading hx, readExprWith_of_error (spine_of_short hleading hx)]
      | ok x =>
        rw [readFormBy_of_operand hleading hx,
          readExprWith_of_leading inner (spine_of_operand hleading hx)]

end

/-- Only one reader takes one form after the other. -/
theorem eq_of_eq_readBy {inner : InnerReaders} {read read' : Datum → Reader Expr}
    (h : ∀ d, read d = readBy inner read d) (h' : ∀ d, read' d = readBy inner read' d)
    (d : Datum) : read d = read' d := by
  induction hsize : sizeOf d using Nat.strongRecOn generalizing d with
  | ind n ih =>
    rw [h, h']
    cases hform : Form.ofDatum 1 d with
    | error e => rw [readBy_of_error hform, readBy_of_error hform]
    | ok form =>
      rw [readBy_of_form hform, readBy_of_form hform]
      cases hleading : leading? form.tag with
      | none => rw [readFormBy_leaf hleading, readFormBy_leaf hleading]
      | some leading =>
        cases hx : form.leadingOperand leading with
        | error e => rw [readFormBy_of_error hleading hx, readFormBy_of_error hleading hx]
        | ok x =>
          have hlt : sizeOf x < n := hsize ▸ Form.sizeOf_leadingOperand_lt hform hx
          rw [readFormBy_of_operand hleading hx, readFormBy_of_operand hleading hx,
            ih _ hlt x rfl]

theorem readExprWith_eq_readRecursively (inner : InnerReaders) (d : Datum) :
    readExprWith inner d = readRecursively inner d :=
  eq_of_eq_readBy (readExprWith_eq_readBy inner) (readRecursively_eq_readBy inner) d

theorem readersWithin_eq_recursiveReaders (depth steps : Nat) :
    readersWithin depth steps = recursiveReaders depth steps := by
  induction depth generalizing steps with
  | zero => rfl
  | succ depth ih =>
    simp only [readersWithin, recursiveReaders, ih, readExprWith_eq_readRecursively]

/-- Reading an expression along its spine has the outcome of reading leading operands by recursion:
the same tree and the same table of types, or the same first mistake. -/
theorem readExpr_eq_readExprRecursively :
    (∀ inner d, readRecursively inner d = readBy inner (readRecursively inner) d) ∧
    (∀ inner d, readExprWith inner d = readRecursively inner d) ∧
    ∀ d table, readExpr d table = readExprRecursively d table := by
  refine ⟨readRecursively_eq_readBy, readExprWith_eq_readRecursively, ?_⟩
  intro d table
  rw [readExpr, readExprRecursively, readersWithin_eq_recursiveReaders]

end UncheckedErrors
