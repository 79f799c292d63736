import Mathlib.Data.Set.Insert
import UncheckedErrors.Proofs.TypeCharacters

/-!
# Reading a type off its text

Types have one text only if they are one type, up to the names of embedded fields
(`GoType.text_eq_text_iff`). A text is read from its front, and each part ends where a character
comes that closes it, so what follows may be any text that starts with such a character
(`GoType.Proper.determined`).

A list is read item by item (`GoType.listed_inj`). What looks alike is told apart by one character:
a field or a method with a name from an embedded type by what follows the name, a parameter that may
come many times by its dots (`GoType.determined_param`), and one result from several by a
parenthesis (`GoType.Proper.chars_append_ne_tuple`).
-/

namespace UncheckedErrors

namespace GoType

variable {basics : Set String} {t u : GoType}

/-! ## Lists -/

/-- Among the items with `p`, `view a` can be read off the text of `a`, whatever closes it. -/
def Determined {α β : Type} (write : α → List Char) (view : α → β) (p : α → Prop) (a : α) :
    Prop :=
  ∀ b, p b → ∀ rest rest', Closes rest → Closes rest' → write a ++ rest = write b ++ rest' →
    view a = view b ∧ rest = rest'

section Listed

variable {α β : Type} {write : α → List Char} {view : α → β} {p : α → Prop} {sep close : Char}

theorem closes_flatMap (hsep : sep ∈ closers) (hclose : close ∈ closers) (as : List α)
    (rest : List Char) : Closes ((as.flatMap fun a => sep :: ' ' :: write a) ++ close :: rest) := by
  cases as with
  | nil => exact closes_cons hclose _
  | cons a as => exact closes_cons hsep _

/-- The items behind the first one, each with a separator in front. -/
theorem flatMap_inj (hsep : sep ∈ closers) (hclose : close ∈ closers) (hne : sep ≠ close)
    {as bs : List α} (has : ∀ a ∈ as, Determined write view p a) (hbs : ∀ b ∈ bs, p b)
    {rest rest' : List Char}
    (h : (as.flatMap fun a => sep :: ' ' :: write a) ++ close :: rest =
      (bs.flatMap fun b => sep :: ' ' :: write b) ++ close :: rest') :
    as.map view = bs.map view ∧ rest = rest' := by
  induction as generalizing bs with
  | nil =>
    cases bs with
    | nil => exact ⟨rfl, (List.cons.inj h).2⟩
    | cons b bs => exact absurd (List.cons.inj h).1.symm hne
  | cons a as ih =>
    cases bs with
    | nil => exact absurd (List.cons.inj h).1 hne
    | cons b bs =>
      simp only [List.flatMap_cons, List.cons_append, List.append_assoc, List.cons.injEq,
        true_and] at h
      -- Behind an item comes a separator or what closes the list, and both close the item.
      obtain ⟨hview, hrest⟩ := has a List.mem_cons_self b (hbs b List.mem_cons_self) _ _
        (closes_flatMap hsep hclose as rest) (closes_flatMap hsep hclose bs rest') h
      obtain ⟨hviews, hrests⟩ := ih (fun a ha => has a (List.mem_cons_of_mem _ ha))
        (fun b hb => hbs b (List.mem_cons_of_mem _ hb)) hrest
      exact ⟨by rw [List.map_cons, List.map_cons, hview, hviews], hrests⟩

/-- A list is read off its text up to what closes it, if each of its items is. -/
theorem listed_inj (hsep : sep ∈ closers) (hclose : close ∈ closers) (hne : sep ≠ close)
    (hstart : ∀ a, p a → ∃ c cs, write a = c :: cs ∧ c ≠ close) {as bs : List α}
    (has : ∀ a ∈ as, Determined write view p a) (hpas : ∀ a ∈ as, p a) (hpbs : ∀ b ∈ bs, p b)
    {rest rest' : List Char}
    (h : listed sep write as ++ close :: rest = listed sep write bs ++ close :: rest') :
    as.map view = bs.map view ∧ rest = rest' := by
  cases as with
  | nil =>
    cases bs with
    | nil => exact ⟨rfl, (List.cons.inj h).2⟩
    | cons b bs =>
      obtain ⟨c, cs, hwrite, hc⟩ := hstart b (hpbs b List.mem_cons_self)
      rw [listed, listed, hwrite] at h
      exact absurd (List.cons.inj h).1.symm hc
  | cons a as =>
    cases bs with
    | nil =>
      obtain ⟨c, cs, hwrite, hc⟩ := hstart a (hpas a List.mem_cons_self)
      rw [listed, listed, hwrite] at h
      exact absurd (List.cons.inj h).1 hc
    | cons b bs =>
      simp only [listed, List.append_assoc] at h
      obtain ⟨hview, hrest⟩ := has a List.mem_cons_self b (hpbs b List.mem_cons_self) _ _
        (closes_flatMap hsep hclose as rest) (closes_flatMap hsep hclose bs rest') h
      obtain ⟨hviews, hrests⟩ := flatMap_inj hsep hclose hne
        (fun a ha => has a (List.mem_cons_of_mem _ ha))
        (fun b hb => hpbs b (List.mem_cons_of_mem _ hb)) hrest
      exact ⟨by rw [List.map_cons, List.map_cons, hview, hviews], hrests⟩

end Listed

/-! ## Functions -/

/-- The parameter of a function that is written as this item. -/
def ofItem (item : Bool × GoType) : GoType := if item.1 then .slice item.2 else item.2

/-- What the text of a parameter shows. -/
def shownItem (item : Bool × GoType) : Bool × GoType := (item.1, item.2.shown)

theorem shown_ofItem (item : Bool × GoType) : (ofItem item).shown = ofItem (shownItem item) := by
  obtain ⟨many, t⟩ := item
  cases many <;> rfl

theorem map_ofItem_paramItems (variadic : Bool) (params : List GoType) :
    (paramItems variadic params).map ofItem = params := by
  unfold paramItems
  split
  · rename_i elem hlast
    rw [List.map_append, List.map_map]
    simpa [ofItem, Function.comp_def] using List.dropLast_append_getLast? _ hlast
  · simp [ofItem, Function.comp_def]

theorem ofItem_mem {variadic : Bool} {params : List GoType} {item : Bool × GoType}
    (h : item ∈ paramItems variadic params) : ofItem item ∈ params := by
  rw [← map_ofItem_paramItems variadic params]
  exact List.mem_map_of_mem h

theorem map_shown_params (variadic : Bool) (params : List GoType) :
    params.map shown = ((paramItems variadic params).map shownItem).map ofItem := by
  conv_lhs => rw [← map_ofItem_paramItems variadic params]
  rw [List.map_map, List.map_map]
  exact List.map_congr_left fun item _ => shown_ofItem item

theorem any_paramItems {params : List GoType} {variadic : Bool}
    (h : variadic = true → ∃ front elem, params = front ++ [.slice elem]) :
    ((paramItems variadic params).map shownItem).any Prod.fst = variadic := by
  cases variadic with
  | false => simp [paramItems, shownItem]
  | true =>
    obtain ⟨front, elem, rfl⟩ := h rfl
    simp [paramItems, shownItem]

theorem toList_paramText_single (t : GoType) : (paramText (false, t)).toList = t.chars := by
  simp [paramText, chars]

theorem toList_paramText_many (t : GoType) :
    (paramText (true, t)).toList = '.' :: '.' :: '.' :: t.chars := by
  simp [paramText, chars]

theorem Proper.of_ofItem {item : Bool × GoType} (h : Proper basics (ofItem item)) :
    Proper basics item.2 := by
  obtain ⟨many, t⟩ := item
  cases many with
  | false => exact h
  | true =>
    cases h with
    | slice helem => exact helem

/-- The element of a slice is read off its text if the slice is. -/
theorem determined_of_ofItem {item : Bool × GoType}
    (h : Determined chars shown (Proper basics) (ofItem item)) :
    Determined chars shown (Proper basics) item.2 := by
  obtain ⟨many, t⟩ := item
  cases many with
  | false => exact h
  | true =>
    intro u hu rest rest' hrest hrest' htext
    have hslices : (slice t).chars ++ rest = (slice u).chars ++ rest' := by
      rw [chars_slice, chars_slice]
      exact congrArg ("[]".toList ++ ·) htext
    obtain ⟨hshown, hrests⟩ := h (.slice u) (.slice hu) rest rest' hrest hrest' hslices
    rw [ofItem, if_pos rfl, shown, shown] at hshown
    exact ⟨slice.inj hshown, hrests⟩

theorem determined_param {item : Bool × GoType} (hitem : Proper basics item.2)
    (ih : Determined chars shown (Proper basics) item.2) :
    Determined (paramText · |>.toList) shownItem (Proper basics ·.2) item := by
  obtain ⟨many, t⟩ := item
  rintro ⟨many', u⟩ hu rest rest' hrest hrest' h
  cases many <;> cases many' <;>
    simp only [toList_paramText_single, toList_paramText_many, List.cons_append, List.cons.injEq,
      true_and] at h
  -- In the two cases in the middle a type would start with a dot.
  · obtain ⟨hshown, hrests⟩ := ih u hu rest rest' hrest hrest' h
    exact ⟨congrArg (false, ·) hshown, hrests⟩
  · exact absurd h (hitem.chars_append_ne_cons (by decide) _ _)
  · exact absurd h.symm (Proper.chars_append_ne_cons hu (by decide) _ _)
  · obtain ⟨hshown, hrests⟩ := ih u hu rest rest' hrest hrest' h
    exact ⟨congrArg (true, ·) hshown, hrests⟩

theorem exists_cons_of_item {item : Bool × GoType} (h : Proper basics item.2) :
    ∃ c cs, (paramText item).toList = c :: cs ∧ c ≠ ')' := by
  obtain ⟨many, t⟩ := item
  cases many with
  | false =>
    rw [toList_paramText_single]
    exact exists_cons_ne h.exists_cons (by decide)
  | true => exact ⟨'.', _, toList_paramText_many t, by decide⟩

/-- The parameters of a function are read off the text between its parentheses, and whether the
last one may come many times. -/
theorem params_inj {params params' : List GoType} {variadic variadic' : Bool}
    (hp : ∀ t ∈ params, Proper basics t) (hp' : ∀ t ∈ params', Proper basics t)
    (hvariadic : variadic = true → ∃ front elem, params = front ++ [.slice elem])
    (hvariadic' : variadic' = true → ∃ front elem, params' = front ++ [.slice elem])
    (ih : ∀ t ∈ params, Determined chars shown (Proper basics) t) {rest rest' : List Char}
    (h : listed ',' (paramText · |>.toList) (paramItems variadic params) ++ ')' :: rest =
      listed ',' (paramText · |>.toList) (paramItems variadic' params') ++ ')' :: rest') :
    params.map shown = params'.map shown ∧ variadic = variadic' ∧ rest = rest' := by
  have hitem : ∀ item ∈ paramItems variadic params, Proper basics item.2 :=
    fun item hitem => (hp _ (ofItem_mem hitem)).of_ofItem
  have hitem' : ∀ item ∈ paramItems variadic' params', Proper basics item.2 :=
    fun item hitem => (hp' _ (ofItem_mem hitem)).of_ofItem
  have hdetermined : ∀ item ∈ paramItems variadic params,
      Determined (paramText · |>.toList) shownItem (Proper basics ·.2) item :=
    fun item hmem =>
      determined_param (hitem item hmem) (determined_of_ofItem (ih _ (ofItem_mem hmem)))
  obtain ⟨hitems, hrests⟩ := listed_inj (by decide) (by decide) (by decide)
    (fun _ => exists_cons_of_item) hdetermined hitem hitem' h
  refine ⟨?_, ?_, hrests⟩
  · rw [map_shown_params variadic, hitems, ← map_shown_params]
  · rw [← any_paramItems hvariadic, hitems, any_paramItems hvariadic']

theorem tuple_inj {ts us : List GoType} (hts : ∀ t ∈ ts, Proper basics t)
    (hus : ∀ u ∈ us, Proper basics u)
    (ih : ∀ t ∈ ts, Determined chars shown (Proper basics) t) {rest rest' : List Char}
    (h : (tuple ts).chars ++ rest = (tuple us).chars ++ rest') :
    ts.map shown = us.map shown ∧ rest = rest' := by
  simp only [chars_tuple, List.cons_append, List.append_assoc, List.nil_append, List.cons.injEq,
    true_and] at h
  exact listed_inj (by decide) (by decide) (by decide)
    (fun _ ht => exists_cons_ne (Proper.exists_cons ht) (by decide)) ih hts hus h

theorem resultChars_cons (t : GoType) (ts : List GoType) :
    ∃ cs, resultChars (t :: ts) = ' ' :: cs := by
  cases ts with
  | nil => exact ⟨_, rfl⟩
  | cons u ts => exact ⟨_, rfl⟩

/-- The results of a function are read off what follows its parameters. -/
theorem results_inj {ts us : List GoType} (hts : ∀ t ∈ ts, Proper basics t)
    (hus : ∀ u ∈ us, Proper basics u)
    (ih : ∀ t ∈ ts, Determined chars shown (Proper basics) t) {rest rest' : List Char}
    (hrest : Closes rest) (hrest' : Closes rest')
    (h : resultChars ts ++ rest = resultChars us ++ rest') :
    ts.map shown = us.map shown ∧ rest = rest' := by
  match ts, us with
  | [], [] => exact ⟨rfl, h⟩
  | [], u :: us =>
    obtain ⟨cs, hcs⟩ := resultChars_cons u us
    rw [hcs] at h
    rw [show rest = _ from h] at hrest
    exact absurd hrest (not_closes_blank _)
  | t :: ts, [] =>
    obtain ⟨cs, hcs⟩ := resultChars_cons t ts
    rw [hcs] at h
    rw [show rest' = _ from h.symm] at hrest'
    exact absurd hrest' (not_closes_blank _)
  | [t], [u] =>
    obtain ⟨hshown, hrests⟩ := ih t List.mem_cons_self u (hus u List.mem_cons_self) rest rest'
      hrest hrest' (List.cons.inj h).2
    exact ⟨congrArg ([·]) hshown, hrests⟩
  | [t], u :: u' :: us =>
    exact absurd (List.cons.inj h).2 ((hts t List.mem_cons_self).chars_append_ne_tuple _ _ _)
  | t :: t' :: ts, [u] =>
    exact absurd (List.cons.inj h).2.symm ((hus u List.mem_cons_self).chars_append_ne_tuple _ _ _)
  | t :: t' :: ts, u :: u' :: us => exact tuple_inj hts hus ih (List.cons.inj h).2

theorem determined_signature {params results : List GoType} {variadic : Bool}
    (h : Proper basics (.signature params results variadic))
    (hparams : ∀ t ∈ params, Determined chars shown (Proper basics) t)
    (hresults : ∀ t ∈ results, Determined chars shown (Proper basics) t) :
    Determined chars shown (Proper basics) (.signature params results variadic) := by
  intro u hu rest rest' hrest hrest' htext
  have hkind := h.shownKind_eq hu hrest hrest' htext
  cases h with
  | signature hp hr hvariadic =>
    cases hu with
    | @signature params' results' variadic' hp' hr' hvariadic' =>
      rw [chars_signature, chars_signature, toList_tailText hvariadic, toList_tailText hvariadic']
        at htext
      simp only [List.append_assoc, List.append_cancel_left_eq, List.cons_append,
        List.cons.injEq, true_and] at htext
      obtain ⟨hparams, rfl, htails⟩ := params_inj hp hp' hvariadic hvariadic' hparams htext
      obtain ⟨hresults, hrests⟩ := results_inj hr hr' hresults hrest hrest' htails
      refine ⟨?_, hrests⟩
      simp only [shown, shownAll_eq_map, hparams, hresults]
    | _ => cases hkind

/-! ## Structs and interfaces -/

theorem toList_fieldText_named (name : String) (t : GoType) :
    (fieldText (.mk name t false)).toList = name.toList ++ ' ' :: t.chars := by
  simp [fieldText, Field.embedded, Field.name, Field.type, chars]

theorem toList_fieldText_embedded (name : String) (t : GoType) :
    (fieldText (.mk name t true)).toList = t.chars := rfl

/-- What is asked of a field. -/
def ProperField (basics : Set String) (f : Field) : Prop :=
  (f.embedded = false → IsIdentifier f.name) ∧ Proper basics f.type

/-- What is asked of what an interface declares or embeds. -/
def ProperMember (basics : Set String) : Method ⊕ GoType → Prop
  | .inl m => IsIdentifier m.name ∧ m.type.kind = .signature ∧ Proper basics m.type
  | .inr t => Proper basics t

theorem determined_field {f : Field} (hf : ProperField basics f)
    (ih : Determined chars shown (Proper basics) f.type) :
    Determined (fieldText · |>.toList) Field.shown (ProperField basics) f := by
  obtain ⟨name, t, embedded⟩ := f
  rintro ⟨name', u, embedded'⟩ hf' rest rest' hrest hrest' h
  cases embedded <;> cases embedded' <;>
    simp only [toList_fieldText_named, toList_fieldText_embedded, List.append_assoc,
      List.cons_append] at h
  · obtain ⟨hnames, htypes⟩ := append_inj_of_stops (hf.1 rfl).isWordChar (hf'.1 rfl).isWordChar
      (stops_cons (by decide) _) (stops_cons (by decide) _) h
    obtain ⟨hshown, hrests⟩ := ih u hf'.2 rest rest' hrest hrest' (List.cons.inj htypes).2
    obtain rfl : name = name' := String.toList_inj.mp hnames
    exact ⟨congrArg (Field.mk name · false) hshown, hrests⟩
  · exact absurd h (Proper.name_append_ne hf'.2 (hf.1 rfl) (by decide) (by decide) _ hrest')
  · exact absurd h.symm (Proper.name_append_ne hf.2 (hf'.1 rfl) (by decide) (by decide) _ hrest)
  · obtain ⟨hshown, hrests⟩ := ih u hf'.2 rest rest' hrest hrest' h
    exact ⟨congrArg (Field.mk "" · true) hshown, hrests⟩

theorem exists_cons_of_properField {f : Field} (h : ProperField basics f) :
    ∃ c cs, (fieldText f).toList = c :: cs ∧ isStart c = true := by
  obtain ⟨name, t, embedded⟩ := f
  cases embedded with
  | false =>
    obtain ⟨c, cs, hname, hc⟩ := exists_cons_of_isIdentifier (h.1 rfl)
    have hname : name.toList = c :: cs := hname
    exact ⟨c, _, by rw [toList_fieldText_named, hname]; rfl, hc⟩
  | true => exact h.2.exists_cons

theorem determined_struct {fields : List Field} (h : ∀ f ∈ fields, ProperField basics f)
    (ih : ∀ f ∈ fields, Determined chars shown (Proper basics) f.type) :
    Determined chars shown (Proper basics) (.struct fields) := by
  intro u hu rest rest' hrest hrest' htext
  have hproper : Proper basics (.struct fields) := .struct (fun f hf => (h f hf).1)
    (fun f hf => (h f hf).2)
  have hkind := hproper.shownKind_eq hu hrest hrest' htext
  cases hu with
  | @struct fields' hnames' htypes' =>
    simp only [chars_struct, List.append_assoc, List.append_cancel_left_eq, List.cons_append,
      List.nil_append] at htext
    obtain ⟨hfields, hrests⟩ := listed_inj (by decide) (by decide) (by decide)
      (fun _ hf => exists_cons_ne (exists_cons_of_properField hf) (by decide))
      (fun f hf => determined_field (h f hf) (ih f hf)) h
      (fun f hf => ⟨hnames' f hf, htypes' f hf⟩) htext
    refine ⟨?_, hrests⟩
    rw [shown, shown, shownFields_eq_map, shownFields_eq_map, hfields]
  | _ => cases hkind

theorem exists_cons_of_tailText (t : GoType) : ∃ cs, t.tailText.toList = '(' :: cs :=
  ⟨_, toList_signatureText _ _⟩

theorem toList_memberText_method (m : Method) :
    (memberText (.inl m)).toList = m.name.toList ++ m.type.tailText.toList :=
  String.toList_append

theorem chars_of_kind_eq (h : t.kind = .signature) :
    t.chars = "func".toList ++ t.tailText.toList := by
  cases t with
  | signature => exact chars_signature _ _ _
  | _ => cases h

/-- What the text of an interface shows of what it declares or embeds. -/
def shownMember : Method ⊕ GoType → Method ⊕ GoType := Sum.map Method.shown shown

/-- What an interface declares is read as a function with the name in place of the keyword. -/
theorem determined_method {m : Method} (hm : ProperMember basics (.inl m))
    (ih : Determined chars shown (Proper basics) m.type) :
    Determined (memberText · |>.toList) shownMember (ProperMember basics) (.inl m) := by
  intro member hmember rest rest' hrest hrest' h
  obtain ⟨cs, htail⟩ := exists_cons_of_tailText m.type
  cases member with
  | inl m' =>
    obtain ⟨cs', htail'⟩ := exists_cons_of_tailText m'.type
    simp only [toList_memberText_method, htail, htail', List.append_assoc, List.cons_append] at h
    obtain ⟨hnames, htails⟩ := append_inj_of_stops hm.1.isWordChar hmember.1.isWordChar
      (stops_cons (by decide) _) (stops_cons (by decide) _) h
    have htypes : m.type.chars ++ rest = m'.type.chars ++ rest' := by
      rw [chars_of_kind_eq hm.2.1, chars_of_kind_eq hmember.2.1, htail, htail']
      exact congrArg ("func".toList ++ ·) htails
    obtain ⟨hshown, hrests⟩ := ih _ hmember.2.2 rest rest' hrest hrest' htypes
    refine ⟨congrArg Sum.inl ?_, hrests⟩
    rw [Method.shown, Method.shown, String.toList_inj.mp hnames, hshown]
  | inr u =>
    simp only [toList_memberText_method, htail, List.append_assoc, List.cons_append] at h
    exact absurd h (Proper.name_append_ne hmember hm.1 (by decide) (by decide) _ hrest')

theorem determined_embedded (ht : Proper basics t) (ih : Determined chars shown (Proper basics) t) :
    Determined (memberText · |>.toList) shownMember (ProperMember basics) (.inr t) := by
  intro member hmember rest rest' hrest hrest' h
  cases member with
  | inl m =>
    obtain ⟨cs, htail⟩ := exists_cons_of_tailText m.type
    simp only [toList_memberText_method, htail, List.append_assoc, List.cons_append] at h
    exact absurd h.symm (ht.name_append_ne hmember.1 (by decide) (by decide) _ hrest)
  | inr u =>
    obtain ⟨hshown, hrests⟩ := ih u hmember rest rest' hrest hrest' h
    exact ⟨congrArg Sum.inr hshown, hrests⟩

theorem exists_cons_of_properMember {member : Method ⊕ GoType} (h : ProperMember basics member) :
    ∃ c cs, (memberText member).toList = c :: cs ∧ isStart c = true := by
  cases member with
  | inl m =>
    obtain ⟨c, cs, hname, hc⟩ := exists_cons_of_isIdentifier h.1
    exact ⟨c, _, by rw [toList_memberText_method, hname]; rfl, hc⟩
  | inr t => exact Proper.exists_cons h

theorem map_members (f : Method → Method) (g : GoType → GoType) (methods : List Method)
    (embedded : List GoType) :
    (members methods embedded).map (Sum.map f g) = members (methods.map f) (embedded.map g) := by
  simp [members, Function.comp_def]

theorem members_inj {methods methods' : List Method} {embedded embedded' : List GoType}
    (h : members methods embedded = members methods' embedded') :
    methods = methods' ∧ embedded = embedded' := by
  have hleft : ∀ ms ts, (members ms ts).filterMap Sum.getLeft? = ms := by
    intro ms ts
    simp [members, Function.comp_def]
  have hright : ∀ ms ts, (members ms ts).filterMap Sum.getRight? = ts := by
    intro ms ts
    simp [members, Function.comp_def]
  exact ⟨by rw [← hleft methods embedded, h, hleft], by rw [← hright methods embedded, h, hright]⟩

theorem properMember_of_mem {methods : List Method} {embedded : List GoType}
    (h : Proper basics (.interface methods embedded)) {member : Method ⊕ GoType}
    (hmember : member ∈ members methods embedded) : ProperMember basics member := by
  cases h with
  | interface hnames hkinds htypes hembedded =>
    rcases List.mem_append.mp hmember with hmethod | hembed
    · obtain ⟨m, hm, rfl⟩ := List.mem_map.mp hmethod
      exact ⟨hnames m hm, hkinds m hm, htypes m hm⟩
    · obtain ⟨t, ht, rfl⟩ := List.mem_map.mp hembed
      exact hembedded t ht

theorem determined_interface {methods : List Method} {embedded : List GoType}
    (h : Proper basics (.interface methods embedded))
    (ihm : ∀ m ∈ methods, Determined chars shown (Proper basics) m.type)
    (ihe : ∀ t ∈ embedded, Determined chars shown (Proper basics) t) :
    Determined chars shown (Proper basics) (.interface methods embedded) := by
  intro u hu rest rest' hrest hrest' htext
  have hkind := h.shownKind_eq hu hrest hrest' htext
  have hmembers : ∀ member ∈ members methods embedded,
      Determined (memberText · |>.toList) shownMember (ProperMember basics) member := by
    intro member hmember
    have hproper := properMember_of_mem h hmember
    rcases List.mem_append.mp hmember with hmethod | hembed
    · obtain ⟨m, hm, rfl⟩ := List.mem_map.mp hmethod
      exact determined_method hproper (ihm m hm)
    · obtain ⟨t, ht, rfl⟩ := List.mem_map.mp hembed
      exact determined_embedded hproper (ihe t ht)
  cases u with
  | interface methods' embedded' =>
    simp only [chars_interface, List.append_assoc, List.append_cancel_left_eq, List.cons_append,
      List.nil_append] at htext
    obtain ⟨hshown, hrests⟩ := listed_inj (by decide) (by decide) (by decide)
      (fun _ hmember => exists_cons_ne (exists_cons_of_properMember hmember) (by decide))
      hmembers (fun _ => properMember_of_mem h) (fun _ => properMember_of_mem hu) htext
    simp only [shownMember, map_members] at hshown
    obtain ⟨hmethods, hembedded⟩ := members_inj hshown
    refine ⟨?_, hrests⟩
    simp only [shown, shownMethods_eq_map, shownAll_eq_map, hmethods, hembedded]
  | basic => cases hu; cases hkind
  | _ => cases hkind

/-! ## Reading a type -/

/-- A name is read to its end. -/
theorem determined_name (ht : Proper basics t) (hkindt : t.shownKind = .named) :
    Determined chars shown (Proper basics) t := by
  intro u hu rest rest' hrest hrest' htext
  have hkindu := (ht.shownKind_eq hu hrest hrest' htext).symm.trans hkindt
  obtain ⟨hchars, hrests⟩ := append_inj_of_stops (ht.word hkindt).2.1 (hu.word hkindu).2.1
    hrest.isWordChar hrest'.isWordChar htext
  have htexts : t.text = u.text := String.toList_inj.mp hchars
  exact ⟨congrArg shown (ht.eq_of_text_eq hu hkindt hkindu htexts), hrests⟩

/-- A type that is written as another one with something fixed in front. -/
theorem determined_of_front {outer : GoType → GoType} {front : List Char}
    (hchars : ∀ t, (outer t).chars = front ++ t.chars)
    (hshown : ∀ t, (outer t).shown = outer t.shown)
    (houter : ∀ u, Proper basics u → (outer t).shownKind = u.shownKind →
      ∃ elem, u = outer elem ∧ Proper basics elem)
    (ht : Proper basics (outer t)) (ih : Determined chars shown (Proper basics) t) :
    Determined chars shown (Proper basics) (outer t) := by
  intro u hu rest rest' hrest hrest' htext
  obtain ⟨elem, rfl, helem⟩ := houter u hu (ht.shownKind_eq hu hrest hrest' htext)
  rw [hchars, hchars, List.append_assoc, List.append_assoc, List.append_cancel_left_eq] at htext
  obtain ⟨helems, hrests⟩ := ih elem helem rest rest' hrest hrest' htext
  exact ⟨by rw [hshown, hshown, helems], hrests⟩

/-- A type is read off the start of a text, up to the names of embedded fields. -/
theorem Proper.determined (h : Proper basics t) : Determined chars shown (Proper basics) t := by
  -- What follows a part is a bracket, a separator or what follows the whole type, so it closes the
  -- part, and the hypothesis for the part holds with it.
  induction h with
  | basic hname hbasic => exact determined_name (.basic hname hbasic) rfl
  | predeclared hname hnot => exact determined_name (.predeclared hname hnot) rfl
  | named hpkg hname => exact determined_name (.named hpkg hname) rfl
  | pointer helem ih =>
    refine determined_of_front chars_pointer (fun _ => by rw [shown]) (fun u hu hkind => ?_)
      (.pointer helem) ih
    cases hu with
    | pointer helem' => exact ⟨_, rfl, helem'⟩
    | _ => cases hkind
  | slice helem ih =>
    refine determined_of_front chars_slice (fun _ => by rw [shown]) (fun u hu hkind => ?_)
      (.slice helem) ih
    cases hu with
    | slice helem' => exact ⟨_, rfl, helem'⟩
    | _ => cases hkind
  | @array length elem helem ih =>
    intro u hu rest rest' hrest hrest' htext
    have hproper : Proper basics (.array length elem) := .array helem
    have hkind := hproper.shownKind_eq hu hrest hrest' htext
    cases hu with
    | @array length' _ helem' =>
      simp only [chars_array, List.cons_append, List.append_assoc, List.cons.injEq,
        true_and] at htext
      obtain ⟨hlengths, htails⟩ := append_inj_of_stops (p := (· != ']'))
        (fun _ => ne_of_mem_repr) (fun _ => ne_of_mem_repr) (stops_cons rfl _) (stops_cons rfl _)
        htext
      obtain rfl : length = length' := eq_of_repr_toList_eq hlengths
      obtain ⟨hshown, hrests⟩ := ih _ helem' rest rest' hrest hrest' (List.cons.inj htails).2
      exact ⟨congrArg (GoType.array length) hshown, hrests⟩
    | _ => cases hkind
  | @map key value hkey hvalue ihkey ihvalue =>
    intro u hu rest rest' hrest hrest' htext
    have hkind := (Proper.map hkey hvalue).shownKind_eq hu hrest hrest' htext
    cases hu with
    | @map key' value' hkey' hvalue' =>
      simp only [chars_map, List.append_assoc, List.append_cancel_left_eq,
        List.cons_append] at htext
      obtain ⟨hkeys, htails⟩ := ihkey _ hkey' _ _ (closes_cons (by decide) _)
        (closes_cons (by decide) _) htext
      obtain ⟨hvalues, hrests⟩ := ihvalue _ hvalue' rest rest' hrest hrest'
        (List.cons.inj htails).2
      exact ⟨congrArg₂ GoType.map hkeys hvalues, hrests⟩
    | _ => cases hkind
  | chan helem ih =>
    refine determined_of_front chars_chan (fun _ => by rw [shown]) (fun u hu hkind => ?_)
      (.chan helem) ih
    cases hu with
    | chan helem' => exact ⟨_, rfl, helem'⟩
    | _ => cases hkind
  | struct hnames htypes ih => exact determined_struct (fun f hf => ⟨hnames f hf, htypes f hf⟩) ih
  | interface hnames hkinds htypes hembedded ihm ihe =>
    exact determined_interface (.interface hnames hkinds htypes hembedded) ihm ihe
  | signature hp hr hvariadic ihp ihr =>
    exact determined_signature (.signature hp hr hvariadic) ihp ihr

/-! ## Equal texts -/

/-- A type that is told apart from others by its text, or a tuple of such types. -/
inductive ProperOrTuple (basics : Set String) : GoType → Prop
  | proper {t : GoType} (h : Proper basics t) : ProperOrTuple basics t
  | tuple {ts : List GoType} (h : ∀ t ∈ ts, Proper basics t) : ProperOrTuple basics (.tuple ts)

/-- Types have one text only if they are the same type, up to the names of embedded fields, which
are those of their types. -/
theorem text_eq_text_iff (ht : ProperOrTuple basics t) (hu : ProperOrTuple basics u) :
    t.text = u.text ↔ t.shown = u.shown := by
  constructor
  · intro htext
    have hchars : t.chars ++ [] = u.chars ++ [] := by rw [chars, htext, chars]
    cases ht with
    | proper ht =>
      cases hu with
      | proper hu => exact (ht.determined u hu [] [] closes_nil closes_nil hchars).1
      | tuple => exact absurd hchars (ht.chars_append_ne_tuple _ _ _)
    | tuple hts =>
      cases hu with
      | proper hu => exact absurd hchars.symm (hu.chars_append_ne_tuple _ _ _)
      | tuple hus =>
        rw [shown, shown, shownAll_eq_map, shownAll_eq_map,
          (tuple_inj hts hus (fun t ht => (hts t ht).determined) hchars).1]
  · intro hshown
    rw [← text_shown t, hshown, text_shown u]

/-- A function of any number of arguments is told apart from one of a slice. -/
theorem text_variadic_ne :
    (GoType.signature [.named ⟨some "io", "Writer"⟩, .slice (.basic "int")] [.error] true).text ≠
      (GoType.signature [.named ⟨some "io", "Writer"⟩, .slice (.basic "int")] [.error]
        false).text := by
  have hproper : ∀ variadic, Proper {"int"} (.signature
      [.named ⟨some "io", "Writer"⟩, .slice (.basic "int")] [.error] variadic) := by
    intro variadic
    have hint : Proper {"int"} (.basic "int") := .basic (by decide) rfl
    have hwriter : Proper {"int"} (.named ⟨some "io", "Writer"⟩) :=
      .named (by decide) (by decide)
    have herror : Proper {"int"} .error := .predeclared (by decide) (by simp)
    refine .signature ?_ ?_ fun _ => ⟨[.named ⟨some "io", "Writer"⟩], .basic "int", rfl⟩
    · simp only [List.mem_cons, List.not_mem_nil, or_false, forall_eq_or_imp, forall_eq]
      exact ⟨hwriter, .slice hint⟩
    · simpa using herror
  intro htext
  have hshown := (text_eq_text_iff (.proper (hproper true)) (.proper (hproper false))).mp htext
  exact absurd (congrArg variadic hshown) (by decide)

end GoType

end UncheckedErrors
