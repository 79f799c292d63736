import Mathlib.Data.List.Basic
import UncheckedErrors.Text.Blank

/-!
# Pieces between separators

The pieces of a text are never none (`splitAtChar_ne_nil`), they hold no separator
(`notMem_of_mem_splitAtChar`), and with separators between them they are the text again
(`intercalate_splitAtChar`). A separator in the middle of a text parts its pieces
(`splitAtChar_append_cons`).
-/

namespace UncheckedErrors

theorem splitAtChar_ne_nil (p : Char → Bool) (cs : List Char) : Text.splitAtChar p cs ≠ [] := by
  cases cs with
  | nil => exact List.cons_ne_nil _ _
  | cons c cs =>
    unfold Text.splitAtChar
    split
    · exact List.cons_ne_nil _ _
    · split <;> exact List.cons_ne_nil _ _

/-- The pieces in front of a separator, and those behind it. -/
theorem splitAtChar_append_cons {p : Char → Bool} {c : Char} (hc : p c = true)
    (xs ys : List Char) :
    Text.splitAtChar p (xs ++ c :: ys) = Text.splitAtChar p xs ++ Text.splitAtChar p ys := by
  induction xs with
  | nil => simp [Text.splitAtChar, hc]
  | cons d xs ih =>
    rw [List.cons_append, Text.splitAtChar, Text.splitAtChar, ih]
    split
    · rfl
    · cases hpieces : Text.splitAtChar p xs with
      | nil => exact absurd hpieces (splitAtChar_ne_nil p xs)
      | cons piece rest => rfl

/-- A text without separator is one piece. -/
theorem splitAtChar_of_notMem {sep : Char} {cs : List Char} (h : sep ∉ cs) :
    Text.splitAtChar (· == sep) cs = [cs] := by
  induction cs with
  | nil => rfl
  | cons c cs ih =>
    rw [List.mem_cons, not_or] at h
    have hc : ¬ (c == sep) = true := by simpa using Ne.symm h.1
    rw [Text.splitAtChar, if_neg hc, ih h.2]

/-- Every character that is no separator is in a piece. -/
theorem exists_piece_of_mem {p : Char → Bool} {cs : List Char} {c : Char} (h : c ∈ cs)
    (hc : ¬ p c = true) : ∃ piece ∈ Text.splitAtChar p cs, c ∈ piece := by
  induction cs with
  | nil => cases h
  | cons d cs ih =>
    rw [Text.splitAtChar]
    rcases List.mem_cons.mp h with rfl | h
    · rw [if_neg hc]
      split
      · exact ⟨[c], List.mem_cons_self, List.mem_cons_self⟩
      · exact ⟨_, List.mem_cons_self, List.mem_cons_self⟩
    · obtain ⟨piece, hpiece, hmem⟩ := ih h
      split
      · exact ⟨piece, List.mem_cons_of_mem _ hpiece, hmem⟩
      · cases hpieces : Text.splitAtChar p cs with
        | nil => exact absurd hpieces (splitAtChar_ne_nil p cs)
        | cons first rest =>
          rw [hpieces] at hpiece
          rcases List.mem_cons.mp hpiece with rfl | hrest
          · exact ⟨d :: piece, List.mem_cons_self, List.mem_cons_of_mem _ hmem⟩
          · exact ⟨piece, List.mem_cons_of_mem _ hrest, hmem⟩

theorem intercalate_splitAtChar (sep : Char) (cs : List Char) :
    [sep].intercalate (Text.splitAtChar (· == sep) cs) = cs := by
  induction cs with
  | nil => rfl
  | cons c cs ih =>
    have hne := splitAtChar_ne_nil (· == sep) cs
    rw [Text.splitAtChar]
    split
    · rename_i h
      rw [List.intercalate_cons_of_ne_nil hne, ih, eq_of_beq h]
      rfl
    · cases hpieces : Text.splitAtChar (· == sep) cs with
      | nil => exact absurd hpieces hne
      | cons piece pieces =>
        rw [hpieces] at ih
        cases pieces with
        | nil => simpa [List.intercalate_singleton] using ih
        | cons next pieces =>
          rw [List.intercalate_cons_cons] at ih ⊢
          simpa using ih

theorem notMem_of_mem_splitAtChar {sep : Char} {cs piece : List Char}
    (h : piece ∈ Text.splitAtChar (· == sep) cs) : sep ∉ piece := by
  induction cs generalizing piece with
  | nil =>
    rw [Text.splitAtChar, List.mem_singleton] at h
    simp [h]
  | cons c cs ih =>
    rw [Text.splitAtChar] at h
    split at h
    · rcases List.mem_cons.mp h with rfl | h
      · exact List.not_mem_nil
      · exact ih h
    · rename_i hc
      cases hpieces : Text.splitAtChar (· == sep) cs with
      | nil => exact absurd hpieces (splitAtChar_ne_nil _ cs)
      | cons first pieces =>
        rw [hpieces] at h ih
        rcases List.mem_cons.mp h with rfl | h
        · rw [List.mem_cons, not_or]
          exact ⟨fun hsep => hc (by simp [hsep]), ih List.mem_cons_self⟩
        · exact ih (List.mem_cons_of_mem _ h)

/-- With a separator in front of each piece a text has one separator more, in front. -/
theorem flatMap_cons_splitAtChar (sep : Char) (cs : List Char) :
    (Text.splitAtChar (· == sep) cs).flatMap (sep :: ·) = sep :: cs := by
  induction cs with
  | nil => rfl
  | cons c cs ih =>
    rw [Text.splitAtChar]
    split
    · rename_i h
      rw [List.flatMap_cons, ih, eq_of_beq h]
      rfl
    · cases hpieces : Text.splitAtChar (· == sep) cs with
      | nil => exact absurd hpieces (splitAtChar_ne_nil _ cs)
      | cons piece pieces =>
        rw [hpieces, List.flatMap_cons, List.cons_append, List.cons.injEq] at ih
        rw [List.flatMap_cons, List.cons_append, List.cons_append, ih.2]

end UncheckedErrors
