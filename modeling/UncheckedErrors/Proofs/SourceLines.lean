import UncheckedErrors.Proofs.Places.Positions

/-!
# Positions and lines of a source text

A source text is looked at as bytes, for its positions, and as characters, for its lines. The two
views agree (`SourceFile.positions_and_lines`): a byte 0x0A is a line feed wherever it stands, so
the bytes between two entries of the table of line starts encode a whole line.

A larger offset comes later in the order of lines and columns, since each byte leads to a later
place, and every offset of the text is on one of its lines.
-/

namespace UncheckedErrors

/-- The first position is on an earlier line, or on the same line in an earlier column. -/
def Position.IsBefore (p q : Position) : Prop :=
  p.line < q.line ∨ p.line = q.line ∧ p.column < q.column

namespace SourceFile

/-- The lines of a text: what stands between its line feeds. -/
def lines (file : SourceFile) : List String := Text.splitOnChar '\n' file.text

theorem lines_eq (file : SourceFile) : file.lines = file.segments.map String.ofList := rfl

theorem length_lines (file : SourceFile) :
    file.lines.length = 1 + file.bytes.count lineFeed := by
  rw [lines_eq, List.length_map, ← length_lineStarts_bytes, length_lineStarts]

/-- Line and column count from 1 what a place counts from 0. -/
theorem position_eq_place (file : SourceFile) {offset : Nat} (h : offset ≤ file.size) :
    (file.position offset).line = 1 + ((placeAfter (0, 0) (file.bytes.take offset)).1 : Int) ∧
      (file.position offset).column =
        ((placeAfter (0, 0) (file.bytes.take offset)).2 : Int) + 1 := by
  have hlength : (file.bytes.take offset).length = offset := by
    rw [List.length_take, length_bytes, Nat.min_eq_left h]
  have hstart := lineStart_take_le file.bytes offset
  rw [position_eq file h, placeAfter_start, hlength, Nat.zero_add]
  refine ⟨rfl, ?_⟩
  show (offset : Int) - lineStart (file.bytes.take offset) + 1 =
    ((offset - lineStart (file.bytes.take offset) : Nat) : Int) + 1
  omega

/-- A larger offset has a later line, or a later column on the same line. -/
theorem isBefore_of_lt {file : SourceFile} {offset later : Int} (hoffset : file.Inside offset)
    (hlater : file.Inside later) (hlt : offset < later) :
    (file.position offset).IsBefore (file.position later) := by
  obtain ⟨m, rfl⟩ := Int.eq_ofNat_of_zero_le hoffset.1
  obtain ⟨n, rfl⟩ := Int.eq_ofNat_of_zero_le hlater.1
  have hm : m ≤ file.size := Int.ofNat_le.mp hoffset.2
  have hn : n ≤ file.size := Int.ofNat_le.mp hlater.2
  have hplace := strictMonoOn_placeAfter_take file.bytes (0, 0)
    (by rwa [Set.mem_Iic, length_bytes]) (by rwa [Set.mem_Iic, length_bytes])
    (Int.ofNat_lt.mp hlt)
  obtain ⟨hline, hcolumn⟩ := file.position_eq_place hm
  obtain ⟨hline', hcolumn'⟩ := file.position_eq_place hn
  rw [Position.IsBefore, hline, hcolumn, hline', hcolumn']
  simp only [Prod.Lex.toLex_lt_toLex] at hplace
  omega

/-- A line is found by its number. -/
theorem lineText_of_lines (file : SourceFile) {k : Nat} (hk : k < file.lines.length) :
    file.lineText (k + 1) = Text.strip file.lines[k] := by
  have hsegment : k < file.segments.length := by rwa [lines_eq, List.length_map] at hk
  have hnumber : ((k : Int) + 1).toNat - 1 = k := by omega
  rw [lineText, if_neg (by omega), hnumber, List.getElem?_eq_getElem hsegment]
  simp only [lines_eq, List.getElem_map, Text.strip, String.toList_ofList]

/-- Every offset of a text is on one of its lines. -/
theorem exists_line_of_inside {file : SourceFile} {offset : Int} (h : file.Inside offset) :
    ∃ k < file.lines.length, (file.position offset).line = k + 1 := by
  have hcount : (file.bytes.take offset.toNat).count lineFeed ≤ file.bytes.count lineFeed :=
    (List.take_sublist _ _).count_le _
  refine ⟨(file.bytes.take offset.toNat).count lineFeed, ?_, ?_⟩
  · rw [length_lines]
    omega
  · rw [position_of_inside h]
    exact Int.add_comm _ _

/-- The position of an offset is told by the bytes in front of it: the line by the line feeds among
them, the column by the bytes since the last one. Larger offsets have later positions. The lines of
the text are found by their numbers, and every position of the text is on one of them. All this is
so although positions and lines are looked up in a table of bytes: no lookup misses the table, and
the bytes of a line always decode. -/
theorem positions_and_lines (file : SourceFile) :
    (∀ offset : Nat, offset ≤ file.size →
      file.position offset = .ofBytes file.name file.bytes offset) ∧
    (∀ offset later, file.Inside offset → file.Inside later → offset < later →
      (file.position offset).IsBefore (file.position later)) ∧
    (∀ (k : Nat) (hk : k < file.lines.length),
      file.lineText (k + 1) = Text.strip file.lines[k]) ∧
    (∀ offset, file.Inside offset →
      ∃ k < file.lines.length, (file.position offset).line = k + 1) ∧
    (∀ offset, Places.position file offset = some (file.position offset)) ∧
    ∀ line, Places.lineText file line = some (file.lineText line) := by
  refine ⟨?_, ?_, ?_, ?_, ?_, ?_⟩
  · intro offset hoffset
    exact file.position_eq hoffset
  · intro offset later hoffset hlater hlt
    exact isBefore_of_lt hoffset hlater hlt
  · intro k hk
    exact file.lineText_of_lines hk
  · intro offset hoffset
    exact exists_line_of_inside hoffset
  · intro offset
    exact Places.position_eq file offset
  · intro line
    exact Places.lineText_eq file line

/-- The call behind a line with a character of two bytes. -/
theorem position_behind_wide_character :
    4 ≤ SourceFile.size ⟨"p.go", "é\n\tg()\n"⟩ ∧
      SourceFile.position ⟨"p.go", "é\n\tg()\n"⟩ 4 = ⟨"p.go", 2, 2, 4⟩ := by
  have hinside : 4 ≤ SourceFile.size ⟨"p.go", "é\n\tg()\n"⟩ := by decide
  refine ⟨hinside, ?_⟩
  rw [show (4 : Int) = (4 : Nat) from rfl, (positions_and_lines _).1 4 hinside]
  decide

end SourceFile

end UncheckedErrors
