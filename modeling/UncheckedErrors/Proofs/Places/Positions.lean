import UncheckedErrors.Proofs.LineBreaks
import UncheckedErrors.Proofs.Pieces
import UncheckedErrors.Proofs.Places.Access

/-!
# Positions by places

The position of an offset and the text of a line, looked up in a table of the offsets at which the
lines start. `Places.position_eq` and `Places.lineText_eq` say that the lookups stay within the
table, and that no line is cut through a character.

The table up to an offset is the table of the bytes in front of the offset
(`takeWhile_lineStarts`), whose last entry is where the line of the offset starts. The lines
themselves are the pieces between line feeds; `exists_piece` finds a piece by the entries of the
table on both sides of it.
-/

namespace UncheckedErrors

/-! ## Where lines start -/

/-- The offsets behind the line feeds among some bytes that start at `pos`. -/
def lineStartsFrom (pos : Nat) : List UInt8 → List Nat
  | [] => []
  | byte :: bytes =>
    if byte = lineFeed then (pos + 1) :: lineStartsFrom (pos + 1) bytes
    else lineStartsFrom (pos + 1) bytes

/-- The offsets at which the lines of some bytes start. -/
def lineStarts (bytes : List UInt8) : List Nat := 0 :: lineStartsFrom 0 bytes

theorem lineStartsFrom_append (pos : Nat) (xs ys : List UInt8) :
    lineStartsFrom pos (xs ++ ys) =
      lineStartsFrom pos xs ++ lineStartsFrom (pos + xs.length) ys := by
  induction xs generalizing pos with
  | nil => rfl
  | cons byte xs ih =>
    simp only [List.cons_append, lineStartsFrom, ih, List.length_cons, Nat.add_assoc,
      Nat.add_comm 1]
    split <;> rfl

theorem lineStartsFrom_of_notMem {bytes : List UInt8} (h : lineFeed ∉ bytes) (pos : Nat) :
    lineStartsFrom pos bytes = [] := by
  induction bytes generalizing pos with
  | nil => rfl
  | cons byte bytes ih =>
    rw [List.mem_cons, not_or] at h
    rw [lineStartsFrom, if_neg (Ne.symm h.1), ih h.2]

theorem length_lineStartsFrom (pos : Nat) (bytes : List UInt8) :
    (lineStartsFrom pos bytes).length = bytes.count lineFeed := by
  induction bytes generalizing pos with
  | nil => rfl
  | cons byte bytes ih =>
    rw [lineStartsFrom, List.count_cons]
    split
    · rename_i h
      rw [List.length_cons, ih, if_pos (by simpa using h)]
    · rename_i h
      rw [ih, if_neg (by simpa using h), Nat.add_zero]

theorem length_lineStarts (bytes : List UInt8) :
    (lineStarts bytes).length = 1 + bytes.count lineFeed := by
  rw [lineStarts, List.length_cons, length_lineStartsFrom, Nat.add_comm]

theorem lt_of_mem_lineStartsFrom {bytes : List UInt8} {pos start : Nat}
    (h : start ∈ lineStartsFrom pos bytes) : pos < start := by
  induction bytes generalizing pos with
  | nil => cases h
  | cons byte bytes ih =>
    rw [lineStartsFrom] at h
    split at h
    · rcases List.mem_cons.mp h with rfl | h
      · exact Nat.lt_succ_self pos
      · exact Nat.lt_of_succ_lt (ih h)
    · exact Nat.lt_of_succ_lt (ih h)

theorem takeWhile_lineStartsFrom (pos n : Nat) (bytes : List UInt8) :
    (lineStartsFrom pos bytes).takeWhile (· ≤ pos + n) = lineStartsFrom pos (bytes.take n) := by
  induction bytes generalizing pos n with
  | nil => rw [List.take_nil]; rfl
  | cons byte bytes ih =>
    cases n with
    | zero =>
      refine List.takeWhile_eq_nil_iff.mpr fun hpos => ?_
      simpa using lt_of_mem_lineStartsFrom (List.getElem_mem hpos)
    | succ n =>
      have hih := ih (pos + 1) n
      rw [Nat.add_assoc, Nat.add_comm 1] at hih
      rw [List.take_succ_cons, lineStartsFrom, lineStartsFrom]
      split
      · rw [List.takeWhile_cons_of_pos (by simp), hih]
      · exact hih

/-- The lines that start up to an offset are those of the bytes in front of it. -/
theorem takeWhile_lineStarts (n : Nat) (bytes : List UInt8) :
    (lineStarts bytes).takeWhile (· ≤ n) = lineStarts (bytes.take n) := by
  have h := takeWhile_lineStartsFrom 0 n bytes
  rw [Nat.zero_add] at h
  rw [lineStarts, List.takeWhile_cons_of_pos (by simp), h, lineStarts]

/-- The last line starts behind the last line feed. -/
theorem getLast?_lineStarts (bytes : List UInt8) :
    (lineStarts bytes).getLast? = some (lineStart bytes) := by
  induction bytes using List.reverseRecOn with
  | nil => rfl
  | append_singleton bytes byte ih =>
    rw [lineStarts, lineStartsFrom_append, ← List.cons_append, ← lineStarts, Nat.zero_add]
    by_cases hbyte : byte = lineFeed
    · rw [hbyte, lineStart_concat_lineFeed]
      exact List.getLast?_concat
    · rw [lineStart_concat_of_ne hbyte, lineStartsFrom_of_notMem (by simpa using Ne.symm hbyte),
        List.append_nil, ih]

/-! ## Lines -/

/-- Where pieces start that come one after the other from `pos` on, with a line feed between each
two of them. -/
def pieceStarts (pos : Nat) : List (List UInt8) → List Nat
  | [] => []
  | piece :: pieces => pos :: pieceStarts (pos + piece.length + 1) pieces

theorem cons_lineStartsFrom_intercalate {pieces : List (List UInt8)} (hne : pieces ≠ [])
    (h : ∀ piece ∈ pieces, lineFeed ∉ piece) (pos : Nat) :
    pos :: lineStartsFrom pos ([lineFeed].intercalate pieces) = pieceStarts pos pieces := by
  induction pieces generalizing pos with
  | nil => exact absurd rfl hne
  | cons piece pieces ih =>
    obtain ⟨hpiece, hpieces⟩ := List.forall_mem_cons.mp h
    cases pieces with
    | nil =>
      rw [List.intercalate_singleton, lineStartsFrom_of_notMem hpiece]
      rfl
    | cons next pieces =>
      rw [List.intercalate_cons_cons, List.append_assoc, lineStartsFrom_append,
        lineStartsFrom_of_notMem hpiece, List.nil_append, pieceStarts,
        ← ih (List.cons_ne_nil _ _) hpieces]
      rfl

theorem length_pieceStarts (pos : Nat) (pieces : List (List UInt8)) :
    (pieceStarts pos pieces).length = pieces.length := by
  induction pieces generalizing pos with
  | nil => rfl
  | cons piece pieces ih => rw [pieceStarts, List.length_cons, ih, List.length_cons]

/-- A piece lies between the entries of the table for it and for the next piece. -/
theorem exists_piece {pieces : List (List UInt8)} {k : Nat} (hk : k < pieces.length) (pos : Nat) :
    ∃ xs ys, [lineFeed].intercalate pieces = xs ++ pieces[k] ++ ys ∧
      (pieceStarts pos pieces)[k]? = some (pos + xs.length) ∧
      (k + 1 < pieces.length →
        (pieceStarts pos pieces)[k + 1]? = some (pos + xs.length + pieces[k].length + 1)) ∧
      (k + 1 = pieces.length → ys = []) := by
  induction pieces generalizing pos k with
  | nil => exact absurd hk (Nat.not_lt_zero k)
  | cons piece pieces ih =>
    cases pieces with
    | nil =>
      obtain rfl : k = 0 := by simpa using hk
      refine ⟨[], [], ?_, rfl, fun hnext => absurd hnext (by simp), fun _ => rfl⟩
      rw [List.intercalate_singleton]
      simp
    | cons next pieces =>
      rw [List.intercalate_cons_cons]
      cases k with
      | zero =>
        exact ⟨[], [lineFeed] ++ [lineFeed].intercalate (next :: pieces), by simp, rfl,
          fun _ => rfl, fun hend => absurd hend (by simp)⟩
      | succ k =>
        obtain ⟨xs, ys, hbytes, hstart, hnext, hend⟩ :=
          ih (Nat.lt_of_succ_lt_succ hk) (pos + piece.length + 1)
        have hlength : pos + (piece ++ [lineFeed] ++ xs).length =
            pos + piece.length + 1 + xs.length := by
          simp only [List.length_append, List.length_singleton]
          omega
        refine ⟨piece ++ [lineFeed] ++ xs, ys, ?_, ?_, fun hlt => ?_, fun heq => ?_⟩
        · rw [hbytes]
          simp
        · rw [hlength]
          exact hstart
        · rw [hlength]
          exact hnext (Nat.lt_of_succ_lt_succ hlt)
        · exact hend (Nat.succ.inj heq)

theorem encode_append (xs ys : List Char) : encode (xs ++ ys) = encode xs ++ encode ys :=
  List.flatMap_append

theorem encode_intercalate (pieces : List (List Char)) :
    encode (['\n'].intercalate pieces) = [lineFeed].intercalate (pieces.map encode) := by
  induction pieces with
  | nil => rfl
  | cons piece pieces ih =>
    cases pieces with
    | nil => simp [List.intercalate_singleton]
    | cons next pieces =>
      rw [List.intercalate_cons_cons, List.map_cons, List.map_cons, List.intercalate_cons_cons,
        encode_append, encode_append, ih]
      rfl

theorem lineFeed_notMem_encode {cs : List Char} (h : '\n' ∉ cs) : lineFeed ∉ encode cs := by
  intro hmem
  obtain ⟨c, hc, hbyte⟩ := List.mem_flatMap.mp hmem
  exact h (lineFeed_mem_utf8EncodeChar hbyte ▸ hc)

namespace SourceFile

/-- The lines of a file as bytes. -/
def pieces (file : SourceFile) : List (List UInt8) := file.segments.map encode

theorem bytes_eq_intercalate (file : SourceFile) :
    file.bytes = [lineFeed].intercalate file.pieces := by
  rw [pieces, ← encode_intercalate, segments, intercalate_splitAtChar, bytes]

theorem lineStarts_bytes (file : SourceFile) :
    lineStarts file.bytes = pieceStarts 0 file.pieces := by
  rw [lineStarts, bytes_eq_intercalate]
  refine cons_lineStartsFrom_intercalate ?_ (fun piece hpiece => ?_) 0
  · simpa [pieces, segments] using splitAtChar_ne_nil _ _
  · obtain ⟨segment, hsegment, rfl⟩ := List.mem_map.mp hpiece
    exact lineFeed_notMem_encode (notMem_of_mem_splitAtChar hsegment)

/-- The table has an entry for each line. -/
theorem length_lineStarts_bytes (file : SourceFile) :
    (lineStarts file.bytes).length = file.segments.length := by
  rw [lineStarts_bytes, length_pieceStarts, pieces, List.length_map]

end SourceFile

namespace Places

/-! ## Lookups -/

/-- The position of an offset. -/
def position (file : SourceFile) (offset : Int) : Option Position :=
  if offset < 0 ∨ file.bytes.length < offset then some { filename := file.name }
  else do
    let starts := lineStarts file.bytes
    let line : Int := (starts.takeWhile (· ≤ offset.toNat)).length
    let start ← entry starts (line - 1)
    return ⟨file.name, line, offset - start + 1, offset⟩

/-- The text that some bytes encode. -/
def decode (bytes : List UInt8) : Option String := String.fromUTF8? bytes.toByteArray

/-- Where a line stops: at the line feed in front of the next one, or at the end. -/
def lineStop (file : SourceFile) (line : Int) : Option Nat :=
  let starts := lineStarts file.bytes
  if line < starts.length then (entry starts line).map (· - 1) else some file.bytes.length

/-- The text of a line without the blanks around it. -/
def lineText (file : SourceFile) (line : Int) : Option String :=
  let starts := lineStarts file.bytes
  if line < 1 ∨ starts.length < line then some "??"
  else do
    let start ← entry starts (line - 1)
    let stop ← lineStop file line
    return Text.strip (← decode ((file.bytes.take stop).drop start))

/-- The last line that starts up to an offset is looked up within the table. -/
theorem entry_lineStarts (bytes : List UInt8) (n : Nat) :
    entry (lineStarts bytes) (((lineStarts (bytes.take n)).length : Int) - 1) =
      some (lineStart (bytes.take n)) := by
  have hsplit : lineStarts bytes =
      lineStarts (bytes.take n) ++ (lineStarts bytes).dropWhile (· ≤ n) := by
    rw [← takeWhile_lineStarts, List.takeWhile_append_dropWhile]
  have hlength := length_lineStarts (bytes.take n)
  have htoNat : (((lineStarts (bytes.take n)).length : Int) - 1).toNat =
      (lineStarts (bytes.take n)).length - 1 := by omega
  rw [entry_of_nonneg (by omega), htoNat, hsplit, List.getElem?_append_left (by omega),
    ← List.getLast?_eq_getElem?, getLast?_lineStarts]

/-- The position of an offset is found in every file. -/
@[simp] theorem position_eq (file : SourceFile) (offset : Int) :
    position file offset = some (file.position offset) := by
  by_cases h : file.Inside offset
  · obtain ⟨n, rfl⟩ := Int.eq_ofNat_of_zero_le h.1
    have hlength := file.length_bytes
    have hinside := h.2
    rw [position, if_neg (by omega), SourceFile.position_of_inside h]
    simp only [Position.ofBytes, Int.toNat_natCast, takeWhile_lineStarts, entry_lineStarts]
    rw [length_lineStarts]
    rfl
  · rw [SourceFile.position_of_not_inside h, position, if_pos]
    rw [SourceFile.Inside] at h
    rw [SourceFile.length_bytes]
    omega

theorem decode_encode (cs : List Char) : decode (encode cs) = some (String.ofList cs) := by
  have hbytes : (encode cs).toByteArray = (String.ofList cs).toByteArray :=
    String.toByteArray_ofList.symm
  rw [decode, hbytes]
  exact dif_pos (String.ofList cs).isValidUTF8

/-- The entries of the table for a line and for the next one enclose the line. -/
theorem exists_line (file : SourceFile) {k : Nat} (hk : k < file.segments.length) :
    ∃ start stop, entry (lineStarts file.bytes) k = some start ∧
      lineStop file (k + 1) = some stop ∧
      (file.bytes.take stop).drop start = encode file.segments[k] := by
  have hpieces : file.pieces.length = file.segments.length := List.length_map _
  have hlength := length_pieceStarts 0 file.pieces
  obtain ⟨xs, ys, hbytes, hstart, hnext, hlast⟩ := exists_piece (hk.trans_eq hpieces.symm) 0
  rw [← file.bytes_eq_intercalate] at hbytes
  rw [← file.lineStarts_bytes, Nat.zero_add] at hstart hnext
  rw [← file.lineStarts_bytes] at hlength
  refine ⟨xs.length, xs.length + file.pieces[k].length, ?_, ?_, ?_⟩
  · rw [entry_of_nonneg (Int.natCast_nonneg k), Int.toNat_natCast, hstart]
  · simp only [lineStop]
    by_cases hlt : k + 1 < file.pieces.length
    · rw [if_pos (by omega), entry_of_nonneg (by omega), show (k + 1 : Int).toNat = k + 1 by omega,
        hnext hlt]
      rfl
    · rw [if_neg (by omega), hbytes, hlast (by omega)]
      simp
  · rw [hbytes, ← List.length_append, List.take_left, List.drop_left]
    exact List.getElem_map _

/-- The text of a line is found in every file. -/
@[simp] theorem lineText_eq (file : SourceFile) (line : Int) :
    lineText file line = some (file.lineText line) := by
  have hlength := file.length_lineStarts_bytes
  unfold lineText SourceFile.lineText
  by_cases hline : line < 1
  · rw [if_pos (Or.inl hline), if_pos hline]
  · rw [if_neg hline]
    by_cases hend : (lineStarts file.bytes).length < line
    · rw [if_pos (Or.inr hend), List.getElem?_eq_none (by omega)]
    · obtain ⟨k, rfl⟩ : ∃ k : Nat, line = k + 1 := ⟨(line - 1).toNat, by omega⟩
      have hk : k < file.segments.length := by omega
      obtain ⟨start, stop, hstart, hstop, hslice⟩ := exists_line file hk
      rw [if_neg (by omega), show (k + 1 : Int) - 1 = k by omega, hstart, hstop,
        show (k + 1 : Int).toNat - 1 = k by omega, List.getElem?_eq_getElem hk]
      show (decode ((file.bytes.take stop).drop start) >>= fun text => some (Text.strip text)) = _
      rw [hslice, decode_encode]
      show some (Text.strip (String.ofList _)) = _
      rw [Text.strip, String.toList_ofList]

end Places

end UncheckedErrors
