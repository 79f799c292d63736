import Mathlib.Data.List.DropRight
import Mathlib.Data.Nat.SuccPred
import Mathlib.Data.Prod.Lex
import Mathlib.Order.Interval.Set.Monotone
import UncheckedErrors.Source

/-!
# Positions in encoded text

The position of an offset can be read off the bytes in front of it (`SourceFile.position_eq`): each
line feed opens a line, and the column counts the bytes since the last one.

A text is passed through byte by byte, and what is kept on the way is a place: the number of line
feeds so far, and the number of bytes since the last of them. Places are ordered by line feeds first
(`toLex`), and every byte leads to a later place (`placeAfter_take_lt`). So no two offsets of a file
share a line and a column (`SourceFile.position_eq_of_line_column`).
-/

namespace UncheckedErrors

/-- The byte that ends a line. -/
def lineFeed : UInt8 := 0x0A

/-- The byte that stands in front of a line feed, or for one, in some files. -/
def carriageReturn : UInt8 := 0x0D

/-- The offset at which the last line of the given bytes starts: behind the last line feed. -/
def lineStart (bytes : List UInt8) : Nat := (bytes.rdropWhile (· != lineFeed)).length

/-- The position of an offset in a file that has the given bytes. -/
def Position.ofBytes (name : String) (bytes : List UInt8) (offset : Nat) : Position :=
  let before := bytes.take offset
  ⟨name, 1 + before.count lineFeed, offset - lineStart before + 1, offset⟩

/-! ## Places -/

/-- The place behind a byte: line feeds so far, and bytes since the last one. -/
def placeNext (p : Nat × Nat) (byte : UInt8) : Nat × Nat :=
  if byte = lineFeed then (p.1 + 1, 0) else (p.1, p.2 + 1)

/-- The place behind some bytes that start at the place `p`. -/
def placeAfter (p : Nat × Nat) (bytes : List UInt8) : Nat × Nat := bytes.foldl placeNext p

@[simp] theorem placeNext_lineFeed (p : Nat × Nat) : placeNext p lineFeed = (p.1 + 1, 0) := rfl

theorem placeNext_of_ne {byte : UInt8} (h : byte ≠ lineFeed) (p : Nat × Nat) :
    placeNext p byte = (p.1, p.2 + 1) := if_neg h

@[simp] theorem placeAfter_nil (p : Nat × Nat) : placeAfter p [] = p := rfl

@[simp] theorem placeAfter_cons (p : Nat × Nat) (byte : UInt8) (bytes : List UInt8) :
    placeAfter p (byte :: bytes) = placeAfter (placeNext p byte) bytes := rfl

theorem placeAfter_append (p : Nat × Nat) (xs ys : List UInt8) :
    placeAfter p (xs ++ ys) = placeAfter (placeAfter p xs) ys := List.foldl_append

theorem placeAfter_of_notMem {bytes : List UInt8} (h : lineFeed ∉ bytes) (p : Nat × Nat) :
    placeAfter p bytes = (p.1, p.2 + bytes.length) := by
  induction bytes generalizing p with
  | nil => rfl
  | cons byte bytes ih =>
    rw [List.mem_cons, not_or] at h
    rw [placeAfter_cons, placeNext_of_ne (Ne.symm h.1), ih h.2, List.length_cons]
    simp only [Prod.mk.injEq, true_and]
    omega

theorem lineStart_le_length (bytes : List UInt8) : lineStart bytes ≤ bytes.length :=
  (List.rdropWhile_prefix _ _).length_le

theorem lineStart_take_le (bytes : List UInt8) (n : Nat) : lineStart (bytes.take n) ≤ n :=
  (lineStart_le_length _).trans (List.length_take_le n bytes)

theorem lineStart_concat_lineFeed (bytes : List UInt8) :
    lineStart (bytes ++ [lineFeed]) = bytes.length + 1 := by
  rw [lineStart, List.rdropWhile_concat_neg _ _ _ (by simp), List.length_append,
    List.length_singleton]

theorem lineStart_concat_of_ne {byte : UInt8} (h : byte ≠ lineFeed) (bytes : List UInt8) :
    lineStart (bytes ++ [byte]) = lineStart bytes := by
  rw [lineStart, List.rdropWhile_concat_pos _ _ _ (by simpa using h), lineStart]

/-- From the start of a line on, a place is what a position is made of. -/
theorem placeAfter_start (line : Nat) (bytes : List UInt8) :
    placeAfter (line, 0) bytes =
      (line + bytes.count lineFeed, bytes.length - lineStart bytes) := by
  induction bytes using List.reverseRecOn with
  | nil => rfl
  | append_singleton bytes byte ih =>
    rw [placeAfter_append, ih, placeAfter_cons, placeAfter_nil, List.count_append,
      List.length_append, List.length_singleton]
    by_cases hbyte : byte = lineFeed
    · rw [hbyte, lineStart_concat_lineFeed, placeNext_lineFeed, List.count_singleton_self,
        Nat.sub_self]
      rfl
    · have hle := lineStart_le_length bytes
      rw [placeNext_of_ne hbyte, lineStart_concat_of_ne hbyte, List.count_singleton,
        if_neg (by simpa using hbyte), Nat.sub_add_comm hle]
      rfl

theorem lt_placeNext (p : Nat × Nat) (byte : UInt8) : toLex p < toLex (placeNext p byte) := by
  rw [Prod.Lex.toLex_lt_toLex, placeNext]
  split <;> simp

theorem placeNext_mono {p q : Nat × Nat} (h : toLex p ≤ toLex q) (byte : UInt8) :
    toLex (placeNext p byte) ≤ toLex (placeNext q byte) := by
  rw [Prod.Lex.toLex_le_toLex] at h ⊢
  unfold placeNext
  split <;> dsimp only <;> omega

theorem placeAfter_mono {p q : Nat × Nat} (h : toLex p ≤ toLex q) (bytes : List UInt8) :
    toLex (placeAfter p bytes) ≤ toLex (placeAfter q bytes) := by
  induction bytes generalizing p q with
  | nil => exact h
  | cons byte bytes ih => exact ih (placeNext_mono h byte)

theorem placeAfter_fst (p : Nat × Nat) (bytes : List UInt8) :
    (placeAfter p bytes).1 = p.1 + bytes.count lineFeed := by
  induction bytes generalizing p with
  | nil => rfl
  | cons byte bytes ih =>
    rw [placeAfter_cons, ih, List.count_cons]
    by_cases hbyte : byte = lineFeed
    · rw [hbyte, placeNext_lineFeed, if_pos (by simp)]
      omega
    · rw [placeNext_of_ne hbyte, if_neg (by simpa using hbyte)]
      rfl

/-- Every further byte leads to a later place. -/
theorem placeAfter_take_lt {bytes : List UInt8} {n : Nat} (h : n < bytes.length) (p : Nat × Nat) :
    toLex (placeAfter p (bytes.take n)) < toLex (placeAfter p (bytes.take (n + 1))) := by
  rw [← List.take_concat_get h, List.concat_eq_append, placeAfter_append]
  exact lt_placeNext _ _

/-- A larger offset is at a later place. -/
theorem strictMonoOn_placeAfter_take (bytes : List UInt8) (p : Nat × Nat) :
    StrictMonoOn (fun n => toLex (placeAfter p (bytes.take n))) (Set.Iic bytes.length) :=
  strictMonoOn_Iic_of_lt_succ fun _ hn => placeAfter_take_lt hn p

/-- The line and the column of an offset tell the offset. -/
theorem Position.ofBytes_inj {name : String} {bytes : List UInt8} {m n : Nat}
    (hm : m ≤ bytes.length) (hn : n ≤ bytes.length)
    (hline : (ofBytes name bytes m).line = (ofBytes name bytes n).line)
    (hcolumn : (ofBytes name bytes m).column = (ofBytes name bytes n).column) : m = n := by
  refine (strictMonoOn_placeAfter_take bytes (0, 0)).injOn hm hn (congrArg toLex ?_)
  have hmle := lineStart_take_le bytes m
  have hnle := lineStart_take_le bytes n
  simp only [Position.ofBytes] at hline hcolumn
  simp only [placeAfter_start, List.length_take, Prod.mk.injEq]
  omega

/-- Two files give an offset one position if and only if the bytes in front of it lead to one
place. -/
theorem Position.ofBytes_eq_iff {name : String} {xs ys : List UInt8} {offset : Nat}
    (hxs : offset ≤ xs.length) (hys : offset ≤ ys.length) :
    Position.ofBytes name xs offset = .ofBytes name ys offset ↔
      placeAfter (0, 0) (xs.take offset) = placeAfter (0, 0) (ys.take offset) := by
  have hx := lineStart_take_le xs offset
  have hy := lineStart_take_le ys offset
  rw [placeAfter_start, placeAfter_start, List.length_take, List.length_take, Nat.min_eq_left hxs,
    Nat.min_eq_left hys]
  simp only [Position.ofBytes, Position.mk.injEq, Prod.mk.injEq, true_and, and_true]
  omega

/-! ## Characters and their bytes -/

/-- The bytes that encode some characters. -/
def encode (cs : List Char) : List UInt8 := cs.flatMap String.utf8EncodeChar

@[simp] theorem encode_cons (c : Char) (cs : List Char) :
    encode (c :: cs) = String.utf8EncodeChar c ++ encode cs := rfl

/-- A byte below 128 stands for a character of its own. -/
theorem val_eq_of_mem_utf8EncodeChar {c : Char} {byte : UInt8}
    (h : byte ∈ String.utf8EncodeChar c) (hbyte : byte.toNat < 128) :
    c.val.toNat = byte.toNat := by
  unfold String.utf8EncodeChar at h
  dsimp only at h
  split at h
  · rw [List.mem_singleton] at h
    rw [h, UInt8.toNat_ofNat']
    omega
  · -- all bytes of a longer encoding are above 127
    exfalso
    have habove : ∀ n, 128 ≤ n → n < 256 → UInt8.ofNat n = byte → False := by
      intro n hn hlt heq
      rw [← heq, UInt8.toNat_ofNat'] at hbyte
      omega
    split_ifs at h
    · simp only [List.mem_cons, List.not_mem_nil, or_false] at h
      rcases h with h | h
      all_goals exact habove _ (by omega) (by omega) h.symm
    · simp only [List.mem_cons, List.not_mem_nil, or_false] at h
      rcases h with h | h | h
      all_goals exact habove _ (by omega) (by omega) h.symm
    · simp only [List.mem_cons, List.not_mem_nil, or_false] at h
      rcases h with h | h | h | h
      all_goals exact habove _ (by omega) (by omega) h.symm

theorem lineFeed_mem_utf8EncodeChar {c : Char} (h : lineFeed ∈ String.utf8EncodeChar c) :
    c = '\n' :=
  Char.ext (UInt32.toNat_inj.mp (val_eq_of_mem_utf8EncodeChar h (by decide)))

theorem carriageReturn_mem_utf8EncodeChar {c : Char}
    (h : carriageReturn ∈ String.utf8EncodeChar c) : c = '\r' :=
  Char.ext (UInt32.toNat_inj.mp (val_eq_of_mem_utf8EncodeChar h (by decide)))

/-! ## The position of an offset -/

namespace SourceFile

theorem locateFrom_of_le {offset pos : Nat} (h : offset ≤ pos) (line start : Nat)
    (cs : List Char) : locateFrom offset pos line start cs = (line, start) := by
  cases cs with
  | nil => rfl
  | cons c cs => rw [locateFrom, if_pos h]

/-- The search for a line passes through the bytes up to the offset. The last line feed that it
meets tells the line and its start. -/
theorem locateFrom_eq {offset : Nat} (pos line start : Nat) {cs : List Char}
    (hstart : start ≤ pos) (hpos : pos ≤ offset) (hoffset : offset ≤ pos + (encode cs).length) :
    ∃ l s, locateFrom offset pos line start cs = (l, s) ∧ s ≤ offset ∧
      placeAfter (line, pos - start) ((encode cs).take (offset - pos)) = (l, offset - s) := by
  induction cs generalizing pos line start with
  | nil =>
    have heq : offset = pos := by
      rw [encode, List.flatMap_nil, List.length_nil] at hoffset
      omega
    exact ⟨line, start, rfl, by omega, by simp [heq, encode]⟩
  | cons c cs ih =>
    rw [locateFrom]
    by_cases hle : offset ≤ pos
    · have heq : offset = pos := by omega
      exact ⟨line, start, if_pos hle, by omega, by simp [heq]⟩
    rw [if_neg hle]
    by_cases hc : c = '\n'
    · have henc : String.utf8EncodeChar c = [lineFeed] := by
        rw [hc]
        decide
      rw [if_pos (by simpa using hc)]
      rw [encode_cons, henc, List.singleton_append, List.length_cons] at hoffset
      obtain ⟨l, s, hls, hs, hplace⟩ :=
        ih (pos + 1) (line + 1) (pos + 1) le_rfl (by omega) (by omega)
      refine ⟨l, s, hls, hs, ?_⟩
      rw [encode_cons, henc, List.singleton_append,
        show offset - pos = offset - (pos + 1) + 1 by omega, List.take_succ_cons, placeAfter_cons,
        placeNext_lineFeed]
      simpa using hplace
    · have hno : lineFeed ∉ String.utf8EncodeChar c := fun h => hc (lineFeed_mem_utf8EncodeChar h)
      have hlen := String.length_utf8EncodeChar c
      rw [if_neg (by simpa using hc)]
      rw [encode_cons, List.length_append, hlen] at hoffset
      by_cases hend : offset ≤ pos + c.utf8Size
      · -- the offset is inside of the character, or right behind it
        refine ⟨line, start, locateFrom_of_le hend line start cs, by omega, ?_⟩
        rw [encode_cons, List.take_append_of_le_length (by omega),
          placeAfter_of_notMem fun h => hno (List.mem_of_mem_take h), List.length_take]
        simp only [Prod.mk.injEq, true_and]
        omega
      · obtain ⟨l, s, hls, hs, hplace⟩ :=
          ih (pos + c.utf8Size) line start (by omega) (by omega) (by omega)
        refine ⟨l, s, hls, hs, ?_⟩
        rw [encode_cons, List.take_append, List.take_of_length_le (by omega), placeAfter_append,
          placeAfter_of_notMem hno, hlen, Nat.sub_sub, ← Nat.sub_add_comm hstart]
        exact hplace

/-- The encoded text of a file. -/
def bytes (file : SourceFile) : List UInt8 := encode file.text.toList

theorem length_bytes (file : SourceFile) : file.bytes.length = file.size := by
  rw [bytes, size, String.utf8ByteSize, ← String.utf8Encode_toList, List.utf8Encode,
    List.size_toByteArray, encode]

/-- The position of an offset in a file is its position in the bytes of the file. -/
theorem position_eq (file : SourceFile) {offset : Nat} (h : offset ≤ file.size) :
    file.position offset = .ofBytes file.name file.bytes offset := by
  have hlen : offset ≤ file.bytes.length := by rwa [length_bytes]
  obtain ⟨l, s, hls, hs, hplace⟩ :=
    locateFrom_eq 0 1 0 le_rfl (Nat.zero_le offset) (by rwa [Nat.zero_add])
  rw [← bytes, Nat.sub_zero, Nat.sub_zero, placeAfter_start, Prod.mk.injEq, List.length_take,
    Nat.min_eq_left hlen] at hplace
  obtain ⟨hline, hcolumn⟩ := hplace
  have hle := lineStart_take_le file.bytes offset
  rw [position, if_neg (by simp; omega), Int.toNat_natCast, hls, Position.ofBytes]
  simp only [Position.mk.injEq, true_and, and_true]
  omega

/-- The offset is in the text, or right behind it. -/
def Inside (file : SourceFile) (offset : Int) : Prop := 0 ≤ offset ∧ offset ≤ file.size

instance (file : SourceFile) (offset : Int) : Decidable (file.Inside offset) :=
  inferInstanceAs (Decidable (_ ∧ _))

theorem position_of_inside {file : SourceFile} {offset : Int} (h : file.Inside offset) :
    file.position offset = .ofBytes file.name file.bytes offset.toNat := by
  obtain ⟨n, rfl⟩ := Int.eq_ofNat_of_zero_le h.1
  exact file.position_eq (Int.ofNat_le.mp h.2)

theorem position_of_not_inside {file : SourceFile} {offset : Int} (h : ¬ file.Inside offset) :
    file.position offset = { filename := file.name } := by
  rw [Inside] at h
  exact if_pos (by simp; omega)

@[simp] theorem position_filename (file : SourceFile) (offset : Int) :
    (file.position offset).filename = file.name := by
  unfold position
  split <;> rfl

theorem position_offset {file : SourceFile} {offset : Int} (h : file.Inside offset) :
    (file.position offset).offset = offset := by
  rw [position_of_inside h]
  exact Int.toNat_of_nonneg h.1

/-- Only offsets inside have a line. -/
theorem position_line_pos_iff {file : SourceFile} {offset : Int} :
    0 < (file.position offset).line ↔ file.Inside offset := by
  by_cases h : file.Inside offset
  · refine iff_of_true ?_ h
    rw [position_of_inside h, Position.ofBytes]
    dsimp only
    omega
  · refine iff_of_false ?_ h
    rw [position_of_not_inside h]
    exact lt_irrefl 0

/-- The line and the column tell the position. -/
theorem position_eq_of_line_column {file : SourceFile} {m n : Int}
    (hline : (file.position m).line = (file.position n).line)
    (hcolumn : (file.position m).column = (file.position n).column) :
    file.position m = file.position n := by
  have hinside : file.Inside m ↔ file.Inside n := by
    rw [← position_line_pos_iff, ← position_line_pos_iff, hline]
  by_cases hm : file.Inside m
  · have hn := hinside.mp hm
    have hmle : m.toNat ≤ file.bytes.length := by
      rw [length_bytes]
      exact Int.toNat_le.mpr hm.2
    have hnle : n.toNat ≤ file.bytes.length := by
      rw [length_bytes]
      exact Int.toNat_le.mpr hn.2
    rw [position_of_inside hm, position_of_inside hn] at hline hcolumn ⊢
    rw [Position.ofBytes_inj hmle hnle hline hcolumn]
  · rw [position_of_not_inside hm, position_of_not_inside fun hn => hm (hinside.mpr hn)]

/-- The position of an offset inside is told by the offset alone. -/
theorem position_eq_iff_offset {file : SourceFile} {m n : Int} (hn : file.Inside n) :
    file.position m = file.position n ↔ (file.position m).offset = n := by
  constructor
  · intro heq
    rw [heq, position_offset hn]
  · intro heq
    by_cases hm : file.Inside m
    · rw [position_offset hm] at heq
      rw [heq]
    · -- a position that is not known has the offset -1
      have hnonneg := hn.1
      rw [← heq, position_of_not_inside hm] at hnonneg
      exact absurd hnonneg (by decide : ¬ (0 : Int) ≤ -1)

end SourceFile

end UncheckedErrors
