import UncheckedErrors.Text.Blank
import UncheckedErrors.Text.Quoted

/-!
# Source text and positions

A source file is its name and its text. Offsets count bytes of the UTF-8 encoding, as the front
end counts them.

* `SourceFile.position`: the line and column of an offset.
* `SourceFile.lineText`: a line without the blanks around it, as diagnostics show it.
* `SourceFile.linesBefore`: the lines in front of an offset, where the header of a generated file
  is looked for.
* `SourceFile.packagePos`: the offset of the package clause.
-/

namespace UncheckedErrors

/-- A position in a file. Lines and columns count from 1, columns in bytes; line 0 stands for a
position that is not known. -/
structure Position where
  filename : String := ""
  line : Int := 0
  column : Int := 0
  offset : Int := -1
  deriving DecidableEq, Repr, Inhabited

namespace Position

def isValid (p : Position) : Bool := 0 < p.line

/-- A position as diagnostics show it. -/
def text (p : Position) : String :=
  if !p.isValid then if p.filename.isEmpty then "-" else p.filename
  else if p.column ≠ 0 then p.filename ++ ":" ++ toString p.line ++ ":" ++ toString p.column
  else p.filename ++ ":" ++ toString p.line

/-- Positions in order of file name, line, column and offset. -/
def compare (p q : Position) : Ordering :=
  (Ord.compare p.filename q.filename).then <| (Ord.compare p.line q.line).then <|
    (Ord.compare p.column q.column).then (Ord.compare p.offset q.offset)

end Position

structure SourceFile where
  name : String
  text : String
  deriving DecidableEq, Repr, Inhabited

namespace SourceFile

/-- The file with the given lines, each ended by a line feed. -/
def ofLines (name : String) (lines : List String) : SourceFile :=
  ⟨name, "\n".intercalate lines ++ "\n"⟩

def size (file : SourceFile) : Nat := file.text.utf8ByteSize

/-- The pieces of the text between line feeds. -/
def segments (file : SourceFile) : List (List Char) :=
  Text.splitAtChar (· == '\n') file.text.toList

/-- Number of lines; a line feed at the very end opens none. -/
def lineCount (file : SourceFile) : Nat :=
  if file.text.toList.getLast? == some '\n' then file.segments.length - 1
  else file.segments.length

/-- The line that `offset` is on and the offset at which it starts. The characters given start at
`pos`, which is on `line`, which starts at `start`. -/
def locateFrom (offset pos line start : Nat) : List Char → Nat × Nat
  | [] => (line, start)
  | c :: cs =>
    if offset ≤ pos then (line, start)
    else if c == '\n' then locateFrom offset (pos + 1) (line + 1) (pos + 1) cs
    else locateFrom offset (pos + c.utf8Size) line start cs

/-- The position of an offset; an offset outside the text has none. -/
def position (file : SourceFile) (offset : Int) : Position :=
  if offset < 0 || file.size < offset then { filename := file.name }
  else
    let (line, start) := locateFrom offset.toNat 0 1 0 file.text.toList
    ⟨file.name, line, offset - start + 1, offset⟩

/-- The text of a line without the blanks around it. -/
def lineText (file : SourceFile) (line : Int) : String :=
  if line < 1 then "??"
  else
    match file.segments[line.toNat - 1]? with
    | some segment => String.ofList (Text.trimBoth Text.isBlank segment)
    | none => "??"

/-- The characters whose encoding lies in the first `n` bytes; one that is cut through becomes a
replacement character. -/
def takeBytes (n : Nat) : List Char → List Char
  | [] => []
  | c :: cs =>
    if n == 0 then []
    else if c.utf8Size ≤ n then c :: takeBytes (n - c.utf8Size) cs
    else [Char.ofNat 0xFFFD]

/-- The lines in front of an offset. -/
def linesBefore (file : SourceFile) (offset : Int) : List String :=
  Text.splitLines (String.ofList (takeBytes offset.toNat file.text.toList))

/-- What the header line of a generated file starts with. -/
def generatedOpening : List Char := "// Code generated ".toList

/-- What the header line of a generated file ends with. -/
def generatedClosing : List Char := " DO NOT EDIT.".toList

/-- Whether a line marks a file as generated. -/
def isGeneratedHeader (line : String) : Bool :=
  let cs := Text.trimBoth Text.isBlank line.toList
  generatedOpening.length + generatedClosing.length ≤ cs.length &&
    generatedOpening.isPrefixOf cs && generatedClosing.isSuffixOf cs

/-- Whether a line in front of the package clause marks the file as generated. -/
def isGenerated (file : SourceFile) (packagePos : Int) : Bool :=
  (file.linesBefore packagePos).any isGeneratedHeader

/-- Whether a line that continues with these characters is a package clause. -/
def opensPackage (cs : List Char) : Bool :=
  "package".toList.isPrefixOf cs &&
    match cs.drop 7 with
    | c :: _ => c == ' ' || (9 ≤ c.toNat && c.toNat ≤ 13)
    | [] => false

/-- The offset of the first package clause in the characters from `pos` on. -/
def findPackage? (lineStart : Bool) (pos : Nat) : List Char → Option Nat
  | [] => none
  | c :: cs =>
    if lineStart && opensPackage (c :: cs) then some pos
    else findPackage? (c == '\n') (pos + c.utf8Size) cs

/-- The offset of the package clause, or 0 if there is none. -/
def packagePos (file : SourceFile) : Nat :=
  (findPackage? true 0 file.text.toList).getD 0

def display (file : SourceFile) : String :=
  "SourceFile(" ++ Text.quoted file.name ++ ", " ++ toString file.size ++ " bytes)"

end SourceFile

end UncheckedErrors
