import UncheckedErrors.Text.Blank

/-!
# Paths and files

A path is its root and the elements after it. A disk is a working directory and the files and
directories that exist; the directories on the way to them exist too.

* `Disk.readBytes`, `Disk.read`: the bytes of a file, and its text. Each element of the path but the
  last has to be a directory; `..` goes to the parent. No element is longer than 255 bytes, the path
  has less than 4096, and the character U+0000 is in none.
* `Disk.absolute`, `Disk.relative`: a file name as an absolute path, and as seen from the working
  directory. Both look at the names only.
-/

namespace UncheckedErrors

/-- A path. The root is empty for a relative path. -/
structure Path where
  root : String
  parts : List String
  deriving DecidableEq, Repr

namespace Path

/-- The root of a written path: two slashes in front are kept, any other number counts as one. -/
def rootOf (cs : List Char) : String :=
  match (cs.takeWhile (· == '/')).length with
  | 0 => ""
  | 2 => "//"
  | _ => "/"

/-- The path that a text writes. Empty elements and `.` are dropped. -/
def ofString (s : String) : Path :=
  ⟨rootOf s.toList, (Text.splitOnChar '/' s).filter fun part => !(part.isEmpty || part == ".")⟩

/-- The written form of a path. -/
def text (p : Path) : String :=
  if p.root.isEmpty && p.parts.isEmpty then "." else p.root ++ "/".intercalate p.parts

def isAbsolute (p : Path) : Bool := !p.root.isEmpty

/-- The second path as seen from the first. -/
def join (p q : Path) : Path :=
  if q.isAbsolute then q else ⟨p.root, p.parts ++ q.parts⟩

/-- The directory a path is in. -/
def parent (p : Path) : Path := ⟨p.root, p.parts.dropLast⟩

/-- The elements with every `..` carried out, starting from the elements `done`, last first. -/
def normalize (done : List String) : List String → List String
  | [] => done.reverse
  | part :: rest => if part == ".." then normalize done.tail rest else normalize (part :: done) rest

end Path

/-- Why a file has no text. -/
inductive FileError where
  | notFound
  | isDirectory
  | notDirectory
  /-- The path, or one of its elements, is too long. -/
  | nameTooLong
  /-- The path holds the character U+0000. -/
  | notAPath
  /-- The bytes are no UTF-8. -/
  | undecodable
  deriving DecidableEq, Repr

def FileError.text : FileError → String
  | .notFound => "No such file or directory"
  | .isDirectory => "Is a directory"
  | .notDirectory => "Not a directory"
  | .nameTooLong => "File name too long"
  | .notAPath => "not a path"
  | .undecodable => "not UTF-8"

inductive DiskEntry where
  | file (bytes : ByteArray)
  | directory

/-- The files of a run, by their absolute paths. -/
structure Disk where
  /-- The elements of the working directory. -/
  cwd : List String
  entries : List (List String × DiskEntry)

namespace Disk

/-- What exists at an absolute path. -/
def entry? (disk : Disk) (path : List String) : Option DiskEntry :=
  match disk.entries.find? (·.1 == path) with
  | some (_, entry) => some entry
  | none =>
    if path.isPrefixOf disk.cwd || disk.entries.any (path.isPrefixOf ·.1) then some .directory
    else none

/-- Goes from `here` (last element first), at which `entry` is, along the rest of a path. -/
def follow (disk : Disk) (here : List String) (entry : DiskEntry) :
    List String → Except FileError DiskEntry
  | [] => return entry
  | part :: rest =>
    match entry with
    | .file _ => throw .notDirectory
    | .directory =>
      if 255 < part.utf8ByteSize then throw .nameTooLong
      else
        let there := if part == ".." then here.tail else part :: here
        match disk.entry? there.reverse with
        | some entry => disk.follow there entry rest
        | none => throw .notFound

/-- The elements of a path from the root of the disk. -/
def elements (disk : Disk) (path : Path) : List String :=
  if path.isAbsolute then path.parts else disk.cwd ++ path.parts

/-- The places that are passed on the way to a path, the path itself included. -/
def waypoints (disk : Disk) (path : Path) : List (List String) :=
  let elements := disk.elements path
  (List.range (elements.length + 1)).map fun n => Path.normalize [] (elements.take n)

/-- The text that bytes encode, with every line ended by a line feed. -/
def decode (bytes : ByteArray) : Except FileError String :=
  match String.fromUTF8? bytes with
  | some s => return String.ofList (Text.unifyBreaks s.toList)
  | none => throw .undecodable

def readBytes (disk : Disk) (path : Path) : Except FileError ByteArray := do
  if path.text.contains (Char.ofNat 0) then throw .notAPath
  if 4096 ≤ path.text.utf8ByteSize then throw .nameTooLong
  match ← disk.follow [] .directory (disk.elements path) with
  | .file bytes => return bytes
  | .directory => throw .isDirectory

def read (disk : Disk) (path : Path) : Except FileError String := do
  decode (← disk.readBytes path)

def cwdPath (disk : Disk) : Path := ⟨"/", disk.cwd⟩

/-- A file name as an absolute path, `..` carried out. -/
def absolutePath (disk : Disk) (name : String) : Path :=
  let path := disk.cwdPath.join (.ofString name)
  ⟨path.root, Path.normalize [] path.parts⟩

/-- A file name as an absolute path. -/
def absolute (disk : Disk) (name : String) : String := (disk.absolutePath name).text

/-- The elements from one directory to a path: up to what they share, then down. -/
def way (base path : List String) : List String :=
  match base, path with
  | b :: base, p :: path =>
    if b == p then way base path else List.replicate (base.length + 1) ".." ++ p :: path
  | base, path => List.replicate base.length ".." ++ path

/-- A file name as seen from the working directory. -/
def relative (disk : Disk) (name : String) : String :=
  (⟨"", way (Path.normalize [] disk.cwd) (disk.absolutePath name).parts⟩ : Path).text

end Disk

end UncheckedErrors
