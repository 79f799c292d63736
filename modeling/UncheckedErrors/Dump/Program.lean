import UncheckedErrors.Disk
import UncheckedErrors.Dump.Trees
import UncheckedErrors.Program

/-!
# Reading programs

Readers for the outer forms of a dump: files, packages and the program. The source of a file stands
in the dump itself, line by line, or in a file next to the dump.
-/

namespace UncheckedErrors

/-- Why a dump gives no program. -/
inductive DumpError where
  | shape (error : ShapeError)
  /-- A source file has no text. -/
  | source (path : Path) (reason : FileError)

/-- Where sources are read from: a disk, and the directory that relative paths start at. -/
structure SourceRoot where
  disk : Disk
  base : Path

mutual

/-- The paths that the forms `(source-path PATH)` of a dump name. -/
def Datum.sourcePaths : Datum → List String
  | .list [.symbol "source-path", .string path] => [path]
  | .list [.symbol "source-path", .symbol path] => [path]
  | .list items => sourcePathsOfAll items
  | _ => []

/-- The paths that the forms `(source-path PATH)` in a list of data name. -/
def Datum.sourcePathsOfAll : List Datum → List String
  | [] => []
  | d :: rest => d.sourcePaths ++ sourcePathsOfAll rest

end

/-- A computation that reads forms and sources. -/
abbrev ProgramReader := StateT TypeTable (Except DumpError)

/-- A reader of forms among the readers of programs. -/
def Reader.lift {α : Type} (reader : Reader α) : ProgramReader α := fun table =>
  (reader table).mapError fun e => .shape (e.within stepLimit)

/-- The source of a file from its options. -/
def readSource (root : SourceRoot) (name : String) (options : Options) :
    ProgramReader SourceFile := do
  match options.get? "source" with
  | some lines => do
    let lines ← Reader.lift (lines.mapM fun d => (d.asString : Shape String))
    return .ofLines name lines
  | none =>
    match ← Reader.lift (options.single? "source-path") with
    | none => throw (.shape (.noSource name))
    | some d => do
      let path := root.base.join (.ofString (← Reader.lift d.asString))
      match root.disk.read path with
      | .ok text => return ⟨name, text⟩
      | .error reason => throw (.source path reason)

/-- A file of the package `packageName`. -/
def readFile (root : SourceRoot) (packageName : String) (d : Datum) : ProgramReader ParsedFile := do
  let form ← Reader.lift (Form.tagged "file" 2 d)
  let (name, rest) ← Reader.lift form.operand
  let name ← Reader.lift name.asString
  let (decls, options) ← Reader.lift (splitOptions ["build-tags", "source", "source-path"] rest)
  let source ← readSource root name options
  let decls ← Reader.lift (decls.mapM readDecl)
  let tags ← Reader.lift ((options.getAll "build-tags").mapM fun d => (d.asString : Shape String))
  return ⟨name, ⟨packageName, source.packagePos, decls⟩, source, tags⟩

/-- A package. -/
def readPackage (root : SourceRoot) (d : Datum) : ProgramReader Package := do
  let form ← Reader.lift (Form.tagged "package" 3 d)
  let (path, name, rest) ← Reader.lift form.operands2
  let path ← Reader.lift path.asString
  let name ← Reader.lift name.asString
  let (files, options) ← Reader.lift (splitOptions ["test", "errors"] rest)
  let files ← files.mapM (readFile root name)
  let errors ← Reader.lift ((options.getAll "errors").mapM fun d => (d.asString : Shape String))
  return ⟨path, name, files, errors, (options.get? "test").isSome⟩

/-- The parts of a program that were read so far. -/
structure ProgramParts where
  mod : Option String
  packages : List Package

/-- Adds one top-level form to the parts of a program. -/
def readTopLevel (root : SourceRoot) (parts : ProgramParts) (d : Datum) :
    ProgramReader ProgramParts := do
  let form ← Reader.lift (Form.ofDatum 1 d)
  match form.tag with
  | "mod" => do
    let (mode, _) ← Reader.lift form.operand
    return { parts with mod := some (← Reader.lift mode.asString) }
  | "typedef" => do
    Reader.lift (readTypedef form)
    return parts
  | "package" => do
    let p ← readPackage root d
    return { parts with packages := parts.packages ++ [p] }
  | tag => throw (.shape (.unknownForm .topLevel tag))

/-- The program that a datum describes. -/
def readProgram (root : SourceRoot) (d : Datum) : Except DumpError Program := do
  let read : ProgramReader ProgramParts := do
    let form ← Reader.lift (Form.tagged "program" 0 d)
    form.args.foldlM (readTopLevel root) ⟨none, []⟩
  let (parts, types) ← read.run .initial
  return ⟨parts.packages, parts.mod, types⟩

end UncheckedErrors
