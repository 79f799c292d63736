import UncheckedErrors.GoType.Table
import UncheckedErrors.Source
import UncheckedErrors.Tree.Basic

/-!
# Programs

A program is a list of type-checked packages together with the definitions of the named types they
mention. Each file of a package pairs a tree with its source.
-/

namespace UncheckedErrors

/-- A file with its tree and its source. -/
structure ParsedFile where
  name : String
  tree : File
  source : SourceFile
  buildTags : List String

namespace ParsedFile

/-- Whether a file holds tests. -/
def isTest (file : ParsedFile) : Bool := "_test.go".toList.isSuffixOf file.name.toList

/-- Whether a file was generated. -/
def isGenerated (file : ParsedFile) : Bool := file.source.isGenerated file.tree.packagePos

end ParsedFile

/-- A package. -/
structure Package where
  path : String
  name : String
  files : List ParsedFile
  errors : List String
  isTestVariant : Bool

namespace Package

/-- The path of a package, marked if it is a test variant. -/
def id (p : Package) : String :=
  if p.isTestVariant then p.path ++ " [" ++ p.path ++ ".test]" else p.path

/-- The first file with a name. -/
def file? (p : Package) (name : String) : Option ParsedFile := p.files.find? (·.name == name)

end Package

/-- The packages of a program and the named types they mention. -/
structure Program where
  packages : List Package
  mod : Option String
  types : TypeTable

/-- The first package with a path. -/
def Program.package? (p : Program) (path : String) : Option Package :=
  p.packages.find? (·.path == path)

end UncheckedErrors
