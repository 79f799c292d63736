import UncheckedErrors.CommandLine.Session

/-!
# The program

Collects the files that a session can ask for, runs the session, and prints what it leaves behind.
Nothing is decided here.
-/

namespace UncheckedErrors.CommandLine

/-- What exists at a place. -/
def probe (place : List String) : IO (Option DiskEntry) := do
  let path := (← IO.currentDir) / ("/" ++ "/".intercalate place)
  if ← path.isDir then return some .directory
  try
    return some (.file (← IO.FS.readBinFile path))
  catch _ => return none

/-- Adds what exists on the way to a path. -/
def collect (disk : Disk) (path : Path) : IO Disk := do
  let mut entries := disk.entries
  for place in disk.waypoints path do
    if let some entry ← probe place then
      entries := entries ++ [(place, entry)]
  return { disk with entries }

/-- The sources that the dump names. -/
def sourcesOf (disk : Disk) (dump : Path) : List Path :=
  match disk.read dump with
  | .error _ => []
  | .ok text =>
    match Datum.parse text with
    | .error _ => []
    | .ok datum => datum.sourcePaths.map fun path => dump.parent.join (.ofString path)

/-- The files that a session can ask for. -/
def collectAll (options : Options) : IO Disk := do
  let cwd ← IO.currentDir
  let dump := Path.ofString options.dump
  let excludes := if options.exclude.isEmpty then [] else [Path.ofString options.exclude]
  let disk ← (dump :: excludes).foldlM collect ⟨(Path.ofString cwd.toString).parts, []⟩
  (sourcesOf disk dump).foldlM collect disk

/-- Runs a command line and gives the exit status. -/
def run (arguments : List String) : IO UInt32 := do
  match parseArguments arguments with
  | .error stop =>
    stop.output.forM IO.println
    stop.complaint.forM IO.eprintln
    return stop.exitCode.toUInt32
  | .ok options =>
    let session := options.session (← collectAll options)
    session.output.forM IO.println
    (noticeTexts options session).forM IO.eprintln
    return session.exitCode.toUInt32

end UncheckedErrors.CommandLine

def main (arguments : List String) : IO UInt32 := UncheckedErrors.CommandLine.run arguments
