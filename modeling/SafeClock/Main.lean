import SafeClock.CommandLine.Execute
import Std.Time.DateTime

/-!
# The program

What stands in the working directory is put into a tree of files, the command line is carried out
there, and what has changed is put back. Above the working directory only the configuration files
are looked at. All decisions are made elsewhere.
-/

set_option autoImplicit false

namespace SafeClock.Program

open CommandLine

/-- Whether the bytes of a file are those of a script, which may be run. -/
def isScript (content : ByteArray) : Bool :=
  content.size ≥ 2 && content.get! 0 == 0x23 && content.get! 1 == 0x21

/-- Puts what stands in a directory, and below it, into a tree. -/
partial def gather (place : Place) (entries : Array IO.FS.DirEntry) (t : FileTree) :
    IO FileTree := do
  let mut t := t
  for entry in entries do
    let here := place ++ [entry.fileName]
    if ← entry.path.isDir then
      t ← gather here (← entry.path.readDir) (t.put here .directory)
    else
      let content ← IO.FS.readBinFile entry.path
      t := t.put here (.file content (isScript content))
  return t

/-- Puts the configuration files above a directory into a tree. -/
def gatherAbove (place : Place) (t : FileTree) : IO FileTree := do
  let mut t := t
  for n in List.range place.length do
    for name in [Config.usualFile, Config.localFile] do
      let here := FileTree.lexical (place.take n) name
      let path := "/" ++ "/".intercalate here
      try
        let content ← IO.FS.readBinFile path
        t := (t.makeDirectories here.dropLast).put here (.file content false)
      catch _ => pure ()
  return t

/-- The environment of the program. -/
def environment : IO (List (String × String)) := do
  let content ← IO.FS.readBinFile "/proc/self/environ"
  let entries := (Text.Utf8.readLossy content).splitOn "\x00"
  return (entries.filter (·.contains '=')).map fun entry =>
    match entry.splitOn "=" with
    | name :: rest => (name, "=".intercalate rest)
    | [] => (entry, "")

/-- The point in time at which this is done. -/
def now : IO Instant := do
  let t := (← Std.Time.Timestamp.now).toNanosecondsSinceUnixEpoch.val
  return ⟨t.fdiv 1000000000, (t.fmod 1000000000).toNat⟩

/-- Puts back what a command line has changed in a tree. -/
def restore (before after : FileTree) : IO Unit := do
  let path (place : Place) : String := "/" ++ "/".intercalate place
  for (place, node) in before.nodes do
    if (after.at? place).isNone ∧ (after.at? place.dropLast).isSome then
      match node with
      | .directory => IO.FS.removeDirAll (path place)
      | _ => IO.FS.removeFile (path place)
  for (place, node) in after.nodes.reverse do
    unless ((before.at? place).map (·.agrees node)).getD false do
      match node with
      | .directory => IO.FS.createDirAll (path place)
      | .file content _ =>
        IO.FS.createDirAll (path place.dropLast)
        IO.FS.writeBinFile (path place) content
      | .sink => pure ()

/-- A log record as a line on the standard error stream. -/
def consoleLine : Config.LogFormat → Log.Record → String
  | .json, r => recordLine r
  | .pretty, r => r.level.label ++ " " ++ r.message ++ "\n"

/-- Carries out a command line in the working directory, and answers the exit status. -/
def run (args : List String) : IO UInt32 := do
  let output ← IO.getStdout
  let complaints ← IO.getStderr
  let directory ← IO.currentDir
  let cwd := FileTree.lexical [] directory.toString
  let devices := (FileTree.empty.makeDirectories ["dev"]).put ["dev", "null"] .sink
  let tree ← gather cwd (← directory.readDir)
    (← gatherAbove cwd (devices.makeDirectories cwd))
  let started ← now
  match execute args ⟨tree, cwd, ← environment⟩ with
  | .error e =>
    match e with
    | .versionWanted => output.putStr versionText
    | .helpWanted => output.putStr usage
    | _ => complaints.putStr usage
    return UInt32.ofNat e.exitStatus
  | .ok e =>
    restore tree e.tree
    match e.console with
    | some (format, records) =>
      for r in records do
        complaints.putStr (consoleLine format r)
    | none => pure ()
    output.putStr (e.outcome.output e.json .plain (.between started (← now)))
    complaints.putStr (e.outcome.complaints e.json .plain)
    return UInt32.ofNat e.outcome.exitStatus

end SafeClock.Program

/-- Carries out a command line. -/
def main (args : List String) : IO UInt32 := SafeClock.Program.run args
