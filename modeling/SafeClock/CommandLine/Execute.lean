import SafeClock.CommandLine.Outcome
import SafeClock.CommandLine.Parse
import SafeClock.Log.Filter
import SafeClock.Toolchain

/-!
# Carrying out a command line

A command line is carried out in `Surroundings`: a tree of files, a working directory and an
environment. The configuration is loaded and the log is opened; then the command works at a bench
made of the header and the build tool that are configured. What comes of it is an `Execution`: the
outcome, the tree as it is left, and the log records.
-/

set_option autoImplicit false

namespace SafeClock.CommandLine

/-- Where a command line is carried out. -/
structure Surroundings where
  tree : FileTree
  cwd : Place
  environment : List (String × String)

/-- The value of a variable of the environment. -/
def Surroundings.valueOf? (s : Surroundings) (name : String) : Option String :=
  (s.environment.find? (·.1 == name)).map Prod.snd

/-- The name under which the program logs. -/
def program : String := "freqprof"

/-- The version of the program. -/
def version : String := "0.1.0"

/-! ## Commands -/

/-- The search that a configuration describes. -/
def searchSession (c : Config) : Search.Session where
  parameters := c.search.parameters
  lead := c.trace.lead
  table := c.trace.table
  application := c.search.application
  maxIterations := c.search.maxIterations

/-- The bench of a configuration: the header and the build tool, seen from the surroundings. -/
def bench (c : Config) (s : Surroundings) : Bench (FileTree × Unit) :=
  Bench.station ⟨c.platform.header, c.platform.lead⟩ s.cwd
    (Toolchain.runner c.toolchain ⟨s.cwd, s.environment⟩)

/-- Keeps a text in a file. -/
def save (cwd : Place) : Testbench.Save (FileTree × Unit) := fun path text s =>
  match s.1.write cwd path text.toUTF8 with
  | .ok t => (.ok (), (t, s.2))
  | .error e => (.error e, s)

/-- Carries out a command under a configuration. A stress run looks at what the tool puts out. -/
def Command.execute (c : Command) (config : Config) (s : Surroundings)
    (l : Ledger (FileTree × Unit)) : Outcome × Ledger (FileTree × Unit) :=
  let config := c.apply config
  match c with
  | .search _ =>
    match config.check with
    | .error e => (.refused (.searchParameters e), l)
    | .ok _ =>
      let (result, l) := (searchSession config).run (bench config s) l
      (.search result, l)
  | .testbench _ =>
    match config.check with
    | .error e => (.refused (.testbenchParameters e), l)
    | .ok _ =>
      let config := { config with
        toolchain := { config.toolchain with traceSource := .standardOutput } }
      let (result, l) := Testbench.run config.testbench (bench config s) (save s.cwd) l
      (.testbench result, l)
  | .validate file =>
    match l.bench.1.readText s.cwd file with
    | .error e => (.unreadable file e, l)
    | .ok text =>
      let (events, verdict) := Trace.check config.trace.lead config.trace.table text
      (.checked ⟨file, events, verdict⟩, l)

/-! ## The log -/

/-- Where log records go. -/
structure LogTarget where
  threshold : Log.Threshold
  /-- The file, if records go to one whose name is always the same. -/
  file : Option Place
  /-- Whether records go to the standard error stream, and how they are written there. -/
  console : Option Config.LogFormat

/-- The directory of the log, if there is one. -/
def logDirectory? (c : Config.LoggingSection) (s : Surroundings) : Option Place :=
  c.directory.map fun path => FileTree.lexical (if path.startsWith "/" then [] else s.cwd) path

/-- The log of a configuration. -/
def LogTarget.ofConfig (c : Config.LoggingSection) (s : Surroundings) : LogTarget where
  threshold :=
    Log.Threshold.ofFilter program ((Log.Level.ofName? c.level).getD .info)
      ((s.valueOf? "RUST_LOG").getD "")
  file := match logDirectory? c s, c.rotation with
    | some directory, .never => some (directory ++ [program ++ ".log"])
    | _, _ => none
  console := if c.console then some c.format else none

/-- The tree with the directory of the log made, and with the file, which is begun even if nothing
is ever logged. -/
def openLog (c : Config.LoggingSection) (s : Surroundings) (target : LogTarget) : FileTree :=
  match logDirectory? c s with
  | none => s.tree
  | some directory =>
    let t := s.tree.makeDirectories directory
    match target.file with
    | none => t
    | some place => if (t.at? place).isSome then t else t.fill place ByteArray.empty false

/-- A log record as a line of a log. -/
def recordLine (r : Log.Record) : String :=
  "\x7b\"level\":" ++ Output.Json.quote r.level.label ++ ",\"fields\":\x7b\"message\":" ++
    Output.Json.quote r.message ++ "\x7d\x7d\n"

/-! ## Command lines -/

/-- What comes of a command line that is an invocation. -/
structure Execution where
  json : Bool
  outcome : Outcome
  tree : FileTree
  /-- The log records on the standard error stream, in the format they have there. -/
  console : Option (Config.LogFormat × List Log.Record)

/-- Carries out an invocation. -/
def Invocation.execute (i : Invocation) (s : Surroundings) : Execution :=
  match Config.load s.tree s.cwd s.environment i.config with
  | .error e => ⟨i.json, .refused (.configuration e), s.tree, none⟩
  | .ok config =>
    let target := LogTarget.ofConfig config.logging s
    let tree := openLog config.logging s target
    let l := (Ledger.fresh (tree, ())).log .debug "logger initialized"
    let (outcome, l) := i.command.execute config s l
    let records := l.records.filter target.threshold.keeps
    let tree := l.bench.1
    let tree := match target.file with
      | none => tree
      | some place => tree.extend place (String.join (records.map recordLine)).toUTF8
    ⟨i.json, outcome, tree, target.console.map fun format => (format, records)⟩

/-- What is shown when the version is asked for. -/
def versionText : String := program ++ " " ++ version ++ "\n"

/-- What is shown when help is asked for, or a command line is no invocation. -/
def usage : String :=
  "Usage: " ++ program ++ " [--json] [-c <CONFIG>] <COMMAND>\n\n" ++
  "Commands:\n" ++
  "  search     Search for the highest safe frequency\n" ++
  "  testbench  Run a workload over and over until it fails\n" ++
  "  validate   Check the order of the interrupts in a trace\n"

/-- Reads a command line and carries it out. -/
def execute (args : List String) (s : Surroundings) : Except UsageError Execution :=
  (parse (s.valueOf? "FREQPROF_CONFIG") args).map fun i => i.execute s

end SafeClock.CommandLine
