import SafeClock.Bench.Station
import SafeClock.Config.Basic
import SafeClock.Process.Launch
import SafeClock.Text.Blank

/-!
# The tool that builds and runs workloads

The tool is called once for each target to clean the workspace, and once for a run. A call that
cannot be started, or does not end well, is a tooling error. The trace of a run is what the call
puts out, or what it leaves in a file.
-/

set_option autoImplicit false

namespace SafeClock

open Config (ToolchainSection)

namespace Toolchain

/-- What stands for the workload in arguments and paths. -/
def placeholder : String := "\x7bapplication\x7d"

/-- A text with the name of a workload in the place of every placeholder. -/
def fillIn (application text : String) : String := text.replace placeholder application

/-- A path seen from a base: an absolute one is taken as it is. -/
def joinPath (base path : String) : String :=
  if path.startsWith "/" then path
  else if base.isEmpty ∨ base.endsWith "/" then base ++ path
  else base ++ "/" ++ path

/-- The arguments of a run. -/
def runArguments (c : ToolchainSection) (application : String) : List String :=
  c.runArguments.map (fillIn application)

/-- The file that a run leaves its trace in. -/
def logPath (c : ToolchainSection) (application : String) : String :=
  joinPath c.workingDirectory (fillIn application c.logPath)

/-- A call of the tool. -/
def call (c : ToolchainSection) (arguments : List String) : Process.Launch :=
  ⟨c.program, arguments, c.workingDirectory⟩

/-- Where the tool is called from: a directory, and the variables it is given. -/
structure Surroundings where
  cwd : Place
  environment : List (String × String) := []

/-- Calls the tool and waits for what it puts out. -/
def invoke (site : Surroundings) (l : Process.Launch) (t : FileTree) : Reply String × FileTree :=
  let begun : Log.Record := ⟨.debug, "Running build tool"⟩
  match l.run t site.cwd site.environment with
  | .error cause => (⟨.error (.spawn l.text cause), [begun]⟩, t)
  | .ok ended =>
    if ended.status.isSuccess then
      (⟨.ok (Text.Bytes.toText ended.output), [begun]⟩, ended.tree)
    else
      let complaints := Text.trim (Text.Bytes.toText ended.complaints).toList
      (⟨.error (.processFailed l.text ended.status.message (String.ofList complaints)),
        [begun, ⟨.error, "Build tool failed"⟩]⟩, ended.tree)

/-- Calls the tool for one target after the other, up to one that fails. -/
def clean (c : ToolchainSection) (site : Surroundings) :
    (targets : List String) → FileTree → Reply Unit × FileTree
  | [], t => (⟨.ok (), []⟩, t)
  | target :: rest, t =>
    match invoke site (call c [target]) t with
    | (⟨.error e, records⟩, t) => (⟨.error e, records⟩, t)
    | (⟨.ok _, records⟩, t) =>
      let (reply, t) := clean c site rest t
      (⟨reply.outcome, records ++ reply.records⟩, t)

/-- Calls the tool for a run, and takes the trace from where the run leaves it. -/
def run (c : ToolchainSection) (site : Surroundings) (application : String) (t : FileTree) :
    Reply String × FileTree :=
  match invoke site (call c (runArguments c application)) t with
  | (⟨.error e, records⟩, t) => (⟨.error e, records⟩, t)
  | (⟨.ok output, records⟩, t) =>
    match c.traceSource with
    | .standardOutput => (⟨.ok output, records⟩, t)
    | .logFile =>
      let path := logPath c application
      (⟨(t.readText site.cwd path).mapError (.io path), records⟩, t)

/-- The runner that calls the tool. -/
def runner (c : ToolchainSection) (site : Surroundings) : Bench.Runner Unit where
  clean s :=
    let (reply, t) := clean c site c.cleanTargets s.1
    (reply, (t, s.2))
  run application s :=
    let (reply, t) := run c site application s.1
    (reply, (t, s.2))

end Toolchain

end SafeClock
