import ResourceStubs.CommandLine.Command
import ResourceStubs.Log.Line

/-!
# The command as a program

The outer layer: it reads arguments, variables and files, performs the steps of the plan one by one,
and shows events as they come. What is read, planned and printed is decided elsewhere, by the same
functions that the model of a run uses.

Errors of the system come in more kinds than a run distinguishes, so `CommandLine.attempt` turns
each of them into the file error nearest to it. The loop over steps stops at the first failure, as
`FileSystem.run` does.
-/

namespace ResourceStubs.CommandLine

/-- The file error that an error of the system stands for. -/
def fileErrorOf : IO.Error → FileError
  | .noFileOrDirectory .. => .notFound
  | .alreadyExists .. => .alreadyExists
  | .inappropriateType _ code _ => if code = 21 then .isDirectory else .notDirectory
  | .resourceExhausted .. => .nameTooLong
  | .invalidArgument .. => .nulInPath
  | _ => .notFound

/-- Performs an action on files. -/
def attempt {α : Type} (action : IO α) : IO (Except FileError α) := do
  try
    return .ok (← action)
  catch e =>
    return .error (fileErrorOf e)

/-- The variables that matter. -/
def readEnvironment : IO Log.Environment := do
  let names :=
    ["RDL_LOG_LEVEL", "RDL_LOG_FORMAT", "RDL_LOG_TARGET_FILTER", "RDL_LOG_INCLUDE_LOCATION",
      "RUST_LOG"]
  names.filterMapM fun name => do
    return (← IO.getEnv name).map (name, ·)

/-- How events are shown. -/
structure Display where
  /-- The configuration of logging. -/
  config : Log.Config
  /-- Which events are shown. -/
  filter : Log.Filter

/-- Shows an event, if it is to be shown. -/
def Display.show (display : Display) (e : Event) : IO Unit := do
  if display.filter.shows e then
    match display.config.layout with
    | .pretty => IO.eprintln (Log.prettyLine display.config e)
    | .json => IO.eprintln (Log.jsonLine display.config e).text

/-- Performs one step. -/
def performStep (display : Display) : Step → IO (Except Failure Unit)
  | .announce e => do
    display.show e
    return .ok ()
  | .createDirs dir => do
    if dir.isEmpty then return .ok ()
    return (← attempt (IO.FS.createDirAll dir)).mapError (.noOutputDir dir)
  | .writeFile path text => do
    return (← attempt (IO.FS.writeFile path text)).mapError (.unwritable path)

/-- Performs steps up to the first one that fails. -/
def performSteps (display : Display) : List Step → IO (Except Failure Unit)
  | [] => return .ok ()
  | step :: rest => do
    match ← performStep display step with
    | .ok () => performSteps display rest
    | .error e => return .error e

/-- Loads the unit and writes its classes. -/
def performAll (display : Display) (a : Arguments) : IO (Except Failure Report) := do
  let loading := CompilationUnit.load a.input (← attempt (IO.FS.readFile a.input))
  loading.events.forM display.show
  match loading.outcome with
  | .error e => return .error e
  | .ok u =>
    let rendering := u.render
    rendering.events.forM display.show
    match rendering.outcome with
    | .error e => return .error (.badTraits e)
    | .ok controllers =>
      let dir := u.outputDir a.output
      let written ← performSteps display (generationPlan dir a.dryRun controllers)
      return written.map fun _ => generationReport dir a.dryRun controllers

/-- Runs the command and gives its exit code. -/
def runCommand (a : Arguments) : IO UInt32 := do
  let env ← readEnvironment
  let config := a.logConfig env
  for warning in Log.Filter.warnings config do
    IO.eprintln warning
  match ← performAll { config, filter := Log.Filter.of env config } a with
  | .ok report =>
    let workingDir ← IO.currentDir
    IO.print (summary a workingDir.toString report)
    return 0
  | .error e =>
    IO.eprintln e.report
    return 1

/-- Runs the program and gives its exit code. -/
def run (args : List String) : IO UInt32 := do
  match Arguments.parse args with
  | .ok a => runCommand a
  | .error e =>
    if e.exitCode = 0 then IO.print e.message else IO.eprint e.message
    return e.exitCode.toUInt32

end ResourceStubs.CommandLine

/-- Runs the program with the arguments of its command line. -/
def main (args : List String) : IO UInt32 :=
  ResourceStubs.CommandLine.run args
