import ResourceStubs.Failure
import ResourceStubs.OutputDir

/-!
# Writing the classes of a unit

Everything is rendered before anything is written. What is then to be done is a plan: a list of
steps, which depends on the rendered classes only. Running a plan stops at the first step that
fails, and what was written before stays. A dry run has a plan without steps that touch files.

A class whose name came up before is announced with a warning and written all the same, so the later
class replaces the earlier one. The names seen so far are part of the recursion over the classes
(`controllersSteps`). The report names the file of every class in order, in a dry run as well.

`FileSystem.generate` is the whole: rendering, the plan and its run, with all events in the order in
which they are announced.
-/

namespace ResourceStubs

/-- A step of a plan. -/
inductive Step where
  /-- Announces an event. -/
  | announce (event : Event)
  /-- Creates a directory and all missing directories on the way to it. -/
  | createDirs (dir : String)
  /-- Writes a class to a file. -/
  | writeFile (path text : String)
  deriving DecidableEq, Inhabited, Repr

/-- What was done, or would have been done by a dry run. -/
structure Report where
  /-- The directory of the classes. -/
  outputDir : String
  /-- Their files, in the order in which they are written. -/
  files : List String
  /-- Whether nothing was written. -/
  dryRun : Bool
  deriving DecidableEq, Inhabited, Repr

/-- The file of a class. -/
def Controller.path (c : Controller) (dir : String) : String :=
  Path.join dir c.fileName

/-- The steps for one class, given the class names before it. -/
def controllerSteps (dir : String) (dryRun : Bool) (seen : List String) (c : Controller) :
    List Step :=
  (if seen.contains c.className then [.announce (.classRepeated c.className c.routePrefix)]
    else []) ++
  (if dryRun then []
    else [.writeFile (c.path dir) c.source, .announce (.controllerWritten (c.path dir))])

/-- The steps for classes, given the class names before them. -/
def controllersSteps (dir : String) (dryRun : Bool) : List String → List Controller → List Step
  | _, [] => []
  | seen, c :: rest =>
    controllerSteps dir dryRun seen c ++ controllersSteps dir dryRun (c.className :: seen) rest

/-- The plan for classes: the directory, the files, and the last event. -/
def generationPlan (dir : String) (dryRun : Bool) (controllers : List Controller) : List Step :=
  (if dryRun then [] else [.createDirs dir]) ++ controllersSteps dir dryRun [] controllers ++
    [.announce (.generationFinished dir controllers.length dryRun)]

/-- The report on classes. -/
def generationReport (dir : String) (dryRun : Bool) (controllers : List Controller) : Report where
  outputDir := dir
  files := controllers.map (·.path dir)
  dryRun := dryRun

/-- What came of a run. -/
structure Run (α : Type) where
  /-- The state after the run. -/
  after : FileSystem
  /-- The announced events, in order. -/
  events : List Event
  /-- The result. -/
  outcome : Except Failure α

namespace FileSystem

/-- Runs one step. -/
def runStep (fs : FileSystem) : Step → Run Unit
  | .announce event => ⟨fs, [event], .ok ()⟩
  | .createDirs dir =>
    let attempt := fs.createDirs dir
    ⟨attempt.after, [], attempt.outcome.mapError (.noOutputDir dir)⟩
  | .writeFile path text =>
    match fs.writeFile path text with
    | .ok after => ⟨after, [], .ok ()⟩
    | .error e => ⟨fs, [], .error (.unwritable path e)⟩

/-- Runs the steps of a plan up to the first one that fails. -/
def run (fs : FileSystem) : List Step → Run Unit
  | [] => ⟨fs, [], .ok ()⟩
  | step :: rest =>
    let first := fs.runStep step
    match first.outcome with
    | .error e => ⟨first.after, first.events, .error e⟩
    | .ok () =>
      let others := run first.after rest
      ⟨others.after, first.events ++ others.events, others.outcome⟩

/-- Writes the classes of a unit below a root directory. -/
def generate (fs : FileSystem) (u : CompilationUnit) (root : String) (dryRun : Bool) : Run Report :=
  let rendering := u.render
  match rendering.outcome with
  | .error e => ⟨fs, rendering.events, .error (.badTraits e)⟩
  | .ok controllers =>
    let dir := u.outputDir root
    let writing := fs.run (generationPlan dir dryRun controllers)
    ⟨writing.after, rendering.events ++ writing.events,
      writing.outcome.map fun _ => generationReport dir dryRun controllers⟩

end FileSystem

end ResourceStubs
