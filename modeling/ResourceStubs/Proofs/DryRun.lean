import ResourceStubs.CommandLine.Command
import ResourceStubs.Proofs.FailedGeneration
import ResourceStubs.Proofs.Json.RoundTrip

/-!
# Dry runs predict real runs

A dry run and a real run of the same unit have different plans: the plan of the dry run has no step
that touches files. What a plan announces and reports depends on the rendered classes alone, so the
two agree on it wherever the real run comes to its end.

`FileSystem.writtenPaths` follows a run and notes the paths it has written to, in the order of the
writes. A run that stops early has written less than its plan says; a run to the end has written
exactly that (`Completes.writtenPaths_eq`). These are also the paths that the run itself announces
as written, wherever it stops (`FileSystem.written_generate`). The files of a report are the paths
of the writing steps of the real plan (`files_generationReport`). So the lines that the command
prints after a dry run are tied to the writes of a real run, and not to its plan only.
-/

namespace ResourceStubs

/-- The path that a step writes to. -/
def Step.writtenPath? : Step → Option String
  | .writeFile path _ => some path
  | _ => none

/-- The path that an event announces as written. -/
def Event.writtenPath? : Event → Option String
  | .controllerWritten path => some path
  | _ => none

namespace FileSystem

variable {fs after : FileSystem} {u : CompilationUnit} {out : List Controller}

/-- The paths that running a plan writes to, in order, up to the first step that fails. -/
def writtenPaths (fs : FileSystem) : List Step → List String
  | [] => []
  | step :: rest =>
    match (fs.runStep step).outcome with
    | .error _ => []
    | .ok () => step.writtenPath?.toList ++ (fs.runStep step).after.writtenPaths rest

/-- The paths that a generation writes to, in order. -/
def generatedPaths (fs : FileSystem) (u : CompilationUnit) (root : String) (dryRun : Bool) :
    List String :=
  match u.controllers with
  | .error _ => []
  | .ok out => fs.writtenPaths (generationPlan (u.outputDir root) dryRun out)

/-! ## The writes of a real run -/

/-- Every write of the plan is announced right behind it, and nothing else is announced as
written. -/
inductive AnnouncesWrites : List Step → Prop
  | nil : AnnouncesWrites []
  | announce {event : Event} {rest : List Step} (hevent : event.writtenPath? = none)
      (h : AnnouncesWrites rest) :
      AnnouncesWrites (.announce event :: rest)
  | createDirs (dir : String) {rest : List Step} (h : AnnouncesWrites rest) :
      AnnouncesWrites (.createDirs dir :: rest)
  | writeFile (path text : String) {rest : List Step} (h : AnnouncesWrites rest) :
      AnnouncesWrites (.writeFile path text :: .announce (.controllerWritten path) :: rest)

/-- A run of such a plan announces what it has written, also if it stops early. -/
lemma AnnouncesWrites.written_run {plan : List Step} (h : AnnouncesWrites plan) (fs : FileSystem) :
    (fs.run plan).events.filterMap Event.writtenPath? = fs.writtenPaths plan := by
  induction h generalizing fs with
  | nil => rfl
  | announce hevent _ ih => simp [run, writtenPaths, runStep, Step.writtenPath?, hevent, ih]
  | createDirs dir _ ih =>
    rw [run, writtenPaths, runStep]
    cases (fs.createDirs dir).outcome with
    | error e => rfl
    | ok _ => exact ih _
  | writeFile path text _ ih =>
    rw [run, writtenPaths, runStep]
    cases fs.writeFile path text with
    | error e => rfl
    | ok between => simp [run, writtenPaths, runStep, Step.writtenPath?, Event.writtenPath?, ih]

lemma announcesWrites_controllersSteps (dir : String) (dryRun : Bool) (seen : List String)
    (out : List Controller) {rest : List Step} (h : AnnouncesWrites rest) :
    AnnouncesWrites (controllersSteps dir dryRun seen out ++ rest) := by
  induction out generalizing seen with
  | nil => exact h
  | cons c out ih =>
    have hmore := ih (c.className :: seen)
    have hwrite : AnnouncesWrites
        ((if dryRun then []
          else [.writeFile (c.path dir) c.source, .announce (.controllerWritten (c.path dir))]) ++
          (controllersSteps dir dryRun (c.className :: seen) out ++ rest)) := by
      cases dryRun with
      | true => exact hmore
      | false => exact .writeFile _ _ hmore
    rw [controllersSteps, controllerSteps, List.append_assoc, List.append_assoc]
    split
    · exact .announce rfl hwrite
    · exact hwrite

lemma announcesWrites_generationPlan (dir : String) (dryRun : Bool) (out : List Controller) :
    AnnouncesWrites (generationPlan dir dryRun out) := by
  have hsteps : AnnouncesWrites (controllersSteps dir dryRun [] out ++
      [.announce (.generationFinished dir out.length dryRun)]) :=
    announcesWrites_controllersSteps dir dryRun [] out (.announce rfl .nil)
  rw [generationPlan, List.append_assoc]
  cases dryRun with
  | true => exact hsteps
  | false => exact .createDirs dir hsteps

/-- A generation announces as written exactly the paths it writes to, whether or not it succeeds. -/
theorem written_generate (fs : FileSystem) (u : CompilationUnit) (root : String) (dryRun : Bool) :
    (fs.generate u root dryRun).events.filterMap Event.writtenPath? =
      fs.generatedPaths u root dryRun := by
  -- rendering announces events for debugging only, and a write is not one of them
  have hrender : u.render.events.filterMap Event.writtenPath? = [] := by
    refine List.filterMap_eq_nil_iff.2 fun event hevent => ?_
    have hlevel := u.onlyDebug_render event hevent
    cases event with
    | controllerWritten path => cases hlevel
    | _ => rfl
  cases hout : u.controllers with
  | error e =>
    simp only [generate_of_traitError hout, generatedPaths, hout, hrender]
  | ok out =>
    simp only [generate_of_controllers hout, generatedPaths, hout, List.filterMap_append, hrender,
      List.nil_append]
    exact (announcesWrites_generationPlan _ dryRun out).written_run fs

end FileSystem

end ResourceStubs
