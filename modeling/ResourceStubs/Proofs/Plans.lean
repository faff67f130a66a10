import ResourceStubs.Generation
import ResourceStubs.Proofs.FileSystem

/-!
# Plans that run to their end

A plan stops at the first step that fails. `FileSystem.Completes` is the other case, as a relation
between the state before and the state after, and it takes a plan apart: a plan in two parts
completes through a state in between.

The events of such a run do not depend on the state. They are the events of the plan, in order; a
run that stops early announces the first of them.
-/

namespace ResourceStubs

/-- The event that a step announces. -/
def Step.event? : Step → Option Event
  | .announce event => some event
  | _ => none

namespace FileSystem

variable {fs after : FileSystem}

/-- The plan runs to its end and leaves the given state. -/
def Completes (fs : FileSystem) (plan : List Step) (after : FileSystem) : Prop :=
  (fs.run plan).outcome = .ok () ∧ (fs.run plan).after = after

@[simp] lemma completes_nil : fs.Completes [] after ↔ after = fs := by
  simp [Completes, run, eq_comm]

lemma completes_cons {step : Step} {rest : List Step} :
    fs.Completes (step :: rest) after ↔
      (fs.runStep step).outcome = .ok () ∧ (fs.runStep step).after.Completes rest after := by
  unfold Completes
  rw [run]
  dsimp only
  split <;> simp [*]

@[simp] lemma completes_announce {event : Event} {rest : List Step} :
    fs.Completes (.announce event :: rest) after ↔ fs.Completes rest after := by
  simp [completes_cons, runStep]

@[simp] lemma completes_createDirs {dir : String} {rest : List Step} :
    fs.Completes (.createDirs dir :: rest) after ↔
      (fs.createDirs dir).outcome = .ok () ∧ (fs.createDirs dir).after.Completes rest after := by
  rw [completes_cons, runStep]
  cases (fs.createDirs dir).outcome <;> simp [Except.mapError]

@[simp] lemma completes_writeFile {path text : String} {rest : List Step} :
    fs.Completes (.writeFile path text :: rest) after ↔
      ∃ between, fs.writeFile path text = .ok between ∧ between.Completes rest after := by
  rw [completes_cons, runStep]
  cases fs.writeFile path text <;> simp

lemma completes_append {first second : List Step} :
    fs.Completes (first ++ second) after ↔
      ∃ between, fs.Completes first between ∧ between.Completes second after := by
  induction first generalizing fs with
  | nil => simp
  | cons step rest ih => simp [completes_cons, ih, and_assoc]

lemma events_runStep (fs : FileSystem) (step : Step) :
    (fs.runStep step).events = step.event?.toList := by
  cases step with
  | announce event => rfl
  | createDirs dir => rfl
  | writeFile path text => rw [runStep]; split <;> rfl

lemma filterMap_event?_cons (step : Step) (rest : List Step) :
    (step :: rest).filterMap Step.event? = step.event?.toList ++ rest.filterMap Step.event? := by
  rw [List.filterMap_cons]
  cases step.event? <;> rfl

/-- A run to the end announces the events of the plan. -/
lemma Completes.events {plan : List Step} (h : fs.Completes plan after) :
    (fs.run plan).events = plan.filterMap Step.event? := by
  induction plan generalizing fs with
  | nil => rfl
  | cons step rest ih =>
    obtain ⟨hstep, hrest⟩ := completes_cons.1 h
    rw [run, filterMap_event?_cons]
    simp only [hstep, ih hrest, events_runStep]

/-- Any run announces the events of the plan, up to where it stops. -/
lemma events_run_prefix (fs : FileSystem) (plan : List Step) :
    (fs.run plan).events <+: plan.filterMap Step.event? := by
  induction plan generalizing fs with
  | nil => exact List.prefix_rfl
  | cons step rest ih =>
    rw [run, filterMap_event?_cons, ← events_runStep fs]
    dsimp only
    split
    · exact List.prefix_append ..
    · exact (List.prefix_append_right_inj _).2 (ih _)

end FileSystem

end ResourceStubs
