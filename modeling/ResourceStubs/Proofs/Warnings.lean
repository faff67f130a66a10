import ResourceStubs.Proofs.Plans
import ResourceStubs.Proofs.Rendering

/-!
# Who warns

The only warning of a generation is about a class whose name occurred before. Rendering announces
events for debugging only, whether or not it succeeds, and so never warns
(`CompilationUnit.onlyDebug_render`, `CompilationUnit.quiet_render`). A plan warns while it goes
through the classes with the list of names it has seen.

This module states the warnings of a plan without that list: class `i` is warned about when one of
the first `i` classes has its name. Exactly these classes are warned about, in a dry run as well
(`warnings_generationPlan`).
-/

namespace ResourceStubs

/-- The events that warn, in order. -/
def warnings (events : List Event) : List Event :=
  events.filter fun e => e.level = .warn

@[simp] lemma warnings_append (first second : List Event) :
    warnings (first ++ second) = warnings first ++ warnings second :=
  List.filter_append ..

/-! ## Rendering -/

namespace Traced

variable {ε α β : Type}

/-- The computation does not warn. -/
def Quiet (x : Traced ε α) : Prop :=
  warnings x.events = []

/-- The computation announces nothing above debugging. -/
def OnlyDebug (x : Traced ε α) : Prop :=
  ∀ e ∈ x.events, e.level = .debug

lemma OnlyDebug.quiet {x : Traced ε α} (h : x.OnlyDebug) : x.Quiet := by
  refine List.filter_eq_nil_iff.2 fun e he => ?_
  simp [h e he]

lemma onlyDebug_pure (a : α) : (pure a : Traced ε α).OnlyDebug :=
  List.forall_mem_nil _

lemma onlyDebug_ofExcept (x : Except ε α) : (ofExcept x).OnlyDebug :=
  List.forall_mem_nil _

lemma onlyDebug_announce {e : Event} (h : e.level = .debug) :
    (announce e : Traced ε Unit).OnlyDebug :=
  List.forall_mem_singleton.2 h

lemma OnlyDebug.bind {x : Traced ε α} {f : α → Traced ε β} (hx : x.OnlyDebug)
    (hf : ∀ a, (f a).OnlyDebug) :
    (x >>= f).OnlyDebug := by
  change (x.andThen f).OnlyDebug
  unfold andThen
  split
  · exact hx
  · rename_i a _
    exact List.forall_mem_append.2 ⟨hx, hf a⟩

end Traced

open Traced

lemma TraitTable.onlyDebug_resolve (table : TraitTable) (name : String) :
    (table.resolve name).OnlyDebug := by
  unfold resolve
  split
  · exact onlyDebug_ofExcept _
  · exact (onlyDebug_announce rfl).bind fun _ => onlyDebug_pure _

lemma Endpoint.onlyDebug_render (e : Endpoint) (segments : List String) :
    (e.render segments).OnlyDebug :=
  (onlyDebug_announce rfl).bind fun _ => onlyDebug_pure _

lemma onlyDebug_renderEndpoints (segments : List String) (endpoints : List Endpoint) :
    (renderEndpoints segments endpoints).OnlyDebug := by
  induction endpoints with
  | nil => exact onlyDebug_pure _
  | cons e rest ih =>
    exact (e.onlyDebug_render segments).bind fun _ => ih.bind fun _ => onlyDebug_pure _

lemma Resource.onlyDebug_methods (table : TraitTable) (segments : List String)
    (content : List Content) :
    (Resource.methods table segments content).OnlyDebug := by
  induction content with
  | nil => exact onlyDebug_pure _
  | cons item rest ih =>
    cases item with
    | endpoint e =>
      exact (e.onlyDebug_render segments).bind fun _ => ih.bind fun _ => onlyDebug_pure _
    | use name =>
      exact (table.onlyDebug_resolve name).bind fun endpoints =>
        (onlyDebug_renderEndpoints segments endpoints).bind fun _ => ih.bind fun _ =>
          onlyDebug_pure _
    | resource r => exact ih

mutual

lemma Resource.onlyDebug_render (context : RenderContext) (ancestors : List String) :
    ∀ r : Resource, (Resource.render context ancestors r).OnlyDebug
  | .mk path annotations params content => by
    have nested := onlyDebug_renderContents context (ancestors ++ [path]) content
    rw [Resource.render]
    exact (Resource.onlyDebug_methods _ _ _).bind fun _ => (onlyDebug_announce rfl).bind fun _ =>
      nested.bind fun _ => onlyDebug_pure _

lemma onlyDebug_renderContents (context : RenderContext) (segments : List String) :
    ∀ content : List Content, (renderContents context segments content).OnlyDebug
  | [] => by rw [renderContents]; exact onlyDebug_pure _
  | item :: rest => by
    have first := Content.onlyDebug_render context segments item
    have more := onlyDebug_renderContents context segments rest
    rw [renderContents]
    exact first.bind fun _ => more.bind fun _ => onlyDebug_pure _

lemma Content.onlyDebug_render (context : RenderContext) (segments : List String) :
    ∀ item : Content, (Content.render context segments item).OnlyDebug
  | .resource r => by rw [Content.render]; exact Resource.onlyDebug_render context segments r
  | .endpoint e => by rw [Content.render]; exact onlyDebug_pure _
  | .use name => by rw [Content.render]; exact onlyDebug_pure _

end

lemma onlyDebug_renderForest (context : RenderContext) (resources : List Resource) :
    (renderForest context resources).OnlyDebug := by
  induction resources with
  | nil => exact onlyDebug_pure _
  | cons r rest ih =>
    exact (r.onlyDebug_render context []).bind fun _ => ih.bind fun _ => onlyDebug_pure _

lemma CompilationUnit.onlyDebug_render (u : CompilationUnit) : u.render.OnlyDebug :=
  (onlyDebug_ofExcept _).bind fun _ => onlyDebug_renderForest _ u.resources

lemma CompilationUnit.quiet_render (u : CompilationUnit) : u.render.Quiet :=
  u.onlyDebug_render.quiet

/-! ## Plans -/

/-- The warnings that classes call for: one for every class whose name an earlier class has. -/
def repeatWarnings (out : List Controller) : List Event :=
  out.zipIdx.filterMap fun (c, i) =>
    if ∃ b ∈ out.take i, b.className = c.className then
      some (.classRepeated c.className c.routePrefix) else none

/-- Without warnings no class has the name of an earlier one. -/
lemma pairwise_of_repeatWarnings_eq_nil {out : List Controller} (h : repeatWarnings out = []) :
    out.Pairwise fun b c => b.className ≠ c.className := by
  refine List.pairwise_iff_getElem.2 fun i j hi hj hij hsame => ?_
  have hj' : (out[j], j) ∈ out.zipIdx := by simp [List.mem_zipIdx_iff_getElem?]
  have hnone := List.filterMap_eq_nil_iff.1 h (out[j], j) hj'
  have hearlier : ∃ b ∈ out.take j, b.className = out[j].className :=
    ⟨out[i], List.mem_take_iff_getElem.2 ⟨i, by omega, rfl⟩, hsame⟩
  exact absurd ((if_pos hearlier).symm.trans hnone) nofun

/-- The warnings among the steps of a plan. -/
def planWarnings (plan : List Step) : List Event :=
  warnings (plan.filterMap Step.event?)

lemma planWarnings_append (first second : List Step) :
    planWarnings (first ++ second) = planWarnings first ++ planWarnings second := by
  simp [planWarnings]

lemma planWarnings_controllerSteps (dir : String) (dryRun : Bool) (seen : List String)
    (c : Controller) :
    planWarnings (controllerSteps dir dryRun seen c) =
      if c.className ∈ seen then [.classRepeated c.className c.routePrefix] else [] := by
  have hfile : planWarnings
      (if dryRun then []
        else [.writeFile (c.path dir) c.source, .announce (.controllerWritten (c.path dir))]) =
      [] := by
    cases dryRun <;> rfl
  rw [controllerSteps, planWarnings_append, hfile, List.append_nil]
  by_cases hc : c.className ∈ seen
  · rw [if_pos (List.contains_iff_mem.2 hc), if_pos hc]
    rfl
  · rw [if_neg (mt List.contains_iff_mem.1 hc), if_neg hc]
    rfl

/-- The list of seen names is the invariant: it holds the names of the classes before the rest. -/
lemma planWarnings_controllersSteps (dir : String) (dryRun : Bool) (seen : List String)
    (before rest : List Controller)
    (hseen : ∀ name, name ∈ seen ↔ ∃ b ∈ before, b.className = name) :
    planWarnings (controllersSteps dir dryRun seen rest) =
      (rest.zipIdx before.length).filterMap fun (c, i) =>
        if ∃ b ∈ (before ++ rest).take i, b.className = c.className then
          some (.classRepeated c.className c.routePrefix)
        else none := by
  induction rest generalizing seen before with
  | nil => rfl
  | cons c rest ih =>
    have hnext : ∀ name, name ∈ c.className :: seen ↔ ∃ b ∈ before ++ [c], b.className = name := by
      intro name
      simp [hseen, or_and_right, exists_or, or_comm, eq_comm]
    have hrest := ih _ _ hnext
    rw [List.append_assoc, List.length_append] at hrest
    rw [controllersSteps, planWarnings_append, planWarnings_controllerSteps, hrest,
      List.zipIdx_cons, List.filterMap_cons]
    simp only [List.take_left, hseen]
    by_cases hc : ∃ b ∈ before, b.className = c.className
    · rw [if_pos hc, if_pos hc]
      rfl
    · rw [if_neg hc, if_neg hc]
      rfl

lemma warnings_generationPlan (dir : String) (dryRun : Bool) (out : List Controller) :
    planWarnings (generationPlan dir dryRun out) = repeatWarnings out := by
  have hdir : planWarnings (if dryRun then [] else [.createDirs dir]) = [] := by
    cases dryRun <;> rfl
  have hlast : planWarnings [.announce (.generationFinished dir out.length dryRun)] = [] := rfl
  have hsteps := planWarnings_controllersSteps dir dryRun [] [] out (by simp)
  rw [generationPlan, planWarnings_append, planWarnings_append, hdir, hlast, hsteps,
    List.append_nil]
  rfl

end ResourceStubs
