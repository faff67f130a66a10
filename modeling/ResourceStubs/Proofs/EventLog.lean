import Mathlib.Data.List.Forall2
import ResourceStubs.Proofs.Generation

/-!
# The events tell what was done

Rendering announces trait uses, endpoints and classes while it walks the forest, and a plan
announces files while it writes them. This module reads the work off the events.

A class has a block of events: those of the content of its resource, item by item, and then the
class itself with the number of endpoints announced before. A nested resource that stands in the
middle of the content adds nothing there; its own block comes after that of the resource around it.
So the events of a unit are the blocks of its places, one behind the other in preorder.

What an item or a class announces is stated without the walk (`CompilationUnit.Announces`,
`CompilationUnit.IsBlock`). The walk is then followed from inside out: the content of one resource
(`events_methods`), a resource with everything nested in it (`Resource.events_render`), the unit.
Behind the events of rendering come those of the plan, which apart from warnings announces its files
and then the end (`eventsAt_generationPlan`).
-/

namespace ResourceStubs

/-- The events of one level, in order. -/
def eventsAt (level : Level) (events : List Event) : List Event :=
  events.filter fun e => e.level = level

@[simp] lemma eventsAt_append (level : Level) (first second : List Event) :
    eventsAt level (first ++ second) = eventsAt level first ++ eventsAt level second :=
  List.filter_append ..

lemma eventsAt_eq_self {level : Level} {events : List Event} (h : ∀ e ∈ events, e.level = level) :
    eventsAt level events = events := by
  refine List.filter_eq_self.2 fun e he => ?_
  simp [h e he]

lemma eventsAt_eq_nil {level other : Level} {events : List Event} (hne : other ≠ level)
    (h : ∀ e ∈ events, e.level = other) : eventsAt level events = [] := by
  refine List.filter_eq_nil_iff.2 fun e he => ?_
  simp [h e he, hne]

/-- The event says that an endpoint became a method. -/
def Event.isEndpoint : Event → Bool
  | endpointRendered .. => true
  | _ => false

/-! ## Blocks -/

/-- The event of an endpoint below a resource: its route is that of the resource, followed by its
first path. -/
def Endpoint.event (e : Endpoint) (routePrefix : String) : Event :=
  .endpointRendered e.verb (routePrefix ++ e.primaryPath)

/-- The events of a content item. An endpoint has one, a nested resource none. A use has one with
the number of members of its trait, directly followed by those of the members. -/
inductive CompilationUnit.Announces (u : CompilationUnit) (routePrefix : String) :
    Content → List Event → Prop
  | endpoint (e : Endpoint) : u.Announces routePrefix (.endpoint e) [e.event routePrefix]
  | resource (r : Resource) : u.Announces routePrefix (.resource r) []
  | use {name : String} {t : Trait} (h : u.DeclaresOnly name t) :
    u.Announces routePrefix (.use name)
      (.traitExpanded name t.members.length :: t.members.map fun m => m.endpoint.event routePrefix)

/-- The events of the class of a resource: those of the content in order, then the class with the
number of endpoints among them. -/
def CompilationUnit.IsBlock (u : CompilationUnit) (r : Resource) (c : Controller)
    (block : List Event) : Prop :=
  ∃ parts, List.Forall₂ (u.Announces c.routePrefix) r.content parts ∧
    block = parts.flatten ++
      [.controllerRendered c.className (parts.flatten.countP Event.isEndpoint)]

/-- The events of a content item, where uses are looked up in the given traits. -/
def Content.events (traits : List Trait) (routePrefix : String) : Content → List Event
  | .endpoint e => [e.event routePrefix]
  | .resource _ => []
  | .use name =>
    let endpoints := Content.endpoints traits (.use name)
    .traitExpanded name endpoints.length :: endpoints.map (·.event routePrefix)

/-- The events of the class for a place of a unit. -/
def Node.events (u : CompilationUnit) (n : Node) : List Event :=
  n.resource.content.flatMap (Content.events u.traits (n.controller u).routePrefix) ++
    [.controllerRendered (n.controller u).className (n.resource.endpoints u.traits).length]

lemma TraitMember.event_stamped (m : TraitMember) (routePrefix : String) :
    m.stamped.event routePrefix = m.endpoint.event routePrefix := by
  rw [TraitMember.stamped]
  split <;> rfl

lemma countP_map_event (routePrefix : String) (endpoints : List Endpoint) :
    (endpoints.map (·.event routePrefix)).countP Event.isEndpoint = endpoints.length := by
  rw [List.countP_map, List.countP_eq_length]
  exact fun e _ => rfl

/-- A resource announces as many endpoints as it has. -/
lemma countP_events (traits : List Trait) (routePrefix : String) (content : List Content) :
    (content.flatMap (Content.events traits routePrefix)).countP Event.isEndpoint =
      (content.flatMap (Content.endpoints traits)).length := by
  induction content with
  | nil => rfl
  | cons item rest ih =>
    have hitem : (item.events traits routePrefix).countP Event.isEndpoint =
        (item.endpoints traits).length := by
      cases item with
      | endpoint e => rfl
      | resource r => rfl
      | use name => exact countP_map_event ..
    rw [List.flatMap_cons, List.flatMap_cons, List.countP_append, List.length_append, hitem, ih]

namespace CompilationUnit

variable {u : CompilationUnit}

/-- All traits that the places use are declared. -/
def DeclaresUses (u : CompilationUnit) (nodes : List Node) : Prop :=
  ∀ n ∈ nodes, ∀ name ∈ n.resource.uses, name ∈ u.traitNames

lemma announces_events (hdistinct : u.traitNames.Nodup) (routePrefix : String) {item : Content}
    (hitem : ∀ name, item.use? = some name → name ∈ u.traitNames) :
    u.Announces routePrefix item (item.events u.traits routePrefix) := by
  cases item with
  | endpoint e => exact .endpoint e
  | resource r => exact .resource r
  | use name =>
    obtain ⟨t, honly, hfind⟩ := exists_declaresOnly hdistinct (hitem name rfl)
    have hevents : Content.events u.traits routePrefix (.use name) =
        .traitExpanded name t.members.length :: t.members.map fun m =>
          m.endpoint.event routePrefix := by
      simp [Content.events, Content.endpoints, hfind, TraitMember.event_stamped]
    exact hevents ▸ .use honly

lemma isBlock_events (hdistinct : u.traitNames.Nodup) {n : Node}
    (huses : ∀ name ∈ n.resource.uses, name ∈ u.traitNames) :
    u.IsBlock n.resource (n.controller u) (n.events u) := by
  refine ⟨n.resource.content.map (Content.events u.traits (n.controller u).routePrefix), ?_, ?_⟩
  · refine List.forall₂_map_right_iff.2 (List.forall₂_same.2 fun item hitem => ?_)
    exact announces_events hdistinct _ fun name hname =>
      huses name (List.mem_filterMap.2 ⟨item, hitem, hname⟩)
  · rw [Node.events, Resource.endpoints, ← countP_events _ (n.controller u).routePrefix,
      List.flatMap_def]

end CompilationUnit

/-! ## The walk -/

namespace Traced

variable {ε α β : Type}

lemma events_bind {x : Traced ε α} {a : α} (h : x.outcome = .ok a) (f : α → Traced ε β) :
    (x >>= f).events = x.events ++ (f a).events := by
  change (x.andThen f).events = _
  unfold andThen
  rw [h]

/-- What is only made from a result announces nothing more. -/
lemma events_bind_pure (x : Traced ε α) (f : α → β) :
    (x >>= fun a => pure (f a)).events = x.events := by
  change (x.andThen fun a => pure (f a)).events = _
  unfold andThen
  split
  · rfl
  · exact List.append_nil _

end Traced

open Traced

lemma TraitTable.resolve_of_mem {table : TraitTable} {name : String}
    (h : name ∈ table.traits.map (·.name)) :
    table.resolve name =
      ⟨[.traitExpanded name (Content.endpoints table.traits (.use name)).length],
        .ok (Content.endpoints table.traits (.use name))⟩ := by
  unfold resolve get?
  cases hfind : table.traits.find? (·.name == name) with
  | none => exact absurd h (find?_name_eq_none_iff.1 hfind)
  | some t =>
    obtain ⟨-, rfl⟩ := mem_of_find?_name hfind
    simp only [Content.endpoints, hfind, Option.map_some, Option.getD_some, List.length_map]
    rfl

lemma events_renderEndpoints (segments : List String) (endpoints : List Endpoint) :
    (renderEndpoints segments endpoints).events =
      endpoints.map (·.event (String.join segments)) := by
  induction endpoints with
  | nil => rfl
  | cons e rest ih =>
    rw [renderEndpoints, events_bind rfl, events_bind_pure, ih]
    rfl

/-- The content of a resource announces its items in order, whatever stands between them. -/
lemma events_methods {table : TraitTable} (segments : List String) {content : List Content}
    (h : ∀ name ∈ content.filterMap Content.use?, name ∈ table.traits.map (·.name)) :
    (Resource.methods table segments content).events =
      content.flatMap (Content.events table.traits (String.join segments)) := by
  induction content with
  | nil => rfl
  | cons item rest ih =>
    rw [List.filterMap_cons] at h
    cases item with
    | endpoint e =>
      rw [Resource.methods, events_bind rfl, events_bind_pure, ih h]
      rfl
    | resource r =>
      rw [Resource.methods, ih h]
      rfl
    | use name =>
      obtain ⟨hname, hrest⟩ := List.forall_mem_cons.1 h
      rw [Resource.methods, TraitTable.resolve_of_mem hname, events_bind rfl,
        events_bind (outcome_renderEndpoints ..), events_bind_pure, events_renderEndpoints,
        ih hrest]
      rfl

lemma renderNodes_of_declaresUses {u : CompilationUnit} {nodes : List Node}
    (h : u.DeclaresUses nodes) :
    renderNodes u nodes = .ok (nodes.map (Node.controller u)) := by
  have hnames : ∀ name ∈ nodes.flatMap (·.resource.uses), name ∈ u.traits.map (·.name) := by
    intro name hname
    obtain ⟨n, hn, huse⟩ := List.mem_flatMap.1 hname
    exact h n hn name huse
  rw [renderNodes, checkUses_of_forall_mem hnames]
  rfl

mutual

/-- A resource announces its own block, then the blocks of everything nested in it. -/
lemma Resource.events_render (u : CompilationUnit) (address : List Nat) (ancestors : List String) :
    ∀ r : Resource,
      u.DeclaresUses (⟨address, ancestors, r⟩ ::
        forestNodes address (ancestors ++ [r.path]) 0 r.nested) →
      (Resource.render u.context ancestors r).events =
        (⟨address, ancestors, r⟩ :: forestNodes address (ancestors ++ [r.path]) 0 r.nested).flatMap
          (Node.events u)
  | .mk path annotations params content, h => by
    obtain ⟨hhere, hbelow⟩ := List.forall_mem_cons.1 h
    have huses :
        ∀ name ∈ content.filterMap Content.use?, name ∈ u.context.table.traits.map (·.name) := hhere
    have hmethods : (Resource.methods u.context.table (ancestors ++ [path]) content).outcome =
        .ok ((content.flatMap (Content.endpoints u.traits)).map
          (·.methodBlock (ancestors ++ [path]))) := by
      rw [outcome_methods, checkUses_of_forall_mem huses]
      rfl
    have hown : (Resource.methods u.context.table (ancestors ++ [path]) content).events =
        content.flatMap (Content.events u.traits (String.join ancestors ++ path)) := by
      rw [events_methods _ huses]
      simp [CompilationUnit.context]
    have hnested := events_renderContents u address (ancestors ++ [path]) 0 content hbelow
    rw [Resource.render, events_bind hmethods, events_bind rfl, events_bind_pure, hown, hnested,
      List.flatMap_cons, Node.events, List.append_assoc, List.length_map]
    rfl

lemma events_renderContents (u : CompilationUnit) (address : List Nat) (segments : List String) :
    ∀ (i : Nat) (content : List Content),
      u.DeclaresUses (forestNodes address segments i (content.filterMap Content.resource?)) →
      (renderContents u.context segments content).events =
        (forestNodes address segments i (content.filterMap Content.resource?)).flatMap
          (Node.events u)
  | i, [], _ => by
    rw [renderContents, List.filterMap_nil, forestNodes]
    rfl
  | i, .resource r :: rest, h => by
    rw [List.filterMap_cons] at h ⊢
    simp only [Content.resource?, forestNodes] at h ⊢
    obtain ⟨hfirst, hmore⟩ := List.forall_mem_append.1 h
    -- the walk goes on behind the nested resource, because nothing in it fails
    have houtcome := (Resource.outcome_render u (address ++ [i]) segments r).trans
      (renderNodes_of_declaresUses hfirst)
    have first := Resource.events_render u (address ++ [i]) segments r hfirst
    have more := events_renderContents u address segments (i + 1) rest hmore
    rw [renderContents, Content.render, events_bind houtcome, events_bind_pure, first, more,
      List.flatMap_append]
  | i, .endpoint e :: rest, h => by
    have more := events_renderContents u address segments i rest h
    rw [renderContents, Content.render, events_bind rfl, events_bind_pure, more]
    rfl
  | i, .use name :: rest, h => by
    have more := events_renderContents u address segments i rest h
    rw [renderContents, Content.render, events_bind rfl, events_bind_pure, more]
    rfl

end

lemma events_renderForest (u : CompilationUnit) (i : Nat) (resources : List Resource)
    (h : u.DeclaresUses (forestNodes [] [] i resources)) :
    (renderForest u.context resources).events =
      (forestNodes [] [] i resources).flatMap (Node.events u) := by
  induction resources generalizing i with
  | nil =>
    rw [forestNodes]
    rfl
  | cons r rest ih =>
    rw [forestNodes] at h ⊢
    obtain ⟨hfirst, hmore⟩ := List.forall_mem_append.1 h
    have houtcome := (Resource.outcome_render u [i] [] r).trans (renderNodes_of_declaresUses hfirst)
    have first := Resource.events_render u [i] [] r hfirst
    rw [renderForest, events_bind houtcome, events_bind_pure, ih (i + 1) hmore, List.flatMap_append]
    exact congrArg (· ++ _) first

/-- The events of a unit that renders are the blocks of its places. -/
lemma CompilationUnit.events_render {u : CompilationUnit} (hdistinct : u.traitNames.Nodup)
    (huses : u.DeclaresUses u.nodes) : u.render.events = u.nodes.flatMap (Node.events u) := by
  have htable : (ofExcept (TraitTable.ofList u.traits)).outcome = .ok ⟨u.traits⟩ := by
    rw [outcome_ofExcept, TraitTable.ofList, nodup_traitNames_iff.1 hdistinct]
  rw [render, events_bind htable]
  exact events_renderForest u 0 u.resources huses

/-! ## Generation -/

/-- The plan for classes announces the files it writes, and otherwise only warns. -/
lemma eventsAt_controllersSteps {level : Level} (hlevel : .warn ≠ level) (dir : String)
    (dryRun : Bool) (seen : List String) (out : List Controller) :
    eventsAt level ((controllersSteps dir dryRun seen out).filterMap Step.event?) =
      eventsAt level (if dryRun then [] else (out.map (·.path dir)).map .controllerWritten) := by
  induction out generalizing seen with
  | nil => cases dryRun <;> rfl
  | cons c rest ih =>
    have hwarning : eventsAt level
        ((if seen.contains c.className then
          [Step.announce (.classRepeated c.className c.routePrefix)]
          else []).filterMap Step.event?) = [] := by
      refine eventsAt_eq_nil hlevel ?_
      split
      · exact List.forall_mem_singleton.2 rfl
      · exact List.forall_mem_nil _
    rw [controllersSteps, controllerSteps, List.filterMap_append, List.filterMap_append,
      eventsAt_append, eventsAt_append, hwarning, List.nil_append, ih]
    cases dryRun with
    | true => rfl
    | false =>
      -- the file of this class comes before those of the rest
      exact (eventsAt_append level [_] _).symm

lemma eventsAt_generationPlan {level : Level} (hlevel : .warn ≠ level) (dir : String)
    (dryRun : Bool) (out : List Controller) :
    eventsAt level ((generationPlan dir dryRun out).filterMap Step.event?) =
      eventsAt level ((if dryRun then [] else (out.map (·.path dir)).map .controllerWritten) ++
        [.generationFinished dir out.length dryRun]) := by
  have hdir : (if dryRun then [] else [Step.createDirs dir]).filterMap Step.event? = [] := by
    cases dryRun <;> rfl
  rw [generationPlan, List.filterMap_append, List.filterMap_append, hdir, List.nil_append,
    eventsAt_append, eventsAt_append, eventsAt_controllersSteps hlevel]
  rfl

/-- Written files and the end are announced for information. -/
lemma level_eq_info {dir : String} {dryRun : Bool} {files : List String} {count : Nat} :
    ∀ e ∈ (if dryRun then [] else files.map Event.controllerWritten) ++
      [.generationFinished dir count dryRun],
      e.level = .info := by
  refine List.forall_mem_append.2 ⟨?_, List.forall_mem_singleton.2 rfl⟩
  cases dryRun with
  | true => exact List.forall_mem_nil _
  | false => exact List.forall_mem_map.2 fun _ _ => rfl

/-- Writing the classes adds no event for debugging, also when it stops early. -/
lemma FileSystem.eventsAt_debug_run (fs : FileSystem) (dir : String) (dryRun : Bool)
    (out : List Controller) :
    eventsAt .debug (fs.run (generationPlan dir dryRun out)).events = [] := by
  have hplan : eventsAt .debug ((generationPlan dir dryRun out).filterMap Step.event?) = [] := by
    rw [eventsAt_generationPlan (by decide)]
    exact eventsAt_eq_nil (by decide) level_eq_info
  have hprefix := (fs.events_run_prefix (generationPlan dir dryRun out)).filter fun e =>
    e.level = .debug
  exact List.prefix_nil.1 (hplan ▸ hprefix)

/-- The events tell what was done. Rendering announces one block per class, in the order of the
classes, and a generation announces nothing else for debugging. If rendering fails, there are no
other events. A generation that succeeds reports the files it has written, in order, and then how
many classes there are. -/
theorem CompilationUnit.events_tell_work (u : CompilationUnit) (fs : FileSystem) (root : String)
    (dryRun : Bool) :
    (∀ out, u.controllers = .ok out →
      ∃ blocks : List (List Event),
        u.render.events = blocks.flatten ∧
        eventsAt .debug (fs.generate u root dryRun).events = blocks.flatten ∧
        blocks.length = out.length ∧ u.nodes.length = out.length ∧
        ∀ (k : Nat) n c block, u.nodes[k]? = some n → out[k]? = some c → blocks[k]? = some block →
          u.IsBlock n.resource c block) ∧
      (∀ e, u.controllers = .error e →
        (fs.generate u root dryRun).events = u.render.events ∧
          ∀ event ∈ u.render.events, event.level = .debug) ∧
      ∀ report, (fs.generate u root dryRun).outcome = .ok report →
        eventsAt .info (fs.generate u root dryRun).events =
          (if dryRun then [] else report.files.map .controllerWritten) ++
            [.generationFinished report.outputDir report.files.length dryRun] := by
  refine ⟨fun out hout => ?_, fun e he => ?_, fun report hreport => ?_⟩
  · obtain ⟨hdistinct, hdeclared, rfl⟩ := controllers_eq_ok_iff.1 hout
    have huses : u.DeclaresUses u.nodes :=
      fun n hn name hname => hdeclared name (List.mem_flatMap.2 ⟨n, hn, hname⟩)
    have hevents : u.render.events = (u.nodes.map (Node.events u)).flatten := by
      rw [events_render hdistinct huses, List.flatMap_def]
    refine ⟨u.nodes.map (Node.events u), hevents, ?_, by simp, by simp,
      fun k n c block hn hc hblock => ?_⟩
    · rw [FileSystem.generate_of_controllers hout]
      dsimp only
      rw [eventsAt_append, FileSystem.eventsAt_debug_run, List.append_nil,
        eventsAt_eq_self u.onlyDebug_render, hevents]
    · rw [List.getElem?_map, hn] at hc hblock
      obtain rfl := Option.some.inj hc
      obtain rfl := Option.some.inj hblock
      exact isBlock_events hdistinct (huses n (List.mem_of_getElem? hn))
  · rw [FileSystem.generate_of_traitError he]
    exact ⟨rfl, u.onlyDebug_render⟩
  · obtain ⟨out, hout, rfl, hcompletes, -⟩ := FileSystem.generate_eq_ok hreport
    rw [FileSystem.generate_of_controllers hout]
    dsimp only
    rw [eventsAt_append, eventsAt_eq_nil (by decide) u.onlyDebug_render, List.nil_append,
      hcompletes.events, eventsAt_generationPlan (by decide), eventsAt_eq_self level_eq_info]
    simp only [generationReport, List.length_map]

/-- The library with a last resource that uses an undeclared trait. -/
def lendingUnit : CompilationUnit :=
  { libraryUnit with resources := libraryUnit.resources ++ [.mk "lendings" [] [] [.use "Lent"]] }

/-- The report on the library. -/
def libraryReport : Report where
  outputDir := "out/org/library"
  files := ["out/org/library/BooksController.java", "out/org/library/_isbn_Controller.java",
    "out/org/library/LoansController.java", "out/org/library/ReadersController.java"]
  dryRun := false

theorem events_tell_work_library :
    (∃ (out : List Controller) (blocks : List (List Event)), libraryUnit.controllers = .ok out ∧
      libraryUnit.render.events = blocks.flatten ∧
      eventsAt .debug (stockFiles.generate libraryUnit "out" false).events = blocks.flatten ∧
      blocks.length = out.length ∧ libraryUnit.nodes.length = out.length ∧
      ∀ (k : Nat) n c block, libraryUnit.nodes[k]? = some n → out[k]? = some c →
        blocks[k]? = some block →
        libraryUnit.IsBlock n.resource c block) ∧
      lendingUnit.controllers = .error (.unknown "Lent") ∧
      lendingUnit.render.events.length = 11 ∧
      (∀ event ∈ (stockFiles.generate lendingUnit "out" false).events, event.level = .debug) ∧
      (stockFiles.generate libraryUnit "out" false).outcome = .ok libraryReport ∧
      eventsAt .info (stockFiles.generate libraryUnit "out" false).events =
        [.controllerWritten "out/org/library/BooksController.java",
          .controllerWritten "out/org/library/_isbn_Controller.java",
          .controllerWritten "out/org/library/LoansController.java",
          .controllerWritten "out/org/library/ReadersController.java",
          .generationFinished "out/org/library" 4 false] := by
  obtain ⟨out, hout⟩ : ∃ out, libraryUnit.controllers = .ok out := ⟨_, rfl⟩
  have herror : lendingUnit.controllers = .error (.unknown "Lent") := rfl
  have hreport : (stockFiles.generate libraryUnit "out" false).outcome = .ok libraryReport := by
    decide +kernel
  obtain ⟨hblocks, -, hinfo⟩ := CompilationUnit.events_tell_work libraryUnit stockFiles "out" false
  obtain ⟨-, hfailed, -⟩ := CompilationUnit.events_tell_work lendingUnit stockFiles "out" false
  obtain ⟨blocks, hall⟩ := hblocks out hout
  obtain ⟨hsame, hdebug⟩ := hfailed _ herror
  exact ⟨⟨out, blocks, hout, hall⟩, herror, rfl, hsame ▸ hdebug, hreport,
    hinfo libraryReport hreport⟩

end ResourceStubs
