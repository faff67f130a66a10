import ResourceStubs.Endpoint

/-!
# Events

Every step of the work is announced by an event. Events are values: rendering and generation return
the events they announce, in order, next to their result, and what is shown of them is decided
elsewhere. Level, origin, message and fields are functions of the event, so no caller can choose
them.

`Traced` is the monad of computations that announce events and may fail. It pairs the events with
the outcome, so events announced before a failure are kept.
-/

namespace ResourceStubs

/-- How severe an event is, from the most severe to the least. -/
inductive Level where
  | error
  | warn
  | info
  | debug
  | trace
  deriving DecidableEq, Inhabited, Repr

namespace Level

/-- The name of a level. -/
def text : Level → String
  | error => "ERROR"
  | warn => "WARN"
  | info => "INFO"
  | debug => "DEBUG"
  | trace => "TRACE"

/-- The verbosity of a level: the more severe an event, the smaller its verbosity. -/
def verbosity : Level → Nat
  | error => 1
  | warn => 2
  | info => 3
  | debug => 4
  | trace => 5

end Level

/-- A field of an event. -/
inductive FieldValue where
  | text (value : String)
  | count (value : Nat)
  | flag (value : Bool)
  deriving DecidableEq, Inhabited, Repr

/-- The field value as plain text. -/
def FieldValue.display : FieldValue → String
  | .text value => value
  | .count value => toString value
  | .flag value => if value then "true" else "false"

/-- What can be announced. -/
inductive Event where
  /-- A unit was read from a file. -/
  | unitLoaded (path : String) (traits resources : Nat)
  /-- A trait use is about to be replaced by the members of the trait. -/
  | traitExpanded (name : String) (members : Nat)
  /-- An endpoint became a method. -/
  | endpointRendered (verb : Verb) (route : String)
  /-- A resource became a class. -/
  | controllerRendered (className : String) (methods : Nat)
  /-- A class name occurs again, so the later class replaces the earlier one. -/
  | classRepeated (className : String) (route : String)
  /-- A class was written to a file. -/
  | controllerWritten (path : String)
  /-- All classes are done. -/
  | generationFinished (dir : String) (controllers : Nat) (dryRun : Bool)
  deriving DecidableEq, Inhabited, Repr

namespace Event

/-- The level of an event. -/
def level : Event → Level
  | unitLoaded .. | traitExpanded .. | endpointRendered .. | controllerRendered .. => .debug
  | classRepeated .. => .warn
  | controllerWritten .. | generationFinished .. => .info

/-- The part of the program that announces an event. -/
def target : Event → String
  | unitLoaded .. => "rdl_codegen::ast::load"
  | traitExpanded .. => "rdl_codegen::generator::traits"
  | endpointRendered .. => "rdl_codegen::generator::endpoint"
  | controllerWritten .. => "rdl_codegen::generator::templates"
  | controllerRendered .. | classRepeated .. | generationFinished .. =>
    "rdl_codegen::generator::project::generate"

/-- The message of an event. -/
def message : Event → String
  | unitLoaded .. => "Loaded compilation unit"
  | traitExpanded .. => "Expanding trait use"
  | endpointRendered .. => "Rendered endpoint"
  | controllerRendered .. => "Rendered controller"
  | classRepeated .. =>
    "Controller class generated more than once; later resource overwrites earlier"
  | controllerWritten .. => "Generated controller"
  | generationFinished .. => "Controller generation finished"

/-- The fields of an event, in the order in which they are shown. -/
def fields : Event → List (String × FieldValue)
  | unitLoaded path traits resources =>
    [("path", .text path), ("traits", .count traits), ("resources", .count resources)]
  | traitExpanded name members => [("name", .text name), ("members", .count members)]
  | endpointRendered verb route => [("verb", .text verb.text), ("route", .text route)]
  | controllerRendered className methods =>
    [("class", .text className), ("methods", .count methods)]
  | classRepeated className route => [("class", .text className), ("route", .text route)]
  | controllerWritten path => [("path", .text path)]
  | generationFinished dir controllers dryRun =>
    [("output_dir", .text dir), ("controllers", .count controllers), ("dry_run", .flag dryRun)]

end Event

/-- A computation that announces events and may fail; events announced before a failure are kept. -/
structure Traced (ε : Type) (α : Type) where
  /-- The announced events, in order. -/
  events : List Event
  /-- The result. -/
  outcome : Except ε α

namespace Traced

/-- Announces one event. -/
def announce {ε : Type} (e : Event) : Traced ε Unit :=
  ⟨[e], .ok ()⟩

/-- A result that announces nothing. -/
def ofExcept {ε α : Type} (outcome : Except ε α) : Traced ε α :=
  ⟨[], outcome⟩

/-- Continues with a result; after a failure nothing more happens. -/
def andThen {ε α β : Type} (first : Traced ε α) (next : α → Traced ε β) : Traced ε β :=
  match first.outcome with
  | .error e => ⟨first.events, .error e⟩
  | .ok a =>
    let second := next a
    ⟨first.events ++ second.events, second.outcome⟩

instance {ε : Type} : Monad (Traced ε) where
  pure a := ⟨[], .ok a⟩
  bind := andThen

end Traced

end ResourceStubs
