import ResourceStubs.Event

/-!
# How events are shown

A configuration says down to which level events are shown, in which of two layouts, and whether they
say where in the program they come from. All of it can be stated in the environment; what is not
stated has a default.

Levels and layouts are given by name, and the case of a name does not count. The two differ in what
an unknown name means: for a level it means warnings, for a layout the one in plain lines. The name
of the level is kept as it was given, since it is looked at only when a filter is built.
-/

namespace ResourceStubs.Log

/-- How an event is written. -/
inductive Layout where
  /-- As a line of text. -/
  | pretty
  /-- As a JSON value. -/
  | json
  deriving DecidableEq, Inhabited, Repr

/-- The variables that a run sees. -/
abbrev Environment := List (String × String)

/-- A text with ASCII letters in lower case. All names that texts are compared with here are
ASCII. -/
def lower (s : String) : String :=
  String.ofList (s.toList.map Char.toLower)

/-- The layout that a name stands for. -/
def Layout.ofName (name : String) : Layout :=
  if lower name = "json" then .json else .pretty

/-- What is shown of events, and how. -/
structure Config where
  /-- The name of the level, as it was given. -/
  levelName : String := "warn"
  /-- How events are written. -/
  layout : Layout := .pretty
  /-- Directives that add to the level, separated by commas. -/
  targetFilter : Option String := none
  /-- Whether events say where in the program they come from. -/
  showLocation : Bool := false
  deriving DecidableEq, Inhabited, Repr

namespace Config

/-- The configuration that an environment states. -/
def ofEnvironment (env : Environment) : Config where
  levelName := (env.lookup "RDL_LOG_LEVEL").getD "warn"
  layout := ((env.lookup "RDL_LOG_FORMAT").map Layout.ofName).getD .pretty
  targetFilter := env.lookup "RDL_LOG_TARGET_FILTER"
  showLocation := env.lookup "RDL_LOG_INCLUDE_LOCATION" == some "true"

/-- The level of a configuration; a name that is not known stands for warnings. -/
def level (config : Config) : Level :=
  match lower config.levelName with
  | "trace" => .trace
  | "debug" => .debug
  | "info" => .info
  | "error" => .error
  | _ => .warn

end Config

end ResourceStubs.Log
