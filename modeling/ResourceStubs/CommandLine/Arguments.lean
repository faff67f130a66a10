import ResourceStubs.Log.Config

/-!
# The arguments of the command

The command takes two paths and a few options. Arguments are read one after the other into a
`CommandLine.Parsing`, which keeps the value that was read last apart from the ones that were
checked. That value is checked only when the next argument that is understood comes up, or at the
end; so an argument that is not understood is reported before a bad value right before it.

An option may stand anywhere among the paths and takes its value from behind an equals sign or from
the next argument. Behind a double dash everything is a path. Asking for help is a
`CommandLine.UsageError` like the others, but with an exit code of success.
-/

namespace ResourceStubs.CommandLine

/-- What the arguments ask for. -/
structure Arguments where
  /-- The file of the unit. -/
  input : String
  /-- The root directory of the classes. -/
  output : String
  /-- Whether to write nothing. -/
  dryRun : Bool := false
  /-- The name of the log level, which overrides the environment. -/
  logLevel : Option String := none
  deriving DecidableEq, Inhabited, Repr

/-- The configuration of logging: the environment first, then the option. -/
def Arguments.logConfig (a : Arguments) (env : Log.Environment) : Log.Config :=
  let config := Log.Config.ofEnvironment env
  { config with levelName := a.logLevel.getD config.levelName }

/-- What can be wrong with arguments. A request for help is among them, because it ends reading. -/
inductive UsageError where
  | helpRequested
  | unknownArgument
  /-- An empty path, or an option without its value. -/
  | invalidValue
  /-- A value for an option that takes none. -/
  | tooManyValues
  /-- An option that occurs twice. -/
  | repeatedOption
  /-- Paths that are missing, with the options that were given. -/
  | missingPaths (missing options : List String)
  deriving DecidableEq, Inhabited, Repr

/-- How usage texts name the two paths. -/
def pathNames : List String := ["<INPUT>", "<OUTPUT>"]

/-- The lines that explain the command. -/
def helpLines : List String :=
  ["Generate controller stubs from an RDL compilation unit",
   "",
   "Usage: rdl [OPTIONS] <INPUT> <OUTPUT>",
   "",
   "Arguments:",
   "  <INPUT>   Parsed RDL unit (`.yaml`/`.yml` for YAML, anything else as JSON)",
   "  <OUTPUT>  Root directory for generated sources; package segments are created below it",
   "",
   "Options:",
   "      --dry-run                Show which files would be written without writing them",
   "      --log-level <LOG_LEVEL>  Log level (trace, debug, info, warn, error); " ++
     "overrides RDL_LOG_LEVEL",
   "  -h, --help                   Print help"]

/-- The text that explains the command. -/
def helpText : String :=
  String.join (helpLines.map (· ++ "\n"))

namespace UsageError

/-- The exit code of the command. -/
def exitCode : UsageError → Nat
  | helpRequested => 0
  | _ => 2

/-- The last lines of every complaint. -/
def hint : String :=
  "\n\nFor more information, try '--help'.\n"

/-- The text for the user. -/
def message : UsageError → String
  | helpRequested => helpText
  | unknownArgument => "error: unexpected argument found" ++ hint
  | invalidValue => "error: a value is required" ++ hint
  | tooManyValues => "error: unexpected value for an option" ++ hint
  | repeatedOption => "error: an option cannot be used multiple times" ++ hint
  | missingPaths missing options =>
    "error: the following required arguments were not provided:" ++
      String.join (missing.map ("\n  " ++ ·)) ++
      "\n\nUsage: " ++ " ".intercalate ("rdl" :: options ++ pathNames) ++ hint

end UsageError

/-- A value that was read but not checked yet. -/
inductive Pending where
  | nothing
  /-- The level option, with its value if it was read. -/
  | logLevel (value : Option String)
  /-- A path. -/
  | path (value : String)
  deriving DecidableEq, Inhabited, Repr

/-- The state of reading arguments. -/
structure Parsing where
  /-- The checked paths, in order. -/
  paths : List String := []
  /-- The number of paths that were read. -/
  pathCount : Nat := 0
  /-- Whether the option for dry runs was given. -/
  dryRun : Bool := false
  /-- The log level, if it was given. -/
  logLevel : Option String := none
  /-- The given options as usage texts write them, in order. -/
  options : List String := []
  /-- A value that was read but not checked yet. -/
  pending : Pending := .nothing
  deriving DecidableEq, Inhabited, Repr

namespace Parsing

/-- Sets the log level, which may be given once. -/
def setLogLevel (p : Parsing) (value : String) : Except UsageError Parsing :=
  if p.logLevel.isSome then .error .repeatedOption
  else .ok { p with logLevel := some value, options := p.options ++ ["--log-level <LOG_LEVEL>"] }

/-- Sets the option for dry runs, which may be given once. -/
def setDryRun (p : Parsing) : Except UsageError Parsing :=
  if p.dryRun then .error .repeatedOption
  else .ok { p with dryRun := true, options := p.options ++ ["--dry-run"] }

/-- Checks the value that was read last. -/
def settle (p : Parsing) : Except UsageError Parsing :=
  let p' := { p with pending := .nothing }
  match p.pending with
  | .nothing => .ok p
  | .logLevel none => .error .invalidValue
  | .logLevel (some value) => p'.setLogLevel value
  | .path value =>
    if value.isEmpty then .error .invalidValue else .ok { p' with paths := p.paths ++ [value] }

/-- Reads a path; there are two of them. -/
def readPath (p : Parsing) (value : String) : Except UsageError Parsing :=
  if pathNames.length ≤ p.pathCount then .error .unknownArgument
  else do
    let p ← p.settle
    return { p with pathCount := p.pathCount + 1, pending := .path value }

/-- Reads an option by its long name, with the value behind its equals sign. -/
def readOption (p : Parsing) (name : String) (value : Option String) : Except UsageError Parsing :=
  match name, value with
  | "dry-run", none => do (← p.settle).setDryRun
  | "dry-run", some _ => .error .tooManyValues
  | "log-level", none => do return { ← p.settle with pending := .logLevel none }
  | "log-level", some value => do (← p.settle).setLogLevel value
  | "help", none => do
    let _ ← p.settle
    throw .helpRequested
  | "help", some _ => .error .tooManyValues
  | _, _ => .error .unknownArgument

/-- The name and the value of a long option. -/
def splitOption (s : List Char) : String × Option String :=
  let name := String.ofList (s.takeWhile (· != '='))
  match s.dropWhile (· != '=') with
  | [] => (name, none)
  | _ :: value => (name, some (String.ofList value))

/-- Reads one argument that stands before any double dash. -/
def readArgument (p : Parsing) (arg : String) : Except UsageError Parsing :=
  match arg.toList with
  | '-' :: '-' :: option => p.readOption (splitOption option).1 (splitOption option).2
  | '-' :: 'h' :: _ => p.readOption "help" none
  | '-' :: _ :: _ => .error .unknownArgument
  | _ =>
    if p.pending = .logLevel none then .ok { p with pending := .logLevel (some arg) }
    else p.readPath arg

/-- Reads all arguments. Behind a double dash there are only paths. -/
def readAll : Parsing → List String → Except UsageError Parsing
  | p, [] => p.settle
  | p, arg :: rest =>
    if arg = "--" then do
      let p ← rest.foldlM readPath p
      p.settle
    else do
      let p ← p.readArgument arg
      readAll p rest

end Parsing

/-- What a list of arguments asks for. -/
def Arguments.parse (args : List String) : Except UsageError Arguments := do
  let p ← Parsing.readAll {} args
  match p.paths with
  | input :: output :: _ => return { input, output, dryRun := p.dryRun, logLevel := p.logLevel }
  | given => throw (.missingPaths (pathNames.drop given.length) p.options)

end ResourceStubs.CommandLine
