import ResourceStubs.FileSystem
import ResourceStubs.Json.Error
import ResourceStubs.TraitTable
import ResourceStubs.Yaml.Error

/-!
# Why a run fails

A failure is a cause together with what was being done when it came up. The two are shown in
different ways, in one line or as a report with the cause below, so both forms are built from the
same layers of text (`Failure.layers`). Faulty traits are the exception with a single layer: their
message says everything.
-/

namespace ResourceStubs

/-- Why a run fails. -/
inductive Failure where
  /-- A unit cannot be read from its file. -/
  | unreadable (path : String) (cause : FileError)
  /-- A JSON file does not hold a unit. -/
  | malformedJson (path : String) (cause : Json.Error)
  /-- A YAML file does not hold a unit. -/
  | malformedYaml (path : String) (cause : Yaml.Error)
  /-- The traits of a unit do not fit together. -/
  | badTraits (cause : TraitError)
  /-- The output directory cannot be created. -/
  | noOutputDir (dir : String) (cause : FileError)
  /-- A class cannot be written. -/
  | unwritable (path : String) (cause : FileError)
  deriving DecidableEq, Inhabited, Repr

namespace Failure

/-- What was being done, and what went wrong with it. -/
def layers : Failure → List String
  | unreadable path cause => ["Failed to read RDL unit: " ++ path, cause.message]
  | malformedJson path cause => ["Failed to parse RDL unit: " ++ path, cause.message]
  | malformedYaml path cause => ["Failed to parse RDL unit: " ++ path, cause.message]
  | badTraits cause => [cause.message]
  | noOutputDir dir cause => ["Failed to create output directory " ++ dir, cause.message]
  | unwritable path cause => ["Failed to write " ++ path, cause.message]

/-- The message in one line. -/
def message (f : Failure) : String :=
  ": ".intercalate f.layers

/-- The message for the user. -/
def report (f : Failure) : String :=
  "Error: " ++ "\n\nCaused by:\n    ".intercalate f.layers

end Failure

end ResourceStubs
