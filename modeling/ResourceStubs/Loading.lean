import ResourceStubs.Failure
import ResourceStubs.Json.Reader
import ResourceStubs.UnitFormat
import ResourceStubs.UnitShape
import ResourceStubs.Yaml.Decoder

/-!
# Reading units

The shape of a unit is the same in every format, so `CompilationUnit.ofJson` and
`CompilationUnit.ofYaml` are one reader, run on two formats. The name of a file decides which one
its text goes to, and what goes wrong is reported with that name.

`CompilationUnit.load` starts from what came of reading the file and not from the file, so that the
program and the model of the file system share it. A unit that was read is announced with the number
of its traits and resources.
-/

namespace ResourceStubs

namespace CompilationUnit

/-- The unit that a JSON document describes. -/
def ofJson (text : String) : Except Json.Error CompilationUnit :=
  Json.read UnitShape.compilationUnit text

/-- The unit that a YAML document describes. -/
def ofYaml (text : String) : Except Yaml.Error CompilationUnit :=
  Yaml.read UnitShape.compilationUnit text

/-- The unit that a file describes, whose name tells the format. -/
def ofFile (path text : String) : Except Failure CompilationUnit :=
  match UnitFormat.ofPath path with
  | .json => (ofJson text).mapError (.malformedJson path)
  | .yaml => (ofYaml text).mapError (.malformedYaml path)

/-- The event that announces a unit. -/
def loadedEvent (path : String) (u : CompilationUnit) : Event :=
  .unitLoaded path u.traits.length u.resources.length

/-- Reads a unit from the text of its file, or from the error of reading it, and announces it. -/
def load (path : String) (content : Except FileError String) : Traced Failure CompilationUnit := do
  let text ← Traced.ofExcept (content.mapError (.unreadable path))
  let u ← Traced.ofExcept (ofFile path text)
  .announce (u.loadedEvent path)
  return u

end CompilationUnit

end ResourceStubs
