import ResourceStubs.Path

/-!
# Document formats by file name

Units are written in one of two formats, and nothing in a document says in which. The extension of
the file does: the two usual extensions of YAML mean YAML, and any other name, with or without an
extension, means JSON. Extensions are compared as they are, so upper case makes a difference.
-/

namespace ResourceStubs

/-- The formats that units are written in. -/
inductive UnitFormat where
  | yaml
  | json
  deriving DecidableEq, Inhabited, Repr

/-- The format of a file: YAML for its two usual extensions, JSON otherwise. -/
def UnitFormat.ofPath (path : String) : UnitFormat :=
  match Path.extension path with
  | some "yaml" => .yaml
  | some "yml" => .yaml
  | _ => .json

end ResourceStubs
