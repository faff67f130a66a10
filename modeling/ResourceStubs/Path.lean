/-!
# File paths

Paths are texts with slashes. They are kept as they were written, because they are shown to the user
that way; what a path means is read off its components. Joining follows one rule: an absolute path
replaces what it is joined to.

Empty names and dots between slashes mean nothing and are no components, except for a dot at the
start of a relative path. The file name is the last component, if it is a name, and its extension is
what follows the last dot, unless that dot is the first character.
-/

namespace ResourceStubs.Path

/-- Absolute paths start with a slash. -/
def isAbsolute (path : String) : Bool :=
  path.toList.head? == some '/'

/-- Whether a path ends with a slash. -/
def endsWithSlash (path : String) : Bool :=
  path.toList.getLast? == some '/'

/-- A path below another. An absolute path stands for itself; joining an empty path leaves a slash
at the end. -/
def join (base path : String) : String :=
  if isAbsolute path then path
  else if base.isEmpty || endsWithSlash base then base ++ path
  else base ++ "/" ++ path

/-- A component of a path. -/
inductive Component where
  /-- The root of the file system. -/
  | root
  /-- The directory itself, which is kept only at the start of a relative path. -/
  | current
  /-- The parent directory. -/
  | parent
  /-- An entry of a directory. -/
  | name (text : String)
  deriving DecidableEq, Inhabited, Repr

/-- The texts between the slashes of a path, without empty ones. -/
def names (path : String) : List String :=
  ((path.toList.splitOn '/').filter (!·.isEmpty)).map String.ofList

/-- The component that a text between slashes stands for; a dot stands for none. -/
def Component.ofName (text : String) : Option Component :=
  if text = "." then none
  else if text = ".." then some .parent
  else some (.name text)

/-- The components of a path. -/
def components (path : String) : List Component :=
  let parts := names path
  let start :=
    if isAbsolute path then [.root]
    else if parts.head? = some "." then [.current]
    else []
  start ++ parts.filterMap Component.ofName

/-- The name of the file or directory that a path leads to, when its last component is a name. -/
def fileName (path : String) : Option String :=
  match (components path).getLast? with
  | some (.name text) => some text
  | _ => none

/-- What follows the last dot of the file name; a dot at its start does not count. -/
def extension (path : String) : Option String :=
  match fileName path with
  | none => none
  | some name =>
    let reversed := name.toList.reverse
    let tail := reversed.takeWhile (· != '.')
    match reversed.dropWhile (· != '.') with
    | [] => none
    | [_] => none
    | _ :: _ => some (String.ofList tail.reverse)

/-- The path from the root of the file system, seen from a working directory. Dots and repeated
slashes vanish; parent directories and a slash at the end are kept, and so are two slashes at the
start if they are not three. -/
def absolute (workingDir path : String) : String :=
  let base :=
    if isAbsolute path then
      if (path.toList.takeWhile (· == '/')).length = 2 then "//" else "/"
    else workingDir
  let full := ((names path).filter (· != ".")).foldl join base
  if endsWithSlash path then join full "" else full

end ResourceStubs.Path
