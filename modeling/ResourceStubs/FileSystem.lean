import ResourceStubs.Path

/-!
# A file system

Directories and files without links, permissions or limits on space. The state is a finite map from
locations to entries; everything about it is said through the view `FileSystem.get`, in which the
root is always a directory.

Paths are walked entry by entry, so what is wrong with a path depends on how far the walk gets. A
name of two dots leads to the parent of the directory that was reached; an entry that is not there
is reported as missing, an entry that is a file as no directory. Before a walk starts the path as a
whole is checked for its length and for characters it may not hold.

All operations leave the state as it was if they fail, with one exception. `FileSystem.createDirs`
first tries the last directory, goes up as long as the one above is missing, and creates directories
on its way back; what it created before a failure stays. Its result is therefore an attempt, a state
with an outcome.
-/

namespace ResourceStubs

/-- What can go wrong with a file or a directory. -/
inductive FileError where
  | notFound
  | alreadyExists
  | notDirectory
  | isDirectory
  | nameTooLong
  /-- A path with a character that no path may hold. -/
  | nulInPath
  deriving DecidableEq, Inhabited, Repr

/-- The message of a file error. -/
def FileError.message : FileError → String
  | notFound => "No such file or directory (os error 2)"
  | alreadyExists => "File exists (os error 17)"
  | notDirectory => "Not a directory (os error 20)"
  | isDirectory => "Is a directory (os error 21)"
  | nameTooLong => "File name too long (os error 36)"
  | nulInPath => "file name contained an unexpected NUL byte"

/-- A place in the file system: the names on the way from the root, outermost first. -/
abbrev Location := List String

/-- What stands at a location. -/
inductive Entry where
  | dir
  | file (text : String)
  deriving DecidableEq, Inhabited, Repr

/-- The state of a file system. -/
structure FileSystem where
  /-- The entries other than the root, each location once. -/
  entries : List (Location × Entry) := []
  /-- Where relative paths start. -/
  workingDir : Location := []
  deriving DecidableEq, Inhabited, Repr

/-- Sets the entry of a location in a list of entries. -/
def setEntry (location : Location) (entry : Entry) :
    List (Location × Entry) → List (Location × Entry)
  | [] => [(location, entry)]
  | (l, e) :: rest =>
    if l = location then (l, entry) :: rest else (l, e) :: setEntry location entry rest

/-- The entry of a location that was just set. -/
theorem lookup_setEntry_self (location : Location) (entry : Entry)
    (entries : List (Location × Entry)) :
    (setEntry location entry entries).lookup location = some entry := by
  induction entries with
  | nil => simp [setEntry]
  | cons p rest ih =>
    obtain ⟨l, e⟩ := p
    unfold setEntry
    split
    · rename_i h
      simp [h]
    · rename_i h
      have differs : (location == l) = false := beq_false_of_ne (Ne.symm h)
      simp [List.lookup_cons, ih, differs]

/-- The entries of all other locations stay. -/
theorem lookup_setEntry_of_ne {location other : Location} (h : other ≠ location) (entry : Entry)
    (entries : List (Location × Entry)) :
    (setEntry location entry entries).lookup other = entries.lookup other := by
  have differs : (other == location) = false := beq_false_of_ne h
  induction entries with
  | nil => simp [setEntry, List.lookup_cons, differs]
  | cons p rest ih =>
    obtain ⟨l, e⟩ := p
    unfold setEntry
    split
    · rename_i hl
      subst hl
      simp [List.lookup_cons, differs]
    · simp [List.lookup_cons, ih]

namespace FileSystem

/-- What stands at a location. The root is always a directory. -/
def get (fs : FileSystem) (location : Location) : Option Entry :=
  if location = [] then some .dir else fs.entries.lookup location

/-- Puts an entry at a location. -/
def set (fs : FileSystem) (location : Location) (entry : Entry) : FileSystem :=
  { fs with entries := setEntry location entry fs.entries }

/-- Removes the entry at a location. -/
def erase (fs : FileSystem) (location : Location) : FileSystem :=
  { fs with entries := fs.entries.filter fun e => e.1 != location }

/-- An entry that was put somewhere stands there. -/
@[simp]
theorem get_set_self (fs : FileSystem) {location : Location} (h : location ≠ []) (entry : Entry) :
    (fs.set location entry).get location = some entry := by
  simp [get, set, h, lookup_setEntry_self]

/-- Putting an entry somewhere changes nothing elsewhere. -/
@[simp]
theorem get_set_of_ne (fs : FileSystem) {location other : Location} (h : other ≠ location)
    (entry : Entry) :
    (fs.set location entry).get other = fs.get other := by
  simp [get, set, lookup_setEntry_of_ne h]

/-! ## Following paths -/

/-- The number of bytes that a name may take. -/
def nameLimit : Nat := 255

/-- The number of bytes that a path may take. -/
def pathLimit : Nat := 4095

/-- Checks a path before it is followed. -/
def checkPath (path : String) : Except FileError Unit :=
  if path.toList.contains '\x00' then .error .nulInPath
  else if path.isEmpty then .error .notFound
  else if pathLimit < path.utf8ByteSize then .error .nameTooLong
  else .ok ()

/-- A path as it is followed. -/
structure Walk where
  /-- Whether it starts at the root. -/
  absolute : Bool
  /-- The names on the way, where a dot stands for the directory itself and two dots for its
  parent. -/
  names : List String
  /-- Whether it ends with a slash, so that it can only lead to a directory. -/
  slash : Bool
  deriving DecidableEq, Inhabited, Repr

/-- The way that a path describes. -/
def Walk.ofPath (path : String) : Walk where
  absolute := Path.isAbsolute path
  names := Path.names path
  slash := Path.endsWithSlash path

/-- Where a way starts. -/
def startOf (fs : FileSystem) (walk : Walk) : Location :=
  if walk.absolute then [] else fs.workingDir

/-- Goes from a directory to one of its entries, which must be there. -/
def step (fs : FileSystem) (here : Location) (name : String) : Except FileError Location :=
  if name = "." then .ok here
  else if name = ".." then .ok here.dropLast
  else if nameLimit < name.utf8ByteSize then .error .nameTooLong
  else if (fs.get (here ++ [name])).isSome then .ok (here ++ [name])
  else .error .notFound

/-- Follows names from a location; only directories can be passed through. -/
def walk (fs : FileSystem) : Location → List String → Except FileError Location
  | here, [] => .ok here
  | here, name :: rest =>
    if fs.get here = some .dir then do
      let next ← fs.step here name
      walk fs next rest
    else .error .notDirectory

/-- The directory that a way leads to without its last name, and that name; nothing for a way
without names. -/
def parentOf (fs : FileSystem) (walk : Walk) : Except FileError (Option (Location × String)) :=
  match walk.names.getLast? with
  | none => .ok none
  | some name => do
    let here ← fs.walk (fs.startOf walk) walk.names.dropLast
    if fs.get here = some .dir then return some (here, name) else throw .notDirectory

/-- Whether a way leads to a directory. -/
def isDirAt (fs : FileSystem) (walk : Walk) : Bool :=
  match fs.walk (fs.startOf walk) walk.names with
  | .ok location => fs.get location = some .dir
  | .error _ => false

/-! ## Operations -/

/-- The text of a file. -/
def readFile (fs : FileSystem) (path : String) : Except FileError String := do
  checkPath path
  let walk := Walk.ofPath path
  let location ← fs.walk (fs.startOf walk) walk.names
  match fs.get location with
  | some .dir => throw .isDirectory
  | some (.file text) => if walk.slash then throw .notDirectory else return text
  | none => throw .notFound

/-- Whether a name stands for a directory by itself. -/
def isDots (name : String) : Bool :=
  name == "." || name == ".."

/-- Writes a file; an old text is lost. -/
def writeFile (fs : FileSystem) (path text : String) : Except FileError FileSystem := do
  checkPath path
  let walk := Walk.ofPath path
  match ← fs.parentOf walk with
  | none => throw .isDirectory
  | some (here, name) =>
    if isDots name || walk.slash then throw .isDirectory
    if nameLimit < name.utf8ByteSize then throw .nameTooLong
    if fs.get (here ++ [name]) = some .dir then throw .isDirectory
    return fs.set (here ++ [name]) (.file text)

/-- Creates the directory at the end of a way. -/
def createDirAt (fs : FileSystem) (walk : Walk) : Except FileError FileSystem := do
  match ← fs.parentOf walk with
  | none => throw .alreadyExists
  | some (here, name) =>
    if isDots name then throw .alreadyExists
    if nameLimit < name.utf8ByteSize then throw .nameTooLong
    if (fs.get (here ++ [name])).isSome then throw .alreadyExists
    return fs.set (here ++ [name]) .dir

/-- Names without dots at their end, the last name first; a single dot of a relative way stays. -/
def trimDots (absolute : Bool) : List String → List String
  | [] => []
  | name :: rest =>
    if name = "." ∧ (absolute ∨ rest ≠ []) then trimDots absolute rest else name :: rest

/-- The way to the parent; none for the root. -/
def Walk.parent (walk : Walk) : Option Walk :=
  match trimDots walk.absolute walk.names.reverse with
  | [] => none
  | _ :: rest => some { walk with names := (trimDots walk.absolute rest).reverse, slash := false }

/-- A state after an attempt that may have failed half way. -/
structure Attempt where
  /-- The state after the attempt. -/
  after : FileSystem
  /-- Whether it succeeded. -/
  outcome : Except FileError Unit

/-- Creates a directory and all missing directories on the way to it, in at most so many steps.
Directories that were created before a failure stay. -/
def createDirsAt : Nat → FileSystem → Walk → Attempt
  | 0, fs, _ => ⟨fs, .ok ()⟩
  | steps + 1, fs, walk =>
    if walk.names.isEmpty && !walk.absolute then ⟨fs, .ok ()⟩
    else
      match fs.createDirAt walk with
      | .ok after => ⟨after, .ok ()⟩
      | .error .notFound =>
        match walk.parent with
        | none => ⟨fs, .error .notFound⟩
        | some parent =>
          let above := createDirsAt steps fs parent
          match above.outcome with
          | .error e => ⟨above.after, .error e⟩
          | .ok () =>
            match above.after.createDirAt walk with
            | .ok after => ⟨after, .ok ()⟩
            | .error e => ⟨above.after, if above.after.isDirAt walk then .ok () else .error e⟩
      | .error e => ⟨fs, if fs.isDirAt walk then .ok () else .error e⟩

/-- Creates a directory and all missing directories on the way to it. The empty path needs
nothing. -/
def createDirs (fs : FileSystem) (path : String) : Attempt :=
  if path.isEmpty then ⟨fs, .ok ()⟩
  else
    match checkPath path with
    | .error e => ⟨fs, .error e⟩
    | .ok () => createDirsAt ((Path.names path).length + 1) fs (Walk.ofPath path)

/-- Removes a file. -/
def removeFile (fs : FileSystem) (path : String) : Except FileError FileSystem := do
  checkPath path
  let walk := Walk.ofPath path
  let location ← fs.walk (fs.startOf walk) walk.names
  match fs.get location with
  | some (.file _) => return fs.erase location
  | some .dir => throw .isDirectory
  | none => throw .notFound

/-- The path of a location below a directory; none for any other location. -/
def pathBelow (dir location : Location) : Option String :=
  if location.take dir.length = dir ∧ dir.length < location.length then
    some ("/".intercalate (location.drop dir.length))
  else none

/-- An entry as it is listed: its path, with a slash behind a directory, and the text of a file. -/
def listed (dir : Location) (e : Location × Entry) : Option (String × Option String) :=
  (pathBelow dir e.1).map fun path =>
    match e.2 with
    | .dir => (path ++ "/", none)
    | .file text => (path, some text)

/-- All entries below the working directory, in the order of their paths. -/
def listing (fs : FileSystem) : List (String × Option String) :=
  (fs.entries.filterMap (listed fs.workingDir)).mergeSort fun a b => decide (a.1 ≤ b.1)

end FileSystem

end ResourceStubs
