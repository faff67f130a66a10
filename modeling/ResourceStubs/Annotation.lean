/-!
# Annotations

An annotation has a name and a map of arguments. An argument map is a list of entries together with
the proof that its keys are strictly sorted by code point, so two annotations with the same
arguments are equal however the arguments were written down. Maps grow by `ArgMap.insert`, which
puts an entry at its place and keeps the invariant. The key of the positional argument is the empty
text, which comes before all others.

A `Literal` has two texts. `Literal.display` is the one for code, with quotes around texts;
`Literal.raw` is the bare one. A marker (`Annotation.text`) shows all arguments in the first form,
except that a sole positional argument is put in quotes whatever it is.

The annotation named `Doc` is special: it never becomes a marker in generated code. The first `Doc`
whose positional argument is a text supplies the lines of a doc comment.
-/

namespace ResourceStubs

/-- The value of an annotation argument. -/
inductive Literal where
  /-- A whole number of 64 bits. -/
  | int (value : Int64)
  /-- A text. -/
  | string (value : String)
  deriving DecidableEq, Inhabited, Repr

namespace Literal

/-- The value without quotes. -/
def raw : Literal → String
  | .int value => toString value.toInt
  | .string value => value

/-- The value as it stands in an argument list: texts are quoted, but their characters are written
as they are. -/
def display : Literal → String
  | .int value => toString value.toInt
  | .string value => "\"" ++ value ++ "\""

end Literal

/-- The entry for `key` set to `value` in a list of entries in key order. -/
def insertEntry (key : String) (value : Literal) : List (String × Literal) → List (String × Literal)
  | [] => [(key, value)]
  | (k, v) :: rest =>
    if key < k then (key, value) :: (k, v) :: rest
    else if k < key then (k, v) :: insertEntry key value rest
    else (key, value) :: rest

/-- Every entry after an insertion is the new one or an old one. -/
theorem mem_insertEntry {key : String} {value : Literal} {entries : List (String × Literal)}
    {e : String × Literal} (h : e ∈ insertEntry key value entries) :
    e = (key, value) ∨ e ∈ entries := by
  induction entries with
  | nil => exact Or.inl (by simpa [insertEntry] using h)
  | cons p rest ih =>
    obtain ⟨k, v⟩ := p
    unfold insertEntry at h
    split at h
    · simpa using h
    · split at h
      · rcases List.mem_cons.1 h with h | h
        · exact Or.inr (by simp [h])
        · rcases ih h with h | h
          · exact Or.inl h
          · exact Or.inr (by simp [h])
      · rcases List.mem_cons.1 h with h | h
        · exact Or.inl h
        · exact Or.inr (by simp [h])

/-- Insertion keeps the entries in key order. -/
theorem pairwise_insertEntry {key : String} {value : Literal} {entries : List (String × Literal)}
    (h : entries.Pairwise fun a b => a.1 < b.1) :
    (insertEntry key value entries).Pairwise fun a b => a.1 < b.1 := by
  induction entries with
  | nil => simp [insertEntry]
  | cons p rest ih =>
    obtain ⟨k, v⟩ := p
    obtain ⟨hk, hrest⟩ := List.pairwise_cons.1 h
    unfold insertEntry
    split
    · rename_i hlt
      refine List.pairwise_cons.2 ⟨?_, h⟩
      intro e he
      rcases List.mem_cons.1 he with rfl | he
      · exact hlt
      · exact String.lt_trans hlt (hk e he)
    · rename_i hge
      split
      · rename_i hlt
        refine List.pairwise_cons.2 ⟨?_, ih hrest⟩
        intro e he
        rcases mem_insertEntry he with rfl | he
        · exact hlt
        · exact hk e he
      · rename_i hle
        -- neither key is smaller, so they are equal and the new entry replaces the old one
        have same : key = k := String.le_antisymm (String.not_lt.1 hle) (String.not_lt.1 hge)
        exact List.pairwise_cons.2 ⟨same ▸ hk, hrest⟩

/-- A map from argument keys to values. -/
structure ArgMap where
  /-- The entries, one per key. -/
  entries : List (String × Literal)
  /-- Keys increase from entry to entry. -/
  sorted : entries.Pairwise fun a b => a.1 < b.1
  deriving Repr

namespace ArgMap

/-- The map without arguments. -/
def empty : ArgMap :=
  ⟨[], List.Pairwise.nil⟩

instance : Inhabited ArgMap :=
  ⟨empty⟩

/-- Sets an argument; an earlier value of the same key is lost. -/
def insert (m : ArgMap) (key : String) (value : Literal) : ArgMap :=
  ⟨insertEntry key value m.entries, pairwise_insertEntry m.sorted⟩

/-- The value of an argument. -/
def get? (m : ArgMap) (key : String) : Option Literal :=
  m.entries.lookup key

/-- The map of a list of entries, where later entries win. -/
def ofList (entries : List (String × Literal)) : ArgMap :=
  entries.foldl (fun m e => m.insert e.1 e.2) empty

end ArgMap

/-- A marker attached to a resource or an endpoint. -/
structure Annotation where
  /-- The name after the at sign. -/
  name : String
  /-- The arguments. -/
  args : ArgMap := .empty
  deriving Inhabited, Repr

namespace Annotation

/-- The name whose annotations become doc comments. -/
def docName : String :=
  "Doc"

/-- An annotation without arguments. -/
def marker (name : String) : Annotation :=
  { name }

/-- An annotation with one positional argument. -/
def positional (name : String) (value : Literal) : Annotation :=
  { name, args := ArgMap.empty.insert "" value }

/-- The annotation that turns into a doc comment. -/
def doc (text : String) : Annotation :=
  positional docName (.string text)

/-- Doc annotations never become markers. -/
def isDoc (a : Annotation) : Bool :=
  a.name == docName

/-- The positional argument, whose key is empty. -/
def positionalArg (a : Annotation) : Option Literal :=
  a.args.get? ""

/-- One entry of an argument list; the positional one has no key. -/
def entryText (e : String × Literal) : String :=
  if e.1.isEmpty then e.2.display else e.1 ++ "=" ++ e.2.display

/-- The marker of an annotation. A sole positional argument is always quoted, even a number. -/
def text (a : Annotation) : String :=
  match a.args.entries with
  | [] => "@" ++ a.name
  | [(key, value)] =>
    if key.isEmpty then "@" ++ a.name ++ "(\"" ++ value.raw ++ "\")"
    else "@" ++ a.name ++ "(" ++ entryText (key, value) ++ ")"
  | entries => "@" ++ a.name ++ "(" ++ ", ".intercalate (entries.map entryText) ++ ")"

/-- The markers of a list of annotations, in order. -/
def markers (annotations : List Annotation) : List String :=
  (annotations.filter (!·.isDoc)).map text

/-- The text of a doc annotation, when its positional argument is one. -/
def docText? (a : Annotation) : Option String :=
  if a.isDoc then
    match a.positionalArg with
    | some (.string s) => some s
    | _ => none
  else none

/-- Drops empty lines from the end of a list of lines, but never its last remaining line. -/
def dropBlankTail : List (List Char) → List (List Char)
  | [] => []
  | line :: rest =>
    match dropBlankTail rest with
    | [[]] => [line]
    | kept => line :: kept

/-- The lines of a doc text: it is cut at line feeds, and empty lines at the end are dropped while
another line is left. -/
def textLines (s : String) : List String :=
  (dropBlankTail (s.toList.splitOn '\n')).map String.ofList

/-- The doc comment of a list of annotations: the lines of the first doc annotation that carries a
text. -/
def docLines (annotations : List Annotation) : List String :=
  match annotations.findSome? docText? with
  | some s => textLines s
  | none => []

end Annotation

end ResourceStubs
