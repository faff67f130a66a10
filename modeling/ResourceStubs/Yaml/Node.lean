import ResourceStubs.Yaml.Error
import ResourceStubs.Yaml.Token

/-!
# Trees of a YAML document

A document is a tree of scalars, sequences and mappings. Nodes may have an anchor and a tag, and an
alias stands for the node with its anchor. While the tree is being built aliases are names; later
they become numbers, and `Yaml.Node` has a parameter for the two.

The tree is read off the tokens by descent. What may stand as a node depends on its surroundings:
inside brackets there are no block collections, and only a member of a block mapping may be a
sequence without indentation of its own. A `Yaml.Place` says so. Tags are resolved on the way, by
the handles that the directives of the document declare.

The functions of the grammar call each other, with a bound on the number of steps. Every two steps
take a token, so the number of tokens bounds them.
-/

namespace ResourceStubs.Yaml

/-- What may stand before a value. -/
structure Properties where
  /-- The name of its anchor. -/
  anchor : Option String := none
  /-- Its tag, with the handle replaced by its meaning. -/
  tag : Option String := none
  deriving DecidableEq, Inhabited, Repr

/-- A tree, with aliases of some type. -/
inductive Node (Alias : Type) where
  /-- The node that an anchor names. -/
  | alias (target : Alias)
  /-- A text. -/
  | scalar (properties : Properties) (style : Style) (text : String)
  /-- A list of nodes. -/
  | sequence (properties : Properties) (items : List (Node Alias))
  /-- A list of keys with values. -/
  | mapping (properties : Properties) (entries : List (Node Alias × Node Alias))
  deriving Inhabited

/-- A plain scalar without text, which stands for a node that is left out. -/
def Node.empty {Alias : Type} (properties : Properties) : Node Alias :=
  .scalar properties .plain ""

/-! ## Reading from tokens -/

/-- A step that reads from the remaining tokens. -/
abbrev TokenReader (α : Type) := StateT (List Token) (Except Error) α

/-- The next token; behind the last one there are only more ends of the document. -/
def peekToken : TokenReader Token := do
  return (← get).headD .streamEnd

/-- Takes a token off the list. -/
def dropToken : TokenReader Unit :=
  modify (·.drop 1)

/-- The meanings of tag handles. -/
abbrev TagHandles := List (String × String)

/-- The meanings that need no directive. -/
def standardHandles : TagHandles :=
  [("!", "!"), ("!!", "tag:yaml.org,2002:")]

/-- A tag with its handle replaced. -/
def resolveTag (handles : TagHandles) (tag : TagText) : Except Error String :=
  if tag.handle.isEmpty then .ok tag.suffix
  else
    match handles.lookup tag.handle with
    | some meaning => .ok (meaning ++ tag.suffix)
    | none => .error .unknownTagHandle

/-- An anchor and a tag, in any order, each of them at most once. -/
def properties (handles : TagHandles) : TokenReader Properties := do
  match ← peekToken with
  | .anchor name =>
    dropToken
    match ← peekToken with
    | .tag text =>
      dropToken
      return { anchor := some name, tag := some (← resolveTag handles text) }
    | _ => return { anchor := some name }
  | .tag text =>
    dropToken
    match ← peekToken with
    | .anchor name =>
      dropToken
      return { anchor := some name, tag := some (← resolveTag handles text) }
    | _ => return { tag := some (← resolveTag handles text) }
  | _ => return {}

/-- Where a node stands. -/
structure Place where
  /-- Whether block collections may stand there. -/
  block : Bool
  /-- Whether a sequence without indentation of its own may stand there. -/
  indentless : Bool
  deriving DecidableEq, Inhabited, Repr

/-- The place of a document or of an entry of a block sequence. -/
def Place.entry : Place := ⟨true, false⟩

/-- The place of a key or a value of a block mapping. -/
def Place.member : Place := ⟨true, true⟩

/-- Any place inside brackets. -/
def Place.flow : Place := ⟨false, false⟩

mutual

/-- A node, in at most so many steps. -/
def node (handles : TagHandles) : Nat → Place → TokenReader (Node String)
  | 0, _ => throw .unexpectedToken
  | steps + 1, place => do
    match ← peekToken with
    | .alias name =>
      dropToken
      return .alias name
    | _ =>
      let props ← properties handles
      match ← peekToken with
      | .scalar style text =>
        dropToken
        return .scalar props style text
      | .flowSequenceStart =>
        dropToken
        return .sequence props (← flowItems handles steps true)
      | .flowMappingStart =>
        dropToken
        return .mapping props (← flowEntries handles steps true)
      | .blockEntry =>
        if place.indentless then return .sequence props (← indentlessItems handles steps)
        else if props = {} then throw .unexpectedToken
        else return .empty props
      | .blockSequenceStart =>
        if place.block then
          dropToken
          return .sequence props (← blockItems handles steps)
        else if props = {} then throw .unexpectedToken
        else return .empty props
      | .blockMappingStart =>
        if place.block then
          dropToken
          return .mapping props (← blockEntries handles steps)
        else if props = {} then throw .unexpectedToken
        else return .empty props
      | _ => if props = {} then throw .unexpectedToken else return .empty props

/-- The entries of a block sequence and its end. -/
def blockItems (handles : TagHandles) : Nat → TokenReader (List (Node String))
  | 0 => throw .unexpectedToken
  | steps + 1 => do
    match ← peekToken with
    | .blockEntry =>
      dropToken
      let item ← match ← peekToken with
        | .blockEntry => pure (.empty {})
        | .blockEnd => pure (.empty {})
        | _ => node handles steps .entry
      return item :: (← blockItems handles steps)
    | .blockEnd =>
      dropToken
      return []
    | _ => throw .unexpectedToken

/-- The entries of a sequence without indentation of its own, which ends before anything else. -/
def indentlessItems (handles : TagHandles) : Nat → TokenReader (List (Node String))
  | 0 => throw .unexpectedToken
  | steps + 1 => do
    match ← peekToken with
    | .blockEntry =>
      dropToken
      let item ← match ← peekToken with
        | .blockEntry => pure (.empty {})
        | .key => pure (.empty {})
        | .value => pure (.empty {})
        | .blockEnd => pure (.empty {})
        | _ => node handles steps .entry
      return item :: (← indentlessItems handles steps)
    | _ => return []

/-- A key or a value of a block mapping, which may be left out. -/
def blockMember (handles : TagHandles) : Nat → TokenReader (Node String)
  | 0 => throw .unexpectedToken
  | steps + 1 => do
    match ← peekToken with
    | .key => return .empty {}
    | .value => return .empty {}
    | .blockEnd => return .empty {}
    | _ => node handles steps .member

/-- The entries of a block mapping and its end. -/
def blockEntries (handles : TagHandles) : Nat → TokenReader (List (Node String × Node String))
  | 0 => throw .unexpectedToken
  | steps + 1 => do
    match ← peekToken with
    | .key =>
      dropToken
      let key ← blockMember handles steps
      let value ← match ← peekToken with
        | .value =>
          dropToken
          blockMember handles steps
        | _ => pure (.empty {})
      return (key, value) :: (← blockEntries handles steps)
    | .blockEnd =>
      dropToken
      return []
    | _ => throw .unexpectedToken

/-- The entries of a sequence in brackets and its end. An entry that starts like a key is a mapping
of its own. -/
def flowItems (handles : TagHandles) : Nat → Bool → TokenReader (List (Node String))
  | 0, _ => throw .unexpectedToken
  | steps + 1, first => do
    match ← peekToken with
    | .flowSequenceEnd =>
      dropToken
      return []
    | token =>
      if !first then
        if token = .flowEntry then dropToken else throw .unexpectedToken
      match ← peekToken with
      | .flowSequenceEnd =>
        dropToken
        return []
      | .key =>
        dropToken
        let item ← flowPair handles steps
        return item :: (← flowItems handles steps false)
      | _ =>
        let item ← node handles steps .flow
        return item :: (← flowItems handles steps false)

/-- A mapping with one entry that stands in a sequence in brackets, from behind its key indicator.
If the key is left out, the token in its place is passed over. -/
def flowPair (handles : TagHandles) : Nat → TokenReader (Node String)
  | 0 => throw .unexpectedToken
  | steps + 1 => do
    let key ← match ← peekToken with
      | .value => do
        dropToken
        pure (.empty {})
      | .flowEntry => do
        dropToken
        pure (.empty {})
      | .flowSequenceEnd => do
        dropToken
        pure (.empty {})
      | _ => node handles steps .flow
    let value ← match ← peekToken with
      | .value => do
        dropToken
        match ← peekToken with
        | .flowEntry => pure (.empty {})
        | .flowSequenceEnd => pure (.empty {})
        | _ => node handles steps .flow
      | _ => pure (.empty {})
    return .mapping {} [(key, value)]

/-- The entries of a mapping in brackets and its end. An entry without key indicator has no
value. -/
def flowEntries (handles : TagHandles) : Nat → Bool → TokenReader (List (Node String × Node String))
  | 0, _ => throw .unexpectedToken
  | steps + 1, first => do
    match ← peekToken with
    | .flowMappingEnd =>
      dropToken
      return []
    | token =>
      if !first then
        if token = .flowEntry then dropToken else throw .unexpectedToken
      match ← peekToken with
      | .flowMappingEnd =>
        dropToken
        return []
      | .key =>
        dropToken
        let key ← match ← peekToken with
          | .value => pure (.empty {})
          | .flowEntry => pure (.empty {})
          | .flowMappingEnd => pure (.empty {})
          | _ => node handles steps .flow
        let value ← match ← peekToken with
          | .value => do
            dropToken
            match ← peekToken with
            | .flowEntry => pure (.empty {})
            | .flowMappingEnd => pure (.empty {})
            | _ => node handles steps .flow
          | _ => pure (.empty {})
        return (key, value) :: (← flowEntries handles steps false)
      | _ =>
        let key ← node handles steps .flow
        return (key, .empty {}) :: (← flowEntries handles steps false)

end

/-! ## Documents -/

/-- What the directives of a document state. -/
structure Directives where
  /-- Whether a version was stated. -/
  hasVersion : Bool := false
  /-- The declared tag handles. -/
  handles : TagHandles := []
  deriving DecidableEq, Inhabited, Repr

/-- Adds a directive; only two versions are known, and nothing may be stated twice. -/
def Directives.add (d : Directives) : Token → Except Error Directives
  | .versionDirective major minor =>
    if !d.hasVersion && major == 1 && (minor == 1 || minor == 2) then
      .ok { d with hasVersion := true }
    else .error .badDirective
  | .tagDirective handle meaning =>
    if (d.handles.lookup handle).isSome then .error .badDirective
    else .ok { d with handles := d.handles ++ [(handle, meaning)] }
  | _ => .error .badDirective

/-- Whether a token is a directive. -/
def Token.isDirective : Token → Bool
  | .versionDirective _ _ => true
  | .tagDirective _ _ => true
  | _ => false

/-- Whether a token ends a document that has no content. -/
def Token.endsDocument : Token → Bool
  | .documentStart => true
  | .documentEnd => true
  | .streamEnd => true
  | token => token.isDirective

/-- The root of a document behind its start. -/
def documentContent (handles : TagHandles) (steps : Nat) : TokenReader (Node String) := do
  if (← peekToken).endsDocument then return .empty {} else node handles steps .entry

/-- The tree of a document, or none if there is no document at all. -/
def document (tokens : List Token) : Except Error (Option (Node String)) := do
  let steps := 2 * tokens.length + 2
  let directives ← (tokens.takeWhile Token.isDirective).foldlM Directives.add {}
  let handles := directives.handles ++ standardHandles
  let rest := tokens.dropWhile Token.isDirective
  let hasDirectives := decide (rest.length < tokens.length)
  match rest with
  | .streamEnd :: _ => if hasDirectives then throw .unexpectedToken else return none
  | .documentStart :: content => finish (← (documentContent handles steps).run content)
  | content =>
    if hasDirectives then throw .unexpectedToken
    else finish (← (node handles steps .entry).run content)
where
  /-- Checks that nothing follows a document but its end. -/
  finish (result : Node String × List Token) : Except Error (Option (Node String)) :=
    match result.2.dropWhile (· == .documentEnd) with
    | .streamEnd :: _ => .ok (some result.1)
    | _ => .error .severalDocuments

end ResourceStubs.Yaml
