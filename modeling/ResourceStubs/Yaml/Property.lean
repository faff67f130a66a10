import ResourceStubs.Yaml.Cursor
import ResourceStubs.Yaml.Token

/-!
# Anchors, tags and directives

The small tokens around values: names of anchors and aliases, tags, and the directives at the start
of a document. Each is read from the cursor up to a character that ends it, and what may end it
differs from token to token.

Tags may hold characters as escaped bytes. A tag is compared with known tags only, all of which are
ASCII, so escaped bytes of other characters all read as the replacement character. The bytes still
have to form a character, with as many bytes behind the first one as it announces.
-/

namespace ResourceStubs.Yaml

/-- Characters that may follow the name of an anchor directly. -/
def endsAnchor (s : List Char) : Bool :=
  endsWord s || s.head?.any fun c => c == '}' || "?:,]%@`".toList.contains c

/-- The name of an anchor or alias, from behind its indicator. -/
def anchorName (c : Cursor) : Except Error (String × Cursor) :=
  let (name, behind) := c.takeWhile isWordChar
  if name.isEmpty || !endsAnchor behind.rest then .error .badAnchor
  else .ok (String.ofList name, behind)

/-! ## Tags -/

/-- Characters of tags; a few more are allowed in a tag that is written in full. -/
def isUriChar (inFull : Bool) (c : Char) : Bool :=
  isWordChar c || ";/?:@&=+$.!~*'()%".toList.contains c || (inFull && ",[]".toList.contains c)

/-- The value of two hexadecimal digits. -/
def octet (a b : Char) : Option Nat :=
  let digit (c : Char) : Option Nat :=
    if '0' ≤ c ∧ c ≤ '9' then some (c.toNat - '0'.toNat)
    else if 'a' ≤ c ∧ c ≤ 'f' then some (c.toNat - 'a'.toNat + 10)
    else if 'A' ≤ c ∧ c ≤ 'F' then some (c.toNat - 'A'.toNat + 10)
    else none
  do return (← digit a) * 16 + (← digit b)

/-- The number of bytes of a character that starts with the given byte. -/
def octetCount (first : Nat) : Option Nat :=
  if first < 0x80 then some 1
  else if first / 0x20 = 6 then some 2
  else if first / 0x10 = 14 then some 3
  else if first / 8 = 30 then some 4
  else none

/-- The rest of the bytes of an escaped character, each of which must continue it; gives the text
behind them. -/
def trailingOctets : Nat → List Char → Option (List Char)
  | 0, s => some s
  | count + 1, s =>
    match s with
    | '%' :: a :: b :: rest =>
      match octet a b with
      | some n => if n / 0x40 = 2 then trailingOctets count rest else none
      | none => none
    | _ => none

/-- A character that is written as escaped bytes, and the text behind it. -/
def uriEscape (s : List Char) : Option (Char × List Char) :=
  match s with
  | '%' :: a :: b :: rest => do
    let first ← octet a b
    let count ← octetCount first
    let behind ← trailingOctets (count - 1) rest
    return (if count = 1 then Char.ofNat first else '\ufffd', behind)
  | _ => none

/-- The characters of a tag, in at most so many steps. -/
def uriChars (inFull : Bool) : Nat → List Char → Except Error (List Char × List Char)
  | 0, s => .ok ([], s)
  | steps + 1, s =>
    match s with
    | [] => .ok ([], [])
    | c :: rest =>
      if !isUriChar inFull c then .ok ([], s)
      else if c = '%' then
        match uriEscape s with
        | some (d, behind) => (uriChars inFull steps behind).map fun p => (d :: p.1, p.2)
        | none => .error .badTag
      else (uriChars inFull steps rest).map fun p => (c :: p.1, p.2)

/-- The characters of a tag and the position behind them. -/
def tagUri (inFull : Bool) (c : Cursor) : Except Error (List Char × Cursor) :=
  (uriChars inFull c.rest.length c.rest).map fun p => (p.1, c.advance (c.rest.length - p.2.length))

/-- The handle of a tag, from its exclamation mark on: the mark, a word, and another mark if there
is one. -/
def tagHandle (c : Cursor) : List Char × Cursor :=
  let (word, behind) := (c.advance 1).takeWhile isWordChar
  if behind.isAt '!' then ('!' :: word ++ ['!'], behind.advance 1) else ('!' :: word, behind)

/-- A tag, from its exclamation mark on. -/
def tagText (c : Cursor) : Except Error (TagText × Cursor) := do
  if (c.advance 1).isAt '<' then
    let (uri, behind) ← tagUri true (c.advance 2)
    if uri.isEmpty || !behind.isAt '>' then throw .badTag
    return (⟨"", String.ofList uri⟩, behind.advance 1)
  else
    let (handle, behind) := tagHandle c
    if handle.length ≥ 2 ∧ handle.getLast? = some '!' then
      let (uri, behind) ← tagUri false behind
      if uri.isEmpty then throw .badTag
      return (⟨String.ofList handle, String.ofList uri⟩, behind)
    else
      let (uri, behind) ← tagUri false behind
      let suffix := handle.drop 1 ++ uri
      if suffix.isEmpty then return (⟨"", "!"⟩, behind)
      return (⟨"!", String.ofList suffix⟩, behind)

/-- A tag with the check of what follows it: nothing, or a comma inside brackets. -/
def tagToken (inFlow : Bool) (c : Cursor) : Except Error (Token × Cursor) := do
  let (text, behind) ← tagText c
  if endsWord behind.rest || (inFlow && behind.isAt ',') then return (.tag text, behind)
  else throw .badTag

/-! ## Directives -/

/-- A number of at most nine digits. -/
def versionNumber (c : Cursor) : Except Error (Nat × Cursor) :=
  let (digits, behind) := c.takeWhile isDigit
  if digits.isEmpty || digits.length > 9 then .error .badDirective
  else .ok (digits.foldl (fun n d => n * 10 + (d.toNat - '0'.toNat)) 0, behind)

/-- The version that a directive states. -/
def versionDirective (c : Cursor) : Except Error (Token × Cursor) := do
  let (major, c) ← versionNumber (c.skipWhile isBlank)
  if !c.isAt '.' then throw .badDirective
  let (minor, c) ← versionNumber (c.advance 1)
  return (.versionDirective major minor, c)

/-- The handle and its meaning that a directive states. -/
def tagDirective (c : Cursor) : Except Error (Token × Cursor) := do
  let c := c.skipWhile isBlank
  if !c.isAt '!' then throw .badDirective
  let (handle, c) := tagHandle c
  if handle ≠ ['!'] ∧ handle.getLast? ≠ some '!' then throw .badDirective
  if !c.next.any isBlank then throw .badDirective
  let (uri, c) ← tagUri true (c.skipWhile isBlank)
  if uri.isEmpty || !endsWord c.rest then throw .badDirective
  return (.tagDirective (String.ofList handle) (String.ofList uri), c)

/-- A directive from its percent sign on, with the line break behind it. -/
def directiveToken (c : Cursor) : Except Error (Token × Cursor) := do
  let (name, c) := (c.advance 1).takeWhile isWordChar
  if name.isEmpty || !endsWord c.rest then throw .badDirective
  let (token, c) ←
    if name = "YAML".toList then versionDirective c
    else if name = "TAG".toList then tagDirective c
    else throw .badDirective
  match c.finishLine with
  | some c => return (token, c)
  | none => throw .badDirective

end ResourceStubs.Yaml
