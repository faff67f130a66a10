import ResourceStubs.Yaml.Cursor

/-!
# Block scalars

A block scalar is a run of indented lines under a header. The header may fix the indentation and may
say what becomes of the line breaks at the end (`Yaml.Chomping`). Without a fixed indentation the
widest one up to the first line of text counts.

In a folded block a single line break between two lines that start with no blank reads as a blank.
Whether it does is known only when the next line starts, so the line break and the empty lines
behind it are held back until then.
-/

namespace ResourceStubs.Yaml

/-- What becomes of the line breaks at the end of a block. -/
inductive Chomping where
  /-- All are dropped. -/
  | strip
  /-- The first one is kept. -/
  | clip
  /-- All are kept. -/
  | keep
  deriving DecidableEq, Inhabited, Repr

/-- The header of a block. -/
structure BlockHeader where
  /-- What becomes of the line breaks at the end. -/
  chomping : Chomping := .clip
  /-- How much deeper than its surroundings the block is indented, if the header says so. -/
  indentation : Option Nat := none
  deriving DecidableEq, Inhabited, Repr

namespace BlockHeader

/-- The chomping that a character stands for. -/
def chompingOf (c : Char) : Option Chomping :=
  if c = '+' then some .keep else if c = '-' then some .strip else none

/-- Reads a digit for the indentation, which must not be zero. -/
def readIndentation (header : BlockHeader) (c : Cursor) : Except Error (BlockHeader × Cursor) :=
  match c.next with
  | some d =>
    if d = '0' then .error .badBlockHeader
    else if isDigit d then
      .ok ({ header with indentation := some (d.toNat - '0'.toNat) }, c.advance 1)
    else .ok (header, c)
  | none => .ok (header, c)

/-- Reads a header from behind the indicator, with the line break that ends it. -/
def read (c : Cursor) : Except Error (BlockHeader × Cursor) := do
  let (header, c) ←
    match c.next.bind chompingOf with
    | some chomping => readIndentation { chomping } (c.advance 1)
    | none => do
      let (header, c) ← readIndentation {} c
      match header.indentation, c.next.bind chompingOf with
      | some _, some chomping => pure ({ header with chomping }, c.advance 1)
      | _, _ => pure (header, c)
  match c.finishLine with
  | some c => return (header, c)
  | none => throw .badBlockHeader

end BlockHeader

/-- Whether a column still belongs to the indentation of a block; before the first line of text
every column does. -/
def inIndentation (indent : Option Nat) (column : Nat) : Bool :=
  match indent with
  | none => true
  | some n => decide (column < n)

/-- Skips indentation, as far as it goes on one line. -/
def skipIndentation (indent : Option Nat) (c : Cursor) : Cursor :=
  match indent with
  | none => c.skipWhile (· == ' ')
  | some n => c.advance ((c.rest.take (n - c.column)).takeWhile (· == ' ')).length

/-- Skips empty lines and the indentation of the next line, in at most so many steps. Gives the line
breaks that were skipped and the widest indentation that was seen. -/
def blockBreaks (indent : Option Nat) : Nat → Cursor → Nat → Except Error (List Char × Nat × Cursor)
  | 0, c, widest => .ok ([], widest, c)
  | steps + 1, c, widest =>
    let c := skipIndentation indent c
    let widest := max widest c.column
    if inIndentation indent c.column && c.isAt '\t' then .error .tabInIndentation
    else if c.next.any isBreak then
      (blockBreaks indent steps c.lineBreak.2 widest).map fun p => (c.lineBreak.1 ++ p.1, p.2)
    else .ok ([], widest, c)

/-- The lines of a block, with what remains at its end. -/
structure BlockText where
  /-- The text up to the last line of text. -/
  text : List Char
  /-- The line break behind that line. -/
  lastBreak : List Char
  /-- The line breaks of the empty lines that follow. -/
  emptyLines : List Char
  /-- The position behind the block. -/
  behind : Cursor

/-- The lines of a block, in at most so many steps, given the line break and the empty lines before
them and whether the line before them starts with a blank. -/
def blockLines (folded : Bool) (indent bound : Nat) :
    Nat → Cursor → List Char → List Char → Bool → Except Error BlockText
  | 0, c, lastBreak, emptyLines, _ => .ok ⟨[], lastBreak, emptyLines, c⟩
  | steps + 1, c, lastBreak, emptyLines, afterBlank =>
    if c.column = indent ∧ !c.rest.isEmpty then do
      let startsBlank := c.next.any isBlank
      let before :=
        if folded && lastBreak == ['\n'] && !afterBlank && !startsBlank then
          (if emptyLines.isEmpty then [' '] else emptyLines)
        else lastBreak ++ emptyLines
      let (line, c) := c.takeWhile (!isBreak ·)
      let (nextBreak, c) := c.lineBreak
      let (nextEmpty, _, c) ← blockBreaks (some indent) bound c 0
      let more ← blockLines folded indent bound steps c nextBreak nextEmpty startsBlank
      return { more with text := before ++ line ++ more.text }
    else .ok ⟨[], lastBreak, emptyLines, c⟩

/-- A block scalar from behind its indicator. The surroundings are indented up to the margin, which
is zero for a whole document. -/
def blockScalar (folded : Bool) (margin bound : Nat) (c : Cursor) :
    Except Error (List Char × Cursor) := do
  let (header, c) ← BlockHeader.read c
  let given := header.indentation.map (margin - 1 + ·)
  let (emptyLines, widest, c) ← blockBreaks given bound c 0
  let indent := given.getD (max widest (max margin 1))
  let block ← blockLines folded indent bound bound c [] emptyLines false
  let tail := match header.chomping with
    | .strip => []
    | .clip => block.lastBreak
    | .keep => block.lastBreak ++ block.emptyLines
  return (block.text ++ tail, block.behind)

end ResourceStubs.Yaml
