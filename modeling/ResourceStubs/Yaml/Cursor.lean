import ResourceStubs.Yaml.Error

/-!
# Positions in a YAML document

Where a token starts decides what it means, so scanning keeps count of characters, lines and
columns. A `Yaml.Cursor` is a position with the text that follows it, and every step forward goes
through `Yaml.Cursor.advance` or `Yaml.Cursor.lineBreak`, which keep the counts.

Line breaks are carriage return, line feed, both together, next line, and the two separators; all
but the separators read as a line feed. A word or a line also ends where the text does.
-/

namespace ResourceStubs.Yaml

/-- Characters that a document may hold. -/
def isAllowed (c : Char) : Bool :=
  let n := c.toNat
  n == 0x09 || n == 0x0A || n == 0x0D || (0x20 ≤ n && n ≤ 0x7E) || n == 0x85 ||
    (0xA0 ≤ n && n ≤ 0xD7FF) ||
    (0xE000 ≤ n && n ≤ 0xFFFD) || (0x10000 ≤ n && n ≤ 0x10FFFF)

/-- Characters that end a line. -/
def isBreak (c : Char) : Bool :=
  c == '\n' || c == '\r' || c == '\u0085' || c == '\u2028' || c == '\u2029'

/-- Characters that stand between words of a line. -/
def isBlank (c : Char) : Bool :=
  c == ' ' || c == '\t'

/-- Characters of anchors, tag handles and directive names. -/
def isWordChar (c : Char) : Bool :=
  ('0' ≤ c && c ≤ '9') || ('a' ≤ c && c ≤ 'z') || ('A' ≤ c && c ≤ 'Z') || c == '_' || c == '-'

/-- The decimal digits. -/
def isDigit (c : Char) : Bool :=
  '0' ≤ c && c ≤ '9'

/-- Whether nothing but a blank, a line break or the end of the text comes next. -/
def endsWord : List Char → Bool
  | [] => true
  | c :: _ => isBlank c || isBreak c

/-- Whether a line break or the end of the text comes next. -/
def endsLine : List Char → Bool
  | [] => true
  | c :: _ => isBreak c

/-- A position in a document. -/
structure Cursor where
  /-- The text from here on. -/
  rest : List Char
  /-- The number of characters before. -/
  index : Nat := 0
  /-- The number of line breaks before. -/
  line : Nat := 0
  /-- The number of characters since the last line break. -/
  column : Nat := 0
  deriving Inhabited

namespace Cursor

/-- The next character. -/
def next (c : Cursor) : Option Char :=
  c.rest.head?

/-- Whether the given character comes next. -/
def isAt (c : Cursor) (ch : Char) : Bool :=
  c.rest.head? == some ch

/-- Moves on by some characters of the same line. -/
def advance (c : Cursor) (count : Nat) : Cursor :=
  { c with rest := c.rest.drop count, index := c.index + count, column := c.column + count }

/-- Takes the characters of the same line that satisfy a condition. -/
def takeWhile (c : Cursor) (p : Char → Bool) : List Char × Cursor :=
  let taken := c.rest.takeWhile p
  (taken, c.advance taken.length)

/-- Skips the characters of the same line that satisfy a condition. -/
def skipWhile (c : Cursor) (p : Char → Bool) : Cursor :=
  (c.takeWhile p).2

/-- Moves past a line break and gives the text it reads as; without a line break nothing happens. -/
def lineBreak (c : Cursor) : List Char × Cursor :=
  let past (count : Nat) : Cursor :=
    { rest := c.rest.drop count, index := c.index + count, line := c.line + 1, column := 0 }
  match c.rest with
  | '\r' :: '\n' :: _ => (['\n'], past 2)
  | ch :: _ =>
    if ch == '\u2028' || ch == '\u2029' then ([ch], past 1)
    else if isBreak ch then (['\n'], past 1)
    else ([], c)
  | [] => ([], c)

/-- Skips blanks, a comment and the line break behind them; none if something else stands there. -/
def finishLine (c : Cursor) : Option Cursor :=
  let c := c.skipWhile isBlank
  let c := if c.isAt '#' then c.skipWhile (!isBreak ·) else c
  if endsLine c.rest then some c.lineBreak.2 else none

/-- Whether a marker of three equal characters stands here, at the start of a line. -/
def isAtMarker (c : Cursor) (ch : Char) : Bool :=
  c.column == 0 && c.rest.take 3 == [ch, ch, ch] && endsWord (c.rest.drop 3)

/-- Whether a document starts or ends here. -/
def isAtDocumentMarker (c : Cursor) : Bool :=
  c.isAtMarker '-' || c.isAtMarker '.'

end Cursor

end ResourceStubs.Yaml
