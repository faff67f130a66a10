import ResourceStubs.Yaml.Cursor

/-!
# Plain and quoted scalars

Plain and quoted scalars may run over several lines. What stands between two words then depends on
what was skipped between them: blanks on one line are kept, one line break reads as a blank, and of
several line breaks all but the first are kept. A `Yaml.Gap` gathers what was skipped since the last
word, and it is turned into text only if another word follows.

A plain scalar has no mark at its end. `Yaml.plainEnds` tells from the next characters whether it
goes on, which depends on whether it stands inside brackets and how far the next line is indented.

Every loop here takes a bound on its steps. A step takes at least one character, so the length of
the document is always enough.
-/

namespace ResourceStubs.Yaml

/-- What was skipped since the last character that counts. -/
inductive Gap where
  /-- Blanks on the same line. -/
  | blanks (text : List Char)
  /-- A line break, as it reads, and those after it. The first one is empty if it was escaped. -/
  | lines (first more : List Char)
  deriving DecidableEq, Inhabited, Repr

namespace Gap

/-- Nothing was skipped. -/
def none : Gap :=
  .blanks []

/-- Adds a blank; blanks after a line break do not count. -/
def addBlank (gap : Gap) (c : Char) : Gap :=
  match gap with
  | .blanks text => .blanks (text ++ [c])
  | .lines first more => .lines first more

/-- Adds a line break; blanks before the first one no longer count. -/
def addBreak (gap : Gap) (text : List Char) : Gap :=
  match gap with
  | .blanks _ => .lines text []
  | .lines first more => .lines first (more ++ text)

/-- Whether a line has ended. -/
def isMultiline : Gap → Bool
  | .blanks _ => false
  | .lines _ _ => true

/-- Whether anything was skipped. -/
def isEmpty : Gap → Bool
  | .blanks [] => true
  | _ => false

/-- What the skipped characters read as. -/
def text : Gap → List Char
  | .blanks text => text
  | .lines first more =>
    if first = ['\n'] then (if more.isEmpty then [' '] else more) else first ++ more

end Gap

/-! ## Quoted scalars -/

/-- The value of a hexadecimal digit. -/
def hexValue (c : Char) : Option Nat :=
  if '0' ≤ c ∧ c ≤ '9' then some (c.toNat - '0'.toNat)
  else if 'a' ≤ c ∧ c ≤ 'f' then some (c.toNat - 'a'.toNat + 10)
  else if 'A' ≤ c ∧ c ≤ 'F' then some (c.toNat - 'A'.toNat + 10)
  else none

/-- The value of hexadecimal digits. -/
def hexNumber (digits : List Char) : Option Nat :=
  digits.foldlM (fun n c => (hexValue c).map (n * 16 + ·)) 0

/-- The character with a code that is written in so many hexadecimal digits, with the number of
characters taken. -/
def codeEscape (count : Nat) (s : List Char) : Except Error (Char × Nat) :=
  let digits := s.take count
  match if digits.length = count then hexNumber digits else none with
  | some n =>
    if n < 0xD800 ∨ (0xDFFF < n ∧ n ≤ 0x10FFFF) then .ok (Char.ofNat n, count + 1)
    else .error .badEscape
  | none => .error .badEscape

/-- The character an escape stands for, from behind the backslash, and how many characters it takes
there. -/
def escapeCode : List Char → Except Error (Char × Nat)
  | '0' :: _ => .ok ('\x00', 1)
  | 'a' :: _ => .ok ('\x07', 1)
  | 'b' :: _ => .ok ('\x08', 1)
  | 't' :: _ => .ok ('\t', 1)
  | '\t' :: _ => .ok ('\t', 1)
  | 'n' :: _ => .ok ('\n', 1)
  | 'v' :: _ => .ok ('\x0b', 1)
  | 'f' :: _ => .ok ('\x0c', 1)
  | 'r' :: _ => .ok ('\r', 1)
  | 'e' :: _ => .ok ('\x1b', 1)
  | ' ' :: _ => .ok (' ', 1)
  | '"' :: _ => .ok ('"', 1)
  | '/' :: _ => .ok ('/', 1)
  | '\\' :: _ => .ok ('\\', 1)
  | 'N' :: _ => .ok ('\u0085', 1)
  | '_' :: _ => .ok ('\u00a0', 1)
  | 'L' :: _ => .ok ('\u2028', 1)
  | 'P' :: _ => .ok ('\u2029', 1)
  | 'x' :: s => codeEscape 2 s
  | 'u' :: s => codeEscape 4 s
  | 'U' :: s => codeEscape 8 s
  | _ => .error .badEscape

/-- A quoted scalar from behind its opening quote, after a gap, in at most so many steps. -/
def quotedTail (quote : Char) : Nat → Cursor → Gap → Except Error (List Char × Cursor)
  | 0, _, _ => .error .unclosedQuote
  | steps + 1, c, gap =>
    let add (ch : Char) (count : Nat) : Except Error (List Char × Cursor) :=
      (quotedTail quote steps (c.advance count) .none).map fun p => (gap.text ++ ch :: p.1, p.2)
    if c.isAtDocumentMarker then .error .markerInQuote
    else
      match c.rest with
      | [] => .error .unclosedQuote
      | ch :: more =>
        if isBlank ch then quotedTail quote steps (c.advance 1) (gap.addBlank ch)
        else if isBreak ch then quotedTail quote steps c.lineBreak.2 (gap.addBreak c.lineBreak.1)
        else if ch = quote then
          if quote = '\'' ∧ more.head? = some '\'' then add '\'' 2
          else .ok (gap.text, c.advance 1)
        else if quote = '"' ∧ ch = '\\' then
          if more.head?.any isBreak then
            (quotedTail quote steps (c.advance 1).lineBreak.2 (.lines [] [])).map fun p =>
              (gap.text ++ p.1, p.2)
          else
            match escapeCode more with
            | .ok (escaped, count) => add escaped (count + 1)
            | .error e => .error e
        else add ch 1

/-! ## Plain scalars -/

/-- Characters that end a plain scalar inside brackets. -/
def isFlowIndicator (c : Char) : Bool :=
  c == ',' || c == '[' || c == ']' || c == '{' || c == '}'

/-- Whether a plain scalar ends before the next character. -/
def plainEnds (inFlow : Bool) (margin : Nat) (c : Cursor) (gap : Gap) (ch : Char)
    (more : List Char) : Bool :=
  c.isAtDocumentMarker ||
    (!gap.isEmpty && (ch == '#' || (!inFlow && decide (c.column < margin)))) ||
    (ch == ':' && endsWord more) || (inFlow && isFlowIndicator ch)

/-- A plain scalar after a gap, in at most so many steps: its text, the position behind it and the
gap it ends with. Outside brackets it must be indented up to the margin. -/
def plainTail (inFlow : Bool) (margin : Nat) :
    Nat → Cursor → Gap → Except Error (List Char × Cursor × Gap)
  | 0, c, gap => .ok ([], c, gap)
  | steps + 1, c, gap =>
    match c.rest with
    | [] => .ok ([], c, gap)
    | ch :: more =>
      if isBlank ch then
        if gap.isMultiline ∧ c.column < margin ∧ ch = '\t' then .error .tabInIndentation
        else plainTail inFlow margin steps (c.advance 1) (gap.addBlank ch)
      else if isBreak ch then plainTail inFlow margin steps c.lineBreak.2
        (gap.addBreak c.lineBreak.1)
      else if inFlow ∧ ch = ':' ∧ more.head?.any (fun d => isFlowIndicator d || d == '?') then
        .error .ambiguousColon
      else if plainEnds inFlow margin c gap ch more then .ok ([], c, gap)
      else (plainTail inFlow margin steps (c.advance 1) .none).map fun p =>
        (gap.text ++ ch :: p.1, p.2)

end ResourceStubs.Yaml
