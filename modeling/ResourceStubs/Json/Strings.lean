import ResourceStubs.Json.Reading

/-!
# JSON strings

A string is read character by character from behind its opening quote. Characters beyond the basic
plane may be written as two escapes that form a surrogate pair; a surrogate outside a pair is an
error, except in values that are skipped.

An escape takes a varying number of characters off the text, so the recursion over the rest of a
string is not structural. Each reader of an escape comes with the lemma that it leaves less text
than it found, and `Json.stringTail` recurses on the length of the text by these lemmas.
-/

namespace ResourceStubs.Json

/-- The value of a hexadecimal digit. -/
def hexDigit (c : Char) : Option Nat :=
  if '0' ≤ c ∧ c ≤ '9' then some (c.toNat - '0'.toNat)
  else if 'a' ≤ c ∧ c ≤ 'f' then some (c.toNat - 'a'.toNat + 10)
  else if 'A' ≤ c ∧ c ≤ 'F' then some (c.toNat - 'A'.toNat + 10)
  else none

/-- The number of bytes that a text takes. -/
def byteCount (s : List Char) : Nat :=
  (String.ofList s).utf8ByteSize

/-- The four hexadecimal digits of an escape, and the text after them. Fewer than four bytes count
as an early end of the text, whatever they are. -/
def hexEscape (s : List Char) : Except Error (Nat × List Char) :=
  match s with
  | a :: b :: c :: d :: rest =>
    match hexDigit a, hexDigit b, hexDigit c, hexDigit d with
    | some a, some b, some c, some d => .ok (((a * 16 + b) * 16 + c) * 16 + d, rest)
    | _, _, _, _ => .error .invalidEscape
  | short => if byteCount short < 4 then .error .endInString else .error .invalidEscape

/-- The digits of an escape are taken off the text. -/
theorem hexEscape_length {s rest : List Char} {n : Nat} (h : hexEscape s = .ok (n, rest)) :
    rest.length < s.length := by
  unfold hexEscape at h
  split at h
  · split at h
    · simp only [Except.ok.injEq, Prod.mk.injEq] at h
      simp [← h.2]
      omega
    · cases h
  · split at h <;> cases h

/-- The trailing half of a surrogate pair, given the leading half. -/
def trailingSurrogate (lead : Nat) (s : List Char) : Except Error (Char × List Char) :=
  match s with
  | [] => .error .endInString
  | '\\' :: [] => .error .endInString
  | '\\' :: 'u' :: rest => do
    let (trail, rest) ← hexEscape rest
    if 0xDC00 ≤ trail ∧ trail ≤ 0xDFFF then
      return (Char.ofNat ((lead - 0xD800) * 0x400 + (trail - 0xDC00) + 0x10000), rest)
    else throw .loneSurrogate
  | _ => .error .unexpectedEndOfHexEscape

/-- The trailing half is taken off the text. -/
theorem trailingSurrogate_length {lead : Nat} {s rest : List Char} {c : Char}
    (h : trailingSurrogate lead s = .ok (c, rest)) : rest.length < s.length := by
  unfold trailingSurrogate at h
  split at h
  · cases h
  · cases h
  · rename_i tail
    cases hx : hexEscape tail with
    | error e => simp [hx, bind, Except.bind] at h
    | ok p =>
      obtain ⟨trail, more⟩ := p
      have hlen := hexEscape_length hx
      simp only [hx, bind, Except.bind, pure, Except.pure, throw, throwThe,
        MonadExceptOf.throw] at h
      split at h
      · simp only [Except.ok.injEq, Prod.mk.injEq] at h
        simp only [← h.2, List.length_cons]
        omega
      · cases h
  · cases h

/-- The character that an escape without digits stands for. -/
def shortEscape (c : Char) : Option Char :=
  match c with
  | '"' => some '"'
  | '\\' => some '\\'
  | '/' => some '/'
  | 'b' => some '\x08'
  | 'f' => some '\x0c'
  | 'n' => some '\n'
  | 'r' => some '\r'
  | 't' => some '\t'
  | _ => none

/-- The character that an escape stands for, from behind the backslash, and the text after the
escape. -/
def escape (s : List Char) : Except Error (Char × List Char) :=
  match s with
  | [] => .error .endInString
  | c :: rest =>
    match shortEscape c with
    | some d => .ok (d, rest)
    | none =>
      if c = 'u' then do
        let (n, rest) ← hexEscape rest
        if 0xDC00 ≤ n ∧ n ≤ 0xDFFF then throw .loneSurrogate
        else if 0xD800 ≤ n ∧ n ≤ 0xDBFF then trailingSurrogate n rest
        else return (Char.ofNat n, rest)
      else .error .invalidEscape

/-- An escape is taken off the text. -/
theorem escape_length {s rest : List Char} {c : Char} (h : escape s = .ok (c, rest)) :
    rest.length < s.length := by
  unfold escape at h
  split at h
  · cases h
  · rename_i first tail
    split at h
    · simp only [Except.ok.injEq, Prod.mk.injEq] at h
      simp [← h.2]
    · split at h
      · cases hx : hexEscape tail with
        | error e => simp [hx, bind, Except.bind] at h
        | ok p =>
          obtain ⟨n, more⟩ := p
          have hlen := hexEscape_length hx
          simp only [hx, bind, Except.bind, pure, Except.pure, throw, throwThe,
            MonadExceptOf.throw] at h
          split at h
          · cases h
          · split at h
            · have := trailingSurrogate_length h
              simp only [List.length_cons]
              omega
            · simp only [Except.ok.injEq, Prod.mk.injEq] at h
              simp only [← h.2, List.length_cons]
              omega
      · cases h

/-- The rest of a string from behind its opening quote, and the text after its closing quote. -/
def stringTail (s : List Char) : Except Error (List Char × List Char) :=
  match s with
  | [] => .error .endInString
  | c :: rest =>
    if c = '"' then .ok ([], rest)
    else if c = '\\' then
      match _h : escape rest with
      | .error e => .error e
      | .ok (d, more) => (stringTail more).map fun p => (d :: p.1, p.2)
    else if c.toNat < 0x20 then .error .controlCharacter
    else (stringTail rest).map fun p => (c :: p.1, p.2)
termination_by s.length
decreasing_by
  · have := escape_length _h
    simp only [List.length_cons]
    omega
  · simp

/-- The string whose opening quote is next. -/
def quotedString : Read String := fun s =>
  (stringTail (s.drop 1)).map fun p => (String.ofList p.1, p.2)

end ResourceStubs.Json
