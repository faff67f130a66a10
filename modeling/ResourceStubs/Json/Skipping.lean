import ResourceStubs.Json.Strings

/-!
# Values that nobody asks for

A record may have members that no reader knows. Their values must be JSON, but nothing is made of
them, so they may be nested to any depth, numbers may have any size, and surrogates need not come in
pairs.

Without a limit on nesting there is no bound to recurse on, so the three functions that skip values,
elements and members share a number of steps. `Json.skip` gives them twice the length of the text,
which they cannot use up: every step takes a character off the text or is the last one for its list
or object.
-/

namespace ResourceStubs.Json

/-- Skips the exponent of a number, from behind its mark. -/
def skipExponent (s : List Char) : Except Error (List Char) :=
  let s := match s with
    | '+' :: rest => rest
    | '-' :: rest => rest
    | rest => rest
  if s.head?.any isDigit then .ok (s.dropWhile isDigit) else .error .invalidNumber

/-- Skips the exponent of a number, if it has one. -/
def skipExponentOrEnd (s : List Char) : Except Error (List Char) :=
  match s with
  | 'e' :: rest => skipExponent rest
  | 'E' :: rest => skipExponent rest
  | _ => .ok s

/-- Skips a number from behind its sign. -/
def skipUnsigned (s : List Char) : Except Error (List Char) :=
  match s with
  | [] => .error .invalidNumber
  | c :: more =>
    if (c = '0' ∧ more.head?.any isDigit) ∨ ¬ isDigit c then .error .invalidNumber
    else
      match s.dropWhile isDigit with
      | '.' :: tail =>
        if tail.head?.any isDigit then skipExponentOrEnd (tail.dropWhile isDigit)
        else .error .invalidNumber
      | rest => skipExponentOrEnd rest

/-- Skips a number. -/
def skipNumber : Read Unit := fun s =>
  match s with
  | '-' :: rest => (skipUnsigned rest).map ((), ·)
  | _ => (skipUnsigned s).map ((), ·)

/-- Skips an escape from behind the backslash. -/
def skipEscape (s : List Char) : Except Error (List Char) :=
  match s with
  | [] => .error .endInString
  | c :: rest =>
    if (shortEscape c).isSome then .ok rest
    else if c = 'u' then (hexEscape rest).map (·.2)
    else .error .invalidEscape

/-- A skipped escape is taken off the text. -/
theorem skipEscape_length {s rest : List Char} (h : skipEscape s = .ok rest) :
    rest.length < s.length := by
  unfold skipEscape at h
  split at h
  · cases h
  · rename_i first tail
    split at h
    · cases h
      simp
    · split at h
      · cases hx : hexEscape tail with
        | error e => simp [hx, Except.map] at h
        | ok p =>
          have hlen := @hexEscape_length tail p.2 p.1 hx
          simp only [hx, Except.map, Except.ok.injEq] at h
          simp only [← h, List.length_cons]
          omega
      · cases h

/-- Skips the rest of a string from behind its opening quote. -/
def skipStringTail (s : List Char) : Except Error (List Char) :=
  match s with
  | [] => .error .endInString
  | c :: rest =>
    if c = '"' then .ok rest
    else if c = '\\' then
      match _h : skipEscape rest with
      | .error e => .error e
      | .ok more => skipStringTail more
    else if c.toNat < 0x20 then .error .controlCharacter
    else skipStringTail rest
termination_by s.length
decreasing_by
  · have := skipEscape_length _h
    simp only [List.length_cons]
    omega
  · simp

/-- Skips the string whose opening quote is next. -/
def skipString : Read Unit := fun s =>
  (skipStringTail (s.drop 1)).map ((), ·)

mutual

/-- Skips a value in at most so many steps. -/
def skipValue : Nat → Read Unit
  | 0 => throw .recursionLimit
  | steps + 1 => do
    match ← peek with
    | none => throw .endInValue
    | some 'n' => word "ull"
    | some 't' => word "rue"
    | some 'f' => word "alse"
    | some '"' => skipString
    | some '[' =>
      skipOne
      skipElements steps true
    | some '{' =>
      skipOne
      skipMembers steps true
    | some c => if c = '-' ∨ isDigit c then skipNumber else throw .expectedValue

/-- Skips the elements of a list and its closing bracket, in at most so many steps. -/
def skipElements : Nat → Bool → Read Unit
  | 0, _ => throw .recursionLimit
  | steps + 1, first => do
    match ← peek with
    | none => throw .endInList
    | some ']' => skipOne
    | some c =>
      if first then
        skipValue steps
        skipElements steps false
      else if c = ',' then
        skipOne
        skipValue steps
        skipElements steps false
      else throw .expectedListCommaOrEnd

/-- Skips the members of an object and its closing brace, in at most so many steps. -/
def skipMembers : Nat → Bool → Read Unit
  | 0, _ => throw .recursionLimit
  | steps + 1, first => do
    match ← peek with
    | none => throw .endInObject
    | some '}' => skipOne
    | some c =>
      if !first then
        if c = ',' then skipOne else throw .expectedObjectCommaOrEnd
      match ← peek with
      | some '"' => skipString
      | some _ => throw .keyMustBeString
      | none => throw .endInObject
      colon
      skipValue steps
      skipMembers steps false

end

/-- Skips one value. Every step takes a character off the text or is the last one for its list or
object, so twice the length of the text bounds their number. -/
def skip : Read Unit := fun s =>
  skipValue (2 * s.length + 1) s

end ResourceStubs.Json
