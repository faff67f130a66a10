/-!
# Type references

The types that parameters, bodies and results are declared with, and the text that stands for them
in generated code.

A wildcard without a bound still carries its `plus` flag, since documents record it, but its text
does not depend on the flag. The text of an array is the text of its element type followed by
brackets, with no parentheses, so an array of bounded wildcards reads like a wildcard bounded by an
array. Arguments are separated by a bare comma.

The text is defined on lists of characters, by mutual recursion over a type and the types of its
arguments.
-/

namespace ResourceStubs

/-- A reference to a type of the generated code. -/
inductive TypeRef where
  /-- A name, written as it is. -/
  | simple (name : String)
  /-- A generic type with its arguments, `raw<a,b>`. -/
  | generic (raw : String) (args : List TypeRef)
  /-- An array of some type, `of[]`. -/
  | array (of : TypeRef)
  /-- The unbounded wildcard, `?`. -/
  | anything (plus : Bool)
  /-- A wildcard bounded from above (`? extends bound`) when `plus` is set, else from below (`?
  super bound`). -/
  | bounded (plus : Bool) (bound : TypeRef)
  deriving Inhabited, Repr

namespace TypeRef

/-- A wildcard with an optional bound. -/
def wild (bound : Option TypeRef) (plus : Bool) : TypeRef :=
  match bound with
  | none => .anything plus
  | some bound => .bounded plus bound

/-- The words between the question mark of a bounded wildcard and its bound. -/
def boundWord (plus : Bool) : List Char :=
  if plus then " extends ".toList else " super ".toList

mutual

/-- The text of a type reference, as a list of characters. -/
def chars : TypeRef → List Char
  | .simple name => name.toList
  | .generic raw args => raw.toList ++ '<' :: argChars args ++ ['>']
  | .array of => of.chars ++ ['[', ']']
  | .anything _ => ['?']
  | .bounded plus bound => '?' :: boundWord plus ++ bound.chars

/-- The texts of type arguments with commas between them. -/
def argChars : List TypeRef → List Char
  | [] => []
  | arg :: rest => arg.chars ++ moreArgChars rest

/-- The texts of type arguments with a comma before each. -/
def moreArgChars : List TypeRef → List Char
  | [] => []
  | arg :: rest => ',' :: arg.chars ++ moreArgChars rest

end

/-- The text of a type reference. -/
def text (t : TypeRef) : String :=
  String.ofList t.chars

end TypeRef

end ResourceStubs
