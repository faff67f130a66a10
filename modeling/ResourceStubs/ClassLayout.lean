import ResourceStubs.Method

/-!
# The layout of a generated class

A class is laid out as a list of lines, each of which is then closed by a line feed. All sections
except the standard imports and the class itself may be missing, and a missing section leaves no
blank line behind. Methods are blocks of lines of their own, with a blank line behind each.

`ClassLayout` holds the contents of the sections and nothing about their arrangement, which is
decided by `ClassLayout.lines` alone. Bodies are opened at the end of a line and closed on a line of
their own, for methods as for classes.
-/

namespace ResourceStubs

/-- The parts of a generated class, all of them finished texts. -/
structure ClassLayout where
  /-- The package; an empty one has no package line. -/
  package : String := ""
  /-- The imports of the unit, which come before the standard ones. -/
  imports : List String := []
  /-- The lines of the class comment. -/
  docLines : List String := []
  /-- The marker lines above the class. -/
  annotations : List String := []
  /-- The name of the class. -/
  className : String := ""
  /-- The parameters of the whole resource, which are noted as comments. -/
  resourceParams : List String := []
  /-- The methods. -/
  methods : List MethodBlock := []
  deriving DecidableEq, Inhabited, Repr

/-- Imports that every class has. -/
def standardImports : List String :=
  ["org.springframework.web.bind.annotation.*", "org.springframework.http.HttpStatus",
    "java.util.*"]

/-- A doc comment at some indentation; no lines, no comment. -/
def docComment (indent : String) (lines : List String) : List String :=
  if lines.isEmpty then []
  else (indent ++ "/**") :: lines.map (fun line => indent ++ " * " ++ line) ++ [indent ++ " */"]

/-- How a body starts, at the end of a line. -/
def bodyStart : String :=
  " \x7b"

/-- How a body ends, on a line of its own. -/
def bodyEnd : String :=
  "\x7d"

/-- The lines of a method inside a class, with the blank line after it. -/
def MethodBlock.lines (m : MethodBlock) : List String :=
  docComment "    " m.docLines ++ m.markers.map ("    " ++ ·) ++
    ["    " ++ m.signature ++ bodyStart, "        " ++ m.body, "    " ++ bodyEnd, ""]

namespace ClassLayout

/-- The package line and the blank line below it. -/
def packageLines (package : String) : List String :=
  if package.isEmpty then [] else ["package " ++ package ++ ";", ""]

/-- The lines of a class. -/
def lines (c : ClassLayout) : List String :=
  packageLines c.package ++
    (c.imports ++ standardImports).map (fun name => "import " ++ name ++ ";") ++ [""] ++
    docComment "" c.docLines ++ c.annotations ++
    ["public class " ++ c.className ++ bodyStart, ""] ++
    c.resourceParams.map ("    // resource param " ++ ·) ++
    c.methods.flatMap MethodBlock.lines ++
    [bodyEnd]

/-- The text of a class: its lines, each closed by a line feed. -/
def source (c : ClassLayout) : String :=
  String.join (c.lines.map (· ++ "\n"))

end ClassLayout

end ResourceStubs
