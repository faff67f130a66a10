import ResourceStubs.Json.Value
import ResourceStubs.Log.Config

/-!
# Events as text

An event has the same parts in both layouts: its level, its message and its fields in order. A line
of text shows them next to each other, with texts unquoted; a JSON value also names the part of the
program that the event comes from, and keeps counts and flags as what they are. If the configuration
asks for the place in the program, a mark stands for it, because that place is no property of the
event.
-/

namespace ResourceStubs.Log

/-- What stands for the place in the program that an event comes from. -/
def locationMark : String := "<loc>"

/-- An event as a line of text: its level, its message and its fields. -/
def prettyLine (config : Config) (e : Event) : String :=
  let location := if config.showLocation then locationMark ++ ": " else ""
  let fields := e.fields.map fun f => " " ++ f.1 ++ "=" ++ f.2.display
  e.level.text ++ " " ++ location ++ e.message ++ String.join fields

/-- The JSON value of a field. -/
def fieldJson : FieldValue → Json.Value
  | .text value => .string value
  | .count value => .int value
  | .flag value => .bool value

/-- An event as a JSON value. -/
def jsonLine (config : Config) (e : Event) : Json.Value :=
  let fields := ("message", .string e.message) :: e.fields.map fun f => (f.1, fieldJson f.2)
  let located := if config.showLocation then [("located", Json.Value.bool true)] else []
  .object ([("level", .string e.level.text), ("target", .string e.target),
    ("fields", .object fields)] ++ located)

/-- An event as the configuration lays it out. -/
def line (config : Config) (e : Event) : Json.Value :=
  match config.layout with
  | .pretty => .string (prettyLine config e)
  | .json => jsonLine config e

end ResourceStubs.Log
