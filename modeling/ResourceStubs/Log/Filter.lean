import ResourceStubs.Log.Config
import ResourceStubs.Text.Blank

/-!
# Which events are shown

A filter is a list of directives. A directive is a level, for all events or for those whose target
starts with a given text. Of the directives that apply to an event the one with the longest text
decides; without any, the event is not shown. A later directive for the same text replaces an
earlier one.

The filter of a run (`Log.Filter.of`) starts from one of two bases. If the environment has
directives, all of them must be valid, or else they are dropped together and the level of the
configuration takes their place. The extra directives of the configuration are then added one by
one, and of these only the faulty ones are dropped, each with a warning.
-/

namespace ResourceStubs.Log

/-- A number in decimal digits, with or without a plus sign. -/
def numberOf (s : List Char) : Option Nat :=
  let digits := match s with
    | '+' :: rest => rest
    | _ => s
  if !digits.isEmpty && digits.all (fun c => '0' ≤ c && c ≤ '9') then
    some (digits.foldl (fun n c => n * 10 + (c.toNat - '0'.toNat)) 0)
  else none

/-- The verbosity up to which events are shown at a level that is given by name or number; zero
shows none. -/
def verbosityOf (name : String) : Option Nat :=
  match numberOf name.toList with
  | some n => if n ≤ Level.trace.verbosity then some n else none
  | none =>
    match lower name with
    | "off" => some 0
    | "error" => some Level.error.verbosity
    | "warn" => some Level.warn.verbosity
    | "info" => some Level.info.verbosity
    | "debug" => some Level.debug.verbosity
    | "trace" => some Level.trace.verbosity
    | _ => none

/-- A level for some events. -/
structure Directive where
  /-- What the target of an event must start with; nothing for all events. -/
  target : Option String
  /-- The verbosity up to which events are shown. -/
  verbosity : Nat
  deriving DecidableEq, Inhabited, Repr

namespace Directive

/-- Characters that a directive may start with. -/
def isStart (c : Char) : Bool :=
  c.isAlphanum || c == '-' || c == ':' || c == '_' || decide (0x80 ≤ c.toNat)

/-- The level behind an equals sign; no level shows everything. -/
def levelOf (s : List Char) : Option Nat :=
  if s.isEmpty then some Level.trace.verbosity else verbosityOf (String.ofList s)

/-- Whether what follows an opening bracket closes it and then states at most a level. Such
directives are about parts of a run that no event belongs to. -/
def closesBracket (s : List Char) : Bool :=
  match s.dropWhile (· != ']') with
  | [] => false
  | [_] => true
  | _ :: '=' :: level => (levelOf level).isSome
  | _ => false

/-- The directive that a text stands for: an error if it stands for none, nothing if it concerns no
event. -/
def ofText (text : String) : Except Unit (Option Directive) :=
  let s := Text.trimList text.toList
  let name := s.takeWhile fun c => c != '=' && c != '['
  match s.head? with
  | none => .ok none
  | some c =>
    if c != '[' && !isStart c then .error ()
    else
      match s.drop name.length with
      | [] =>
        match verbosityOf (String.ofList name) with
        | some verbosity => .ok (some ⟨none, verbosity⟩)
        | none => .ok (some ⟨some (String.ofList name), Level.trace.verbosity⟩)
      | '=' :: level =>
        match levelOf level with
        | some verbosity => .ok (some ⟨some (String.ofList name), verbosity⟩)
        | none => .error ()
      | _ :: rest => if closesBracket rest then .ok none else .error ()

/-- Whether a directive applies to events of a target. -/
def applies (d : Directive) (target : String) : Bool :=
  match d.target with
  | none => true
  | some start => start.toList.isPrefixOf target.toList

/-- How specific a directive is; one for all events is less specific than any other. -/
def weight (d : Directive) : Nat :=
  match d.target with
  | none => 0
  | some start => start.utf8ByteSize + 1

end Directive

/-- A list of directives. -/
abbrev Filter := List Directive

namespace Filter

/-- Adds a directive in place of an earlier one for the same events. -/
def add (filter : Filter) (d : Directive) : Filter :=
  filter.filter (·.target != d.target) ++ [d]

/-- The directive that decides about events of a target. -/
def deciding (filter : Filter) (target : String) : Option Directive :=
  (filter.filter (·.applies target)).foldl
    (fun best d =>
      match best with
      | none => some d
      | some b => if b.weight < d.weight then some d else some b)
    none

/-- Whether an event is shown. -/
def shows (filter : Filter) (event : Event) : Bool :=
  match filter.deciding event.target with
  | none => false
  | some d => decide (event.level.verbosity ≤ d.verbosity)

/-- The filter that a list of directives stands for, all of which must be valid; an empty list shows
errors only. -/
def ofTexts (texts : List String) : Option Filter :=
  match (texts.filter (!·.isEmpty)).mapM Directive.ofText with
  | .error () => none
  | .ok [] => some [⟨none, Level.error.verbosity⟩]
  | .ok directives => some (directives.filterMap id |>.foldl add [])

/-- The texts between commas. -/
def commaSeparated (s : String) : List String :=
  (s.toList.splitOn ',').map String.ofList

/-- The filter without extra directives: what the environment asks for, or else the level of the
configuration. -/
def base (env : Environment) (config : Config) : Filter :=
  let fallback : Filter := [⟨none, config.level.verbosity⟩]
  match env.lookup "RUST_LOG" with
  | none => fallback
  | some text => (ofTexts (commaSeparated text)).getD fallback

/-- The extra directives of a configuration, as they are written. -/
def extraTexts (config : Config) : List String :=
  match config.targetFilter with
  | none => []
  | some text => ((commaSeparated text).map Text.trim).filter (!·.isEmpty)

/-- Adds the directives that can be used. -/
def addTexts (filter : Filter) (texts : List String) : Filter :=
  texts.foldl
    (fun filter text =>
      match Directive.ofText text with
      | .ok (some d) => filter.add d
      | _ => filter)
    filter

/-- The filter of a run. -/
def of (env : Environment) (config : Config) : Filter :=
  (base env config).addTexts (extraTexts config)

/-- Warnings about directives that cannot be used. -/
def warnings (config : Config) : List String :=
  ((extraTexts config).filter fun text => !(Directive.ofText text).toBool).map
    ("Warning: Invalid log filter directive: " ++ ·)

end Filter

end ResourceStubs.Log
