namespace TxLoad.CommandLine

/-!
# Options and subcommands

The reading of command lines: options with a long name, a short letter or both, which take a value
or none, and subcommands.

* `OptionSpec` describes an option, `Grammar` the options and subcommands of a command;
* `Grammar.scan` reads arguments up to a subcommand and keeps what was given in a `Parse`.

A value that follows its option as an argument of its own is judged only when the next option is
read or the arguments end, so that a fault in the spelling of what follows comes first.
-/

/-- Why a command line is refused, or what it asks for in place of a run. -/
inductive Fault where
  | displayHelp
  | displayVersion
  /-- Nothing was given at all, which is answered with the help. -/
  | displayHelpOnMissing
  | missingSubcommand
  | invalidSubcommand
  | unknownArgument
  | missingRequiredArgument
  /-- A value is missing or not one of those possible. -/
  | invalidValue
  /-- A value does not have the form required. -/
  | valueValidation
  /-- An option that may be given once is given twice. -/
  | argumentConflict
  /-- An option without a value is given one. -/
  | tooManyValues
  deriving DecidableEq, Repr

/-- What an option does. A reader of values tells the fault of a value, if it has one. -/
inductive OptionKind where
  | flag
  | count
  | help
  | version
  | single (fault? : String → Option Fault)
  /-- Values separated by commas; the option may be given several times. -/
  | list (fault? : String → Option Fault)

def OptionKind.takesValue : OptionKind → Bool
  | single _ | list _ => true
  | _ => false

structure OptionSpec where
  /-- The name under which what was given is kept. -/
  name : String
  long : Option String
  short : Option Char
  kind : OptionKind

/-- The options of a command and the names of its subcommands. -/
structure Grammar where
  options : List OptionSpec
  subcommands : List String

/-- What was given so far: names of options with their values, in order, and an option whose value
    is still to come or still to be judged. -/
structure Parse where
  given : List (String × String) := []
  pending : Option (OptionSpec × Option String) := none

namespace Parse

/-- The values given to an option. -/
def values (p : Parse) (name : String) : List String :=
  p.given.filterMap fun g => if g.1 = name then some g.2 else none

def has (p : Parse) (name : String) : Bool := p.given.any (·.1 == name)

def add (p : Parse) (name value : String) : Parse :=
  { p with given := p.given ++ [(name, value)] }

/-- Takes an option that may be given once. -/
def addOnce (p : Parse) (name value : String) (fault : Option Fault) : Except Fault Parse :=
  -- A second value is refused before anybody looks at it.
  if p.has name then .error .argumentConflict
  else
    match fault with
    | some f => .error f
    | none => .ok (p.add name value)

/-- Takes an option with its value, which is empty for an option without one. -/
def apply (p : Parse) (spec : OptionSpec) (value : String) : Except Fault Parse :=
  match spec.kind with
  | .flag => p.addOnce spec.name value none
  | .count => .ok (p.add spec.name value)
  | .help => .error .displayHelp
  | .version => .error .displayVersion
  | .single fault? => p.addOnce spec.name value (fault? value)
  | .list fault? =>
    (value.splitOn ",").foldlM (fun p v =>
      match fault? v with
      | some f => .error f
      | none => .ok (p.add spec.name v)) p

/-- Judges the value of the pending option, which must have come. -/
def settle (p : Parse) : Except Fault Parse :=
  match p.pending with
  | none => .ok p
  -- The next option came in place of the value.
  | some (_, none) => .error .invalidValue
  | some (spec, some value) => { p with pending := none }.apply spec value

/-- Takes an option that needs no further argument. -/
def take (p : Parse) (spec : OptionSpec) (value : String) : Except Fault Parse :=
  p.settle.bind fun p => p.apply spec value

/-- Takes an option whose value is to follow. -/
def expect (p : Parse) (spec : OptionSpec) : Except Fault Parse :=
  p.settle.map fun p => { p with pending := some (spec, none) }

/-- The option whose value is the next argument. -/
def awaiting? (p : Parse) : Option OptionSpec :=
  match p.pending with
  | some (spec, none) => some spec
  | _ => none

end Parse

namespace Grammar

def findLong? (g : Grammar) (name : String) : Option OptionSpec :=
  g.options.find? (·.long == some name)

def findShort? (g : Grammar) (c : Char) : Option OptionSpec :=
  g.options.find? (·.short == some c)

/-- Reads an argument of the form `--name` or `--name=value`, without its dashes. -/
def takeLong (g : Grammar) (p : Parse) (s : List Char) : Except Fault Parse :=
  let name := s.takeWhile (· != '=')
  let value := match s.dropWhile (· != '=') with
    | _ :: r => some (String.ofList r)
    | [] => none
  match g.findLong? (String.ofList name), value with
  | none, _ => .error .unknownArgument
  | some spec, some v => if spec.kind.takesValue then p.take spec v else .error .tooManyValues
  | some spec, none => if spec.kind.takesValue then p.expect spec else p.take spec ""

/-- Reads the letters of a group such as `-vr5`, without the dash: options without a value, and at
    the end one with its value, before which an equals sign may stand. -/
def takeShorts (g : Grammar) (p : Parse) : List Char → Except Fault Parse
  | [] => .ok p
  | c :: r =>
    match g.findShort? c with
    | none => .error .unknownArgument
    | some spec =>
      if spec.kind.takesValue then
        match r with
        | [] => p.expect spec
        | '=' :: v => p.take spec (String.ofList v)
        | v => p.take spec (String.ofList v)
      else (p.take spec "").bind fun p => takeShorts g p r

/-- The fault of an argument that belongs to no option. `afterDashes` is set behind `--`. -/
def strayFault (g : Grammar) (afterDashes : Bool) (argument : String) : Fault :=
  if g.subcommands.isEmpty then .unknownArgument
  else if afterDashes && g.subcommands.contains argument then .unknownArgument
  else .invalidSubcommand

/-- Reads arguments up to a subcommand: what was given, and the subcommand with the arguments
    behind it. -/
def scan (g : Grammar) (p : Parse) :
    List String → Except Fault (Parse × Option (String × List String))
  | [] => p.settle.map fun p => (p, none)
  | a :: rest =>
    -- A subcommand's name may still be the value of the option before it.
    if p.awaiting?.isNone && g.subcommands.contains a then .ok (p, some (a, rest))
    else
      match a.toList with
      | ['-', '-'] =>
        match rest with
        | [] => p.settle.map fun p => (p, none)
        | b :: _ => .error (g.strayFault true b)
      | '-' :: '-' :: s => (g.takeLong p s).bind fun p => scan g p rest
      -- A lone dash is not an option and falls through to the values.
      | '-' :: c :: s => (g.takeShorts p (c :: s)).bind fun p => scan g p rest
      | _ =>
        match p.awaiting? with
        | some spec => scan g { p with pending := some (spec, some a) } rest
        | none => .error (g.strayFault false a)

end Grammar

end TxLoad.CommandLine
