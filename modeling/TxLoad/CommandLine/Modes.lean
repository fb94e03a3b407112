import TxLoad.CommandLine.Grammar
import TxLoad.Config.Document
import TxLoad.Config.Roles

namespace TxLoad

/-!
# The command line

The program runs in one of three modes, each a subcommand with its options.

* `Mode` is what the program is to do, with everything checked;
* `CommandLine.parse` reads a command line; a fault in its form is told apart from a fault in the
  configuration it gives.
-/

/-- What the program is to do. -/
inductive Mode where
  /-- Load the endpoints from this machine alone. -/
  | standalone (cfg : Config)
  /-- Arrange a run of several workers. -/
  | coordinator (cfg : Config) (settings : CoordinatorSettings)
  /-- Load the endpoints on behalf of a coordinator. -/
  | worker (settings : WorkerSettings)

namespace CommandLine

/-! ### Values -/

/-- A 64-bit word in decimal digits. -/
def wordFault? (s : String) : Option Fault :=
  if (Text.readWord s).isSome then none else some .valueValidation

def addressFault? (s : String) : Option Fault :=
  if (Address.read s).isSome then none else some .valueValidation

/-- One of a set of names. -/
def nameFault? (names : List String) (s : String) : Option Fault :=
  if names.contains s then none else some .invalidValue

/-- A path, which is not empty. -/
def pathFault? (s : String) : Option Fault := if s = "" then some .invalidValue else none

/-- Any text. -/
def textFault? (_ : String) : Option Fault := none

/-- An option with a long name and a single value. -/
def valued (name : String) (fault? : String → Option Fault) (short : Option Char) : OptionSpec :=
  ⟨name, some name, short, .single fault?⟩

/-! ### The options of the modes -/

def helpOption : OptionSpec := ⟨"help", some "help", some 'h', .help⟩

def versionOption : OptionSpec := ⟨"version", some "version", some 'V', .version⟩

def verboseOption : OptionSpec := ⟨"v", none, some 'v', .count⟩

/-- The options that give the configuration of a run. -/
def loadOptions : List OptionSpec :=
  [valued "config" pathFault? none,
   valued "client-factory" textFault? none,
   valued "connections" wordFault? (some 'c'),
   valued "time" wordFault? (some 'T'),
   valued "count" wordFault? (some 'N'),
   valued "rate" wordFault? (some 'r'),
   valued "size" wordFault? (some 's'),
   valued "broadcast-mode" (nameFault? (BroadcastMode.all.map (·.name))) none,
   ⟨"endpoints", some "endpoints", none, .list textFault?⟩,
   valued "endpoint-select-method" (nameFault? (SelectMethod.all.map (·.name))) none,
   valued "expect-peers" wordFault? none,
   valued "max-endpoints" wordFault? none,
   valued "min-connectivity" wordFault? none,
   valued "peer-connect-timeout" wordFault? none,
   valued "send-timeout" wordFault? none,
   valued "stats-output" pathFault? none,
   ⟨"no-trap-interrupts", some "no-trap-interrupts", none, .flag⟩]

def coordinatorOptions : List OptionSpec :=
  [valued "bind" addressFault? none,
   valued "expect-workers" wordFault? none,
   valued "connect-timeout" wordFault? none,
   valued "shutdown-wait" wordFault? none,
   valued "metrics-addr" addressFault? none]

def workerOptions : List OptionSpec :=
  [valued "coordinator" textFault? none,
   valued "connect-timeout" wordFault? none,
   valued "report-interval" wordFault? none,
   valued "ack-timeout" wordFault? none]

/-- The options of a mode, by its name. -/
def modeOptions : String → List OptionSpec
  | "standalone" => loadOptions
  | "coordinator" => loadOptions ++ coordinatorOptions
  | "worker" => workerOptions
  | _ => []

def modeNames : List String := ["standalone", "coordinator", "worker"]

/-- What comes before the mode. -/
def topGrammar : Grammar :=
  ⟨[verboseOption, helpOption, versionOption], modeNames ++ ["help"]⟩

/-- What comes behind the name of a mode. -/
def modeGrammar (mode : String) : Grammar :=
  ⟨modeOptions mode ++ [verboseOption, helpOption], []⟩

/-! ### From what was given to the mode -/

/-- The word given to an option, or its default. -/
def word (p : Parse) (name : String) (default : UInt64) : UInt64 :=
  ((p.values name).head?.bind Text.readWord).getD default

def optionalWord (p : Parse) (name : String) : Option UInt64 :=
  (p.values name).head?.bind Text.readWord

def text (p : Parse) (name default : String) : String := (p.values name).head?.getD default

/-- The configuration given by the options alone. -/
def flagConfig (p : Parse) : Config :=
  let d : Config := {}
  { clientFactory := text p "client-factory" d.clientFactory
    connections := word p "connections" d.connections
    time := word p "time" d.time
    count := optionalWord p "count"
    rate := word p "rate" d.rate
    size := word p "size" d.size
    broadcastMode :=
      ((p.values "broadcast-mode").head?.bind BroadcastMode.ofName?).getD d.broadcastMode
    endpoints := p.values "endpoints"
    selectMethod :=
      ((p.values "endpoint-select-method").head?.bind SelectMethod.ofName?).getD d.selectMethod
    expectPeers := word p "expect-peers" d.expectPeers
    maxEndpoints := word p "max-endpoints" d.maxEndpoints
    minConnectivity := word p "min-connectivity" d.minConnectivity
    peerConnectTimeout := word p "peer-connect-timeout" d.peerConnectTimeout
    sendTimeout := word p "send-timeout" d.sendTimeout
    statsOutput := (p.values "stats-output").head?
    noTrapInterrupts := p.has "no-trap-interrupts" }

/-- The text of a file, or why it cannot be read. -/
abbrev Files := String → Except String String

/-- The configuration of a file. -/
def loadConfig (files : Files) (path : String) : Except ConfigError Config :=
  match files path with
  | .ok text => Config.ofDocument text
  | .error reason => .error (.unloadable s!"{path}: {reason}")

/-- The configuration of a run, checked: that of the file, if one is named, and otherwise that of
    the options. -/
def runConfig (files : Files) (p : Parse) : Except ConfigError Config :=
  match (p.values "config").head? with
  -- A file replaces the options altogether; nothing is merged.
  | some path => loadConfig files path
  | none => (flagConfig p).checked

/-- The address given to an option. -/
def address (p : Parse) (name : String) : Option Address :=
  (p.values name).head?.bind Address.read

/-- Where a coordinator listens if it is not told. -/
def defaultBind : Address := .v4 [0, 0, 0, 0] 26670

def coordinatorSettings (p : Parse) : CoordinatorSettings where
  bind := (address p "bind").getD defaultBind
  expectWorkers := word p "expect-workers" 2
  workerConnectTimeout := word p "connect-timeout" 60
  shutdownWait := word p "shutdown-wait" 60
  metricsAddress := address p "metrics-addr"

/-- The mode with the given name and options. -/
def modeOf (files : Files) (name : String) (p : Parse) : Except ConfigError Mode := do
  match name with
  | "coordinator" =>
    let cfg ← runConfig files p
    let settings := coordinatorSettings p
    settings.check
    return .coordinator cfg settings
  | "worker" =>
    return .worker (← WorkerSettings.ofParts (text p "coordinator" "")
      (word p "connect-timeout" 60) (word p "report-interval" 1000) (word p "ack-timeout" 10))
  | _ => return .standalone (← runConfig files p)

/-- A command line of the right form: how verbose the program is to be, and its mode unless the
    configuration is at fault. -/
structure Invocation where
  verbose : Nat
  mode : Except ConfigError Mode

/-- What asking for help on the given subcommands amounts to. -/
def helpFault : List String → Fault
  | [] => .displayHelp
  | [name] => if topGrammar.subcommands.contains name then .displayHelp else .invalidSubcommand
  | _ => .invalidSubcommand

/-- Verbosity given behind the mode counts alone; otherwise what was given before it. -/
def verbosity (top mode : Parse) : Nat :=
  let behind := (mode.values "v").length
  min 255 (if behind = 0 then (top.values "v").length else behind)

/-- What a command line asks for: how verbose the program is to be, the name of the mode and what
    was given for it. -/
structure Request where
  verbose : Nat
  name : String
  given : Parse

/-- Reads the form of the arguments behind the name of the program. -/
def read (arguments : List String) : Except Fault Request := do
  if arguments = [] then throw .displayHelpOnMissing
  let (top, command) ← topGrammar.scan {} arguments
  match command with
  | none => throw (if top.given = [] then .displayHelpOnMissing else .missingSubcommand)
  | some ("help", names) => throw (helpFault names)
  | some (name, rest) =>
    let (p, _) ← (modeGrammar name).scan {} rest
    -- What is required is asked for last, after every fault in what was given.
    if name = "worker" ∧ p.has "coordinator" = false then throw .missingRequiredArgument
    return ⟨verbosity top p, name, p⟩

/-- The file that holds the configuration, if one is named. -/
def Request.configPath? (r : Request) : Option String := (r.given.values "config").head?

/-- Reads the arguments behind the name of the program. -/
def parse (files : Files) (arguments : List String) : Except Fault Invocation :=
  (read arguments).map fun r => ⟨r.verbose, modeOf files r.name r.given⟩

/-- Whether a fault is an answer to a question. -/
def Fault.isAnswer : Fault → Bool
  | displayHelp | displayVersion => true
  | _ => false

/-- The wording of a fault. -/
def Fault.message : Fault → String
  | displayHelp | displayHelpOnMissing => "usage: standalone|coordinator|worker [options]"
  | displayVersion => "0.1.0"
  | missingSubcommand => "a mode is missing"
  | invalidSubcommand => "there is no such mode"
  | unknownArgument => "there is no such option"
  | missingRequiredArgument => "an option that is required is missing"
  | invalidValue => "a value is not one of those possible"
  | valueValidation => "a value does not have the form required"
  | argumentConflict => "an option is given twice"
  | tooManyValues => "an option takes no value"

end CommandLine

end TxLoad
