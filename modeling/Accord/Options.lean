import Accord.Cluster.Settings
import Accord.Text.Pieces

/-! # Options

The settings of a node as they are given to the program. Each option has a name for the command
line and a variable of the environment; what stands on the command line wins, and most options have
a value for when they are not given at all. -/
namespace Accord

inductive Setting where
  | id
  | size
  | listen
  | hostStem
  | port
  | peer
  | electionMin
  | electionMax
  | heartbeat
  | vote
  | voting
  deriving DecidableEq, Repr

namespace Setting

def all : List Setting :=
  [.id, .size, .listen, .hostStem, .port, .peer, .electionMin, .electionMax,
    .heartbeat, .vote, .voting]

def name : Setting → String
  | .id => "id"
  | .size => "total-servers"
  | .listen => "listen"
  | .hostStem => "host-prefix"
  | .port => "peer-port"
  | .peer => "peer"
  | .electionMin => "election-min-ms"
  | .electionMax => "election-max-ms"
  | .heartbeat => "heartbeat-ms"
  | .vote => "vote-timeout-ms"
  | .voting => "voting-timeout-ms"

/-- The variable of the environment that gives the option. -/
def envName : Setting → String
  | .id => "SERVER_ID"
  | .size => "TOTAL_SERVERS"
  | .listen => "LISTEN_ADDR"
  | .hostStem => "PEER_HOST_PREFIX"
  | .port => "PEER_PORT"
  | .peer => "PEERS"
  | .electionMin => "ELECTION_TIMEOUT_MIN_MS"
  | .electionMax => "ELECTION_TIMEOUT_MAX_MS"
  | .heartbeat => "HEARTBEAT_MS"
  | .vote => "VOTE_TIMEOUT_MS"
  | .voting => "VOTING_TIMEOUT_MS"

def ofName? (name : String) : Option Setting := all.find? fun s => s.name == name

end Setting

/-- A command line that makes no sense. -/
inductive UsageError where
  | unknownOption (name : String)
  | strayArgument (text : String)
  | missingValue (option : Setting)
  | repeated (option : Setting)
  | missing (option : Setting)
  | invalid (option : Setting) (text : String)
  deriving DecidableEq, Repr

def UsageError.message : UsageError → String
  | .unknownOption name => "unknown option --" ++ name
  | .strayArgument text => "unexpected argument " ++ text
  | .missingValue option => "option --" ++ option.name ++ " needs a value"
  | .repeated option => "option --" ++ option.name ++ " is given twice"
  | .missing option => "option --" ++ option.name ++ " is required"
  | .invalid option text => "invalid value for --" ++ option.name ++ ": " ++ text

/-- The options on a command line, in their order. -/
abbrev Given := List (Setting × String)

namespace Given

/-- What a word of the command line is. -/
inductive Word where
  /-- An option, and its value if it stands behind an equals sign. -/
  | option (name : String) (value : Option String)
  /-- Two dashes: no more options follow. -/
  | endOfOptions
  /-- A dash with something behind it. -/
  | dashed
  | plain
  deriving DecidableEq, Repr

def Word.of (word : String) : Word :=
  match word.toList with
  | ['-', '-'] => .endOfOptions
  | '-' :: '-' :: cs =>
    let name := String.ofList (cs.takeWhile (· != '='))
    match cs.dropWhile (· != '=') with
    | [] => .option name none
    | _ :: value => .option name (some (String.ofList value))
  | '-' :: _ :: _ => .dashed
  | _ => .plain

def parse : List String → Except UsageError Given
  | [] => .ok []
  | word :: rest =>
    match Word.of word with
    | .endOfOptions =>
      match rest with
      | [] => .ok []
      | next :: _ => .error (.strayArgument next)
    | .dashed | .plain => .error (.strayArgument word)
    | .option name value =>
      match Setting.ofName? name, value, rest with
      | none, _, _ => .error (.unknownOption name)
      | some s, some value, rest => (parse rest).map ((s, value) :: ·)
      | some s, none, [] => .error (.missingValue s)
      | some s, none, value :: rest =>
        if Word.of value = .plain then (parse rest).map ((s, value) :: ·)
        else .error (.missingValue s)

/-- The values given for an option. -/
def valuesOf (option : Setting) (g : Given) : List String :=
  (g.filter (·.1 = option)).map (·.2)

end Given

structure Options where
  id : Nat
  size : Nat
  listen : String
  addressing : Addressing
  /-- Entries `id=addr`. -/
  peers : List String
  timing : Timing

namespace Options

/-- The value of an option that is given once: on the command line, by the environment or not. -/
def value? (given : Given) (env : String → Option String) (option : Setting) :
    Except UsageError (Option String) :=
  match given.valuesOf option with
  | [] => .ok (env option.envName)
  | [text] => .ok (some text)
  | _ => .error (.repeated option)

/-- An unsigned number below a limit. -/
def number (limit : Nat) (option : Setting) (text : String) : Except UsageError Nat :=
  match Text.readNumeral limit text.toList with
  | .ok n => .ok n
  | .error _ => .error (.invalid option text)

/-- A number of 16 bits; a minus sign is allowed before zero. -/
def shortNumber (option : Setting) (text : String) : Except UsageError Nat :=
  match text.toList with
  | '-' :: c :: cs => if (c :: cs).all (· == '0') then .ok 0 else .error (.invalid option text)
  | _ => number 65536 option text

/-- A number of 64 bits that may be left out. -/
def wordOr (default : Nat) (given : Given) (env : String → Option String) (option : Setting) :
    Except UsageError Nat := do
  match ← value? given env option with
  | some text => number Text.wordLimit option text
  | none => return default

/-- A span of whole milliseconds that may be left out. -/
def millisOr (default : Span) (given : Given) (env : String → Option String)
    (option : Setting) : Except UsageError Span := do
  match ← value? given env option with
  | some text => return .ofMillis (← number Text.wordLimit option text)
  | none => return default

def textOr (default : String) (given : Given) (env : String → Option String)
    (option : Setting) : Except UsageError String := do
  return (← value? given env option).getD default

/-- The entries for single peers; each value may hold several with commas between them. -/
def peerEntries (given : Given) (env : String → Option String) : List String :=
  let values := match given.valuesOf .peer with
    | [] => (env Setting.peer.envName).toList
    | values => values
  values.flatMap fun text => (Text.pieces ',' text.toList).map String.ofList

/-- Reads the options off a command line and an environment. -/
def read (args : List String) (env : String → Option String) : Except UsageError Options := do
  let given ← Given.parse args
  let id ← match ← value? given env .id with
    | some text => number Text.wordLimit .id text
    | none => throw (.missing .id)
  let port ← match ← value? given env .port with
    | some text => shortNumber .port text
    | none => pure Addressing.standard.port
  let standard := Timing.standard
  let timing : Timing :=
    { standard with
      electionMin := ← millisOr standard.electionMin given env .electionMin
      electionMax := ← millisOr standard.electionMax given env .electionMax
      heartbeat := ← millisOr standard.heartbeat given env .heartbeat
      vote := ← millisOr standard.vote given env .vote
      voting := ← millisOr standard.voting given env .voting }
  return {
    id
    size := ← wordOr 3 given env .size
    listen := ← textOr "0.0.0.0:3000" given env .listen
    addressing := ⟨← textOr Addressing.standard.hostStem given env .hostStem, port⟩
    peers := peerEntries given env
    timing }

end Options

/-- Options that describe no node of a cluster. -/
inductive OptionsError where
  | topology (cause : TopologyError)
  | peers (cause : OverrideError)
  | settings (cause : SettingsError)
  deriving DecidableEq, Repr

/-- What is wrong, and under it why. -/
def OptionsError.causes : OptionsError → List String
  | .topology cause => [cause.message]
  | .peers cause => cause.causes
  | .settings cause => [cause.message]

def Options.settings (o : Options) : Except OptionsError Settings := do
  let topology ← (Topology.of o.id o.size).mapError .topology
  let overrides ← (Overrides.parse o.peers).mapError .peers
  (Settings.of topology o.listen o.addressing overrides o.timing).mapError .settings

end Accord
