import Accord.Cluster.Timing
import Accord.Cluster.Topology
import Accord.Keyed

/-! # Settings of a node

Where a node listens, where its peers are found and how it keeps time. -/
namespace Accord

/-- Peers are found at `<prefix><id>:<port>` unless an address is given for them. -/
structure Addressing where
  hostStem : String
  port : Nat
  deriving DecidableEq, Repr

def Addressing.standard : Addressing := ⟨"raftnode_", 3000⟩

def Addressing.address (a : Addressing) (id : MemberId) : String :=
  a.hostStem ++ toString id ++ ":" ++ toString a.port

/-- Addresses given for single peers. -/
abbrev Overrides := List (MemberId × String)

inductive OverrideError where
  | noAddress (entry : String)
  | invalidId (entry : String) (cause : Text.NumeralError)
  | emptyAddress (entry : String)
  deriving DecidableEq, Repr

/-- What went wrong, and under it why. -/
def OverrideError.causes : OverrideError → List String
  | .noAddress entry => ["invalid peer entry '" ++ entry ++ "', expected id=addr"]
  | .invalidId entry cause => ["invalid peer id in '" ++ entry ++ "'", cause.message]
  | .emptyAddress entry => ["empty address in peer entry '" ++ entry ++ "'"]

namespace Overrides

/-- One entry `id=addr`; the address may hold further equals signs. -/
def entry (s : String) : Except OverrideError (MemberId × String) :=
  let cs := s.toList
  match cs.dropWhile (· != '=') with
  | [] => .error (.noAddress s)
  | _ :: rest =>
    match Text.readNumeral Text.wordLimit (Text.trim (cs.takeWhile (· != '='))) with
    | .error cause => .error (.invalidId s cause)
    | .ok id =>
      let address := Text.trim rest
      if address.isEmpty then .error (.emptyAddress s) else .ok (id, String.ofList address)

/-- The addresses of a list of entries; of two for one peer the later one counts. -/
def parse (entries : List String) : Except OverrideError Overrides :=
  (entries.mapM entry).map Keyed.ofList

end Overrides

structure Settings where
  topology : Topology
  /-- The address that peers connect to. -/
  listen : String
  /-- The address of every other member. -/
  peers : List (MemberId × String)
  timing : Timing

inductive SettingsError where
  | timing (cause : TimingError)
  | foreignOverride (node : MemberId)
  deriving DecidableEq, Repr

def SettingsError.message : SettingsError → String
  | .timing cause => cause.message
  | .foreignOverride node => "peer override for node " ++ toString node ++ " is outside the cluster"

namespace Settings

def of (topology : Topology) (listen : String) (addressing : Addressing) (overrides : Overrides)
    (timing : Timing) : Except SettingsError Settings :=
  match timing.validate with
  | .error cause => .error (.timing cause)
  | .ok () =>
    match overrides.find? fun entry => !topology.contains entry.1 with
    | some entry => .error (.foreignOverride entry.1)
    | none =>
      .ok
        { topology
          listen
          peers := topology.peers.map fun id =>
            (id, (Keyed.get? id overrides).getD (addressing.address id))
          timing }

end Settings
end Accord
