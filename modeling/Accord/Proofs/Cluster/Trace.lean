import Accord.Proofs.Cluster.History
import Accord.Proofs.Message.Codec

/-! # Evaluating runs

A message is read from the characters that were written, whatever the bytes of its text are. So a
run from a given cluster can be followed turn by turn without encoding and decoding texts, which is
how the properties of single runs are decided here. -/
namespace Accord

namespace Message

/-- The characters of a message. -/
def chars (m : Message) : List Char :=
  Json.render (.object [("type", .string m.kind.tag), ("payload", m.payloadWith Instant.text)])

/-- The message of some characters. -/
def ofChars (cs : List Char) : Except MessageError Message :=
  match Json.parse? cs with
  | some v => ofJson v
  | none => .error .notJson

theorem ofText_eq_ofChars (m : Message) : ofText m.text = ofChars m.chars := by
  have hparse : Json.ofText? m.text = Json.parse? m.chars := by
    rw [Json.ofText?, show m.text.toList = m.chars from String.toList_ofList]
  cases h : Json.parse? m.chars with
  | none => simp only [ofText, ofChars, hparse, h]
  | some v => simp only [ofText, ofChars, hparse, h]

/-- Whether a message is read as it was written. What may hold floats is not looked into. -/
def isFaithful (m : Message) : Bool :=
  match m, ofChars m.chars with
  | .batch leader entries, .ok (.batch leader' entries') => leader = leader' ∧ entries = entries'
  | m, .ok _ => m.isExact
  | _, .error _ => false

theorem ofText_of_isFaithful {m : Message} (h : m.isFaithful = true) : ofText m.text = .ok m := by
  rw [ofText_eq_ofChars]
  unfold isFaithful at h
  split at h
  · rename_i hr
    obtain ⟨rfl, rfl⟩ := of_decide_eq_true h
    exact hr
  · rename_i hr
    rw [hr, ofText_exact ((ofText_eq_ofChars _).trans hr) h]
  · cases h

end Message

theorem World.Legible.of_sent {w : World} (h : w.sent.all (·.message.isFaithful) = true) :
    w.Legible := by
  intro x hx
  exact Message.ofText_of_isFaithful (List.all_eq_true.mp h x hx)

/-- What a node makes of a stimulus, with messages read from their characters. -/
def Stimulus.respond (s : Stimulus) (n : Node) : Node :=
  match s with
  | .message sender m =>
    match Message.ofChars m.chars with
    | .ok m => n.onMessage sender m
    | .error _ => n
  | s => s.react n

theorem Stimulus.respond_eq (s : Stimulus) : s.respond = s.react := by
  funext n
  cases s with
  | message sender m =>
    cases h : Message.ofChars m.chars with
    | ok m' => simp only [respond, react, Node.onFrame, Message.ofText_eq_ofChars, h]
    | error e => simp only [respond, react, Node.onFrame, Message.ofText_eq_ofChars, h]
  | _ => rfl

namespace World

/-- Collects from one node. What is in the order of the links already is not sorted again. -/
def gatherNode (w : World) (id : MemberId) : World :=
  match w.node? id with
  | none => w
  | some n =>
    if n.outbox.Pairwise fun a b => a.peer ≤ b.peer then
      let sent := n.outbox.map fun d => Transmission.mk ⟨id, d.peer⟩ d.message
      sent.foldl enqueue { w with
        nodes := Keyed.put id n.collect.2 w.nodes
        sent := w.sent ++ sent
        answers := w.answers ++ n.answers }
    else w.collectNode id

theorem gatherNode_eq (w : World) (id : MemberId) : w.gatherNode id = w.collectNode id := by
  unfold gatherNode
  split
  · rename_i h
    rw [collectNode, h]
  · rename_i n h
    split
    · rename_i hp
      have hs : n.outbox.mergeSort (fun a b => a.peer ≤ b.peer) = n.outbox :=
        List.mergeSort_of_pairwise (hp.imp fun hab => decide_eq_true hab)
      rw [collectNode, h]
      simp only [Node.collect, hs]
    · rfl

/-- Collects what the nodes sent and answered. -/
def gather (w : World) : World := (Keyed.keys w.nodes).foldl gatherNode w

theorem gather_eq (w : World) : w.gather = w.collect := by
  rw [gather, collect, funext₂ gatherNode_eq]

end World

/-- The cluster after a turn. -/
def Turn.outcome (t : Turn) : World :=
  match t.stimulus? with
  | some (id, s) => (t.onset.act id s.respond).gather
  | none => t.after

theorem Turn.outcome_eq (t : Turn) : t.outcome = t.after := by
  unfold outcome
  split
  · rename_i id s hs
    rw [Stimulus.respond_eq, World.gather_eq, Turn.after_eq hs]
  · rfl

namespace World

/-- The turns in which a cluster takes some actions, each with the cluster after it. -/
def trace (w : World) : List Action → List (Turn × World)
  | [] => []
  | a :: rest => (⟨w, a⟩, (Turn.mk w a).outcome) :: (Turn.mk w a).outcome.trace rest

/-- The cluster after some actions. -/
def result (w : World) : List Action → World
  | [] => w
  | a :: rest => (Turn.mk w a).outcome.result rest

theorem trace_eq (w : World) (actions : List Action) :
    w.trace actions = (w.turns actions).map fun t => (t, t.after) := by
  induction actions generalizing w with
  | nil => rfl
  | cons a rest ih =>
    rw [trace, Turn.outcome_eq, ih]
    rfl

theorem result_eq (w : World) (actions : List Action) : w.result actions = w.play actions := by
  induction actions generalizing w with
  | nil => rfl
  | cons a rest ih =>
    rw [result, Turn.outcome_eq, ih]
    rfl

theorem turns_eq (w : World) (actions : List Action) :
    w.turns actions = (w.trace actions).map (·.1) := by
  rw [trace_eq, List.map_map]
  exact (List.map_id _).symm

theorem mem_trace {w : World} {actions : List Action} {t : Turn} (h : t ∈ w.turns actions) :
    (t, t.after) ∈ w.trace actions := by
  rw [trace_eq]
  exact List.mem_map.mpr ⟨t, h, rfl⟩

end World
end Accord
