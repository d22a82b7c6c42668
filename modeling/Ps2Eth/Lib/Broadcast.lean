import Ps2Eth.Lib.Runs
import Mathlib.Logic.Function.Basic

/-!
# Nodes on a shared wire

Nodes react to events of their own and to what arrives from the wire. The wire keeps all
that was ever sent: a message may arrive at any node, at any time, many times or never,
so that loss, delay, duplication and every order are runs of the system. An event can be
the arrival of a message without being the message itself, such as a frame with padding.

The rule for such a system is about single nodes: what is right of a node's state and of
a message, and is kept by each event, is right in every world that a run reaches.
-/

namespace Broadcast

universe u v w x

/-- How nodes behave: what an event does, and which events can happen at which node. -/
structure Nodes (ν : Type u) (σ : Type v) (ε : Type w) (μ : Type x) where
  /-- The state after an event, and the messages sent in it. -/
  react : σ → ε → σ × List μ
  /-- The events that a node has of its own. -/
  own : ν → ε → Bool
  /-- The events in which a message arrives at a node. -/
  arrives : ν → μ → ε → Bool

/-- The states of the nodes, and all messages sent so far, oldest first. -/
structure World (ν : Type u) (σ : Type v) (μ : Type x) where
  states : ν → σ
  sent : List μ

/-- One node reacts: to an event of its own, or to the message with this number. -/
inductive Action (ν : Type u) (ε : Type w) where
  | own (node : ν) (event : ε)
  | deliver (node : ν) (number : Nat) (event : ε)

variable {ν : Type u} {σ : Type v} {ε : Type w} {μ : Type x} [DecidableEq ν]

/-- The world after a node has reacted. -/
def World.after (nodes : Nodes ν σ ε μ) (world : World ν σ μ) (node : ν) (event : ε) : World ν σ μ where
  states := Function.update world.states node (nodes.react (world.states node) event).1
  sent := world.sent ++ (nodes.react (world.states node) event).2

/-- One step of the network, if it is possible. A node acts on its own, or a message sent
earlier arrives in a form that the node takes it for. A message stays in the air, so it
may arrive again, late, or never. -/
def step (nodes : Nodes ν σ ε μ) (world : World ν σ μ) : Action ν ε → Option (World ν σ μ)
  | .own node event => if nodes.own node event then some (world.after nodes node event) else none
  | .deliver node number event =>
    match world.sent[number]? with
    | none => none
    | some message =>
      if nodes.arrives node message event then some (world.after nodes node event) else none

/-- Nothing was sent yet, and every node is in a state to start in. -/
structure Start (Initial : σ → Prop) (world : World ν σ μ) : Prop where
  states : ∀ node, Initial (world.states node)
  sent : world.sent = []

variable {nodes : Nodes ν σ ε μ}

/-- The node that acts goes to the state of its reaction. -/
theorem after_self (world : World ν σ μ) (node : ν) (event : ε) :
    (world.after nodes node event).states node = (nodes.react (world.states node) event).1 :=
  Function.update_self ..

/-- No other node is touched by it. -/
theorem after_other (world : World ν σ μ) {node other : ν} (different : other ≠ node) (event : ε) :
    (world.after nodes node event).states other = world.states other :=
  Function.update_of_ne different ..

/-- The rule. An event that is a node's own, or the arrival of a good message, keeps a
good state good, and all that is sent in it is good.

Proof: one event at one node is looked at first, whatever caused it. The rule is then the
induction on the run: states change only at that node, and to what was sent only its
answers are added. -/
theorem always_good {Initial : σ → Prop} (Good : σ → Prop) (GoodMessage : μ → Prop)
    (initially : ∀ state, Initial state → Good state)
    (own : ∀ node state event, Good state → nodes.own node event = true →
      Good (nodes.react state event).1 ∧ ∀ message ∈ (nodes.react state event).2, GoodMessage message)
    (arrival : ∀ node state message event, Good state → GoodMessage message →
      nodes.arrives node message event = true →
      Good (nodes.react state event).1 ∧ ∀ message ∈ (nodes.react state event).2, GoodMessage message)
    {steps : List (World ν σ μ × Action ν ε)} {world : World ν σ μ}
    (run : Runs.Run (step nodes) (Start Initial) steps world) :
    (∀ node, Good (world.states node)) ∧ ∀ message ∈ world.sent, GoodMessage message := by
  have after (world : World ν σ μ) (node : ν) (event : ε)
      (good : (∀ node, Good (world.states node)) ∧ ∀ message ∈ world.sent, GoodMessage message)
      (reacted : Good (nodes.react (world.states node) event).1 ∧
        ∀ message ∈ (nodes.react (world.states node) event).2, GoodMessage message) :
      (∀ other, Good ((world.after nodes node event).states other)) ∧
        ∀ message ∈ (world.after nodes node event).sent, GoodMessage message := by
    constructor
    · intro other
      rcases eq_or_ne other node with rfl | different
      · rw [after_self]
        exact reacted.1
      · rw [after_other world different]
        exact good.1 other
    · intro message member
      rcases List.mem_append.mp member with earlier | new
      · exact good.2 message earlier
      · exact reacted.2 message new
  refine Runs.state_invariant (fun world => (∀ node, Good (world.states node)) ∧
    ∀ message ∈ world.sent, GoodMessage message) ?_ ?_ run
  · intro world start
    refine ⟨fun node => initially _ (start.states node), ?_⟩
    rw [start.sent]
    intro message member
    cases member
  · intro world action next good taken
    cases action with
    | own node event =>
      rw [step] at taken
      split at taken
      case isTrue allowed =>
        rw [← Option.some.inj taken]
        exact after world node event good (own node _ event (good.1 node) allowed)
      case isFalse => cases taken
    | deliver node number event =>
      rw [step] at taken
      cases there : world.sent[number]? with
      | none =>
        rw [there] at taken
        cases taken
      | some message =>
        simp only [there] at taken
        split at taken
        case isTrue arrives =>
          have goodMessage := good.2 message (List.mem_of_getElem? there)
          rw [← Option.some.inj taken]
          exact after world node event good
            (arrival node _ message event (good.1 node) goodMessage arrives)
        case isFalse => cases taken

end Broadcast
