import Mathlib.Data.List.Nodup
import Mathlib.Logic.Function.Basic

/-!
# Linked chains

Nodes are linked by a partial successor function. A chain is the finite list of
nodes visited from a first node on until a node without a successor. The
function determines the list, so a chain never visits a node twice.

The updates are those of an intrusive queue: clearing one successor cuts the
chain behind its node, and linking a fresh node behind the last one appends it.
The results about appending also cover the misuse of a queue, a node that is
already in the chain or a last node that is not, where the chain stays finite
and gains at most the node appended.
-/

namespace Linked

universe u

variable {ι : Type u}

/-- Following `next` from `first` visits exactly these nodes and stops. -/
def Chain (next : ι → Option ι) : Option ι → List ι → Prop
  | first, [] => first = none
  | first, node :: rest => first = some node ∧ Chain next (next node) rest

/-- A chain without nodes has no first one. -/
@[simp] theorem chain_nil (next : ι → Option ι) (first : Option ι) :
    Chain next first [] ↔ first = none := Iff.rfl

/-- A chain starts at its first node and goes on from that node's successor. -/
@[simp] theorem chain_cons (next : ι → Option ι) (first : Option ι) (node : ι) (rest : List ι) :
    Chain next first (node :: rest) ↔ first = some node ∧ Chain next (next node) rest := Iff.rfl

/-- A chain from no node is empty. -/
theorem chain_none {next : ι → Option ι} {nodes : List ι} (chain : Chain next none nodes) :
    nodes = [] := by
  cases nodes with
  | nil => rfl
  | cons node rest => simp at chain

/-- A chain from a node starts with it. -/
theorem chain_some {next : ι → Option ι} {node : ι} {nodes : List ι}
    (chain : Chain next (some node) nodes) :
    ∃ rest, nodes = node :: rest ∧ Chain next (next node) rest := by
  cases nodes with
  | nil => simp at chain
  | cons other rest =>
    obtain ⟨same, tail⟩ := chain
    cases same
    exact ⟨rest, rfl, tail⟩

/-- The successor function determines the chain. -/
theorem chain_unique {next : ι → Option ι} {first : Option ι} {nodes others : List ι}
    (chain : Chain next first nodes) (other : Chain next first others) : nodes = others := by
  induction nodes generalizing first others with
  | nil =>
    cases chain
    exact (chain_none other).symm
  | cons node rest inductionHypothesis =>
    obtain ⟨rfl, tail⟩ := chain
    obtain ⟨otherRest, rfl, otherTail⟩ := chain_some other
    rw [inductionHypothesis tail otherTail]

/-- Functions that agree on the nodes of a chain have the same chain. -/
theorem chain_congr {next next' : ι → Option ι} {first : Option ι} {nodes : List ι}
    (agree : ∀ node ∈ nodes, next node = next' node) :
    Chain next first nodes ↔ Chain next' first nodes := by
  induction nodes generalizing first with
  | nil => rfl
  | cons node rest inductionHypothesis =>
    have tail := @inductionHypothesis (next' node) fun later member =>
      agree later (List.mem_cons_of_mem _ member)
    rw [chain_cons, chain_cons, agree node List.mem_cons_self, tail]

/-- The chain behind a node of a chain. -/
theorem chain_behind {next : ι → Option ι} {first : Option ι} {before after : List ι} {node : ι}
    (chain : Chain next first (before ++ node :: after)) : Chain next (next node) after := by
  induction before generalizing first with
  | nil => exact chain.2
  | cons earlier rest inductionHypothesis => exact inductionHypothesis chain.2

/-- A chain visits no node twice: behind a second visit it would have to be as
long as behind the first. -/
theorem chain_nodup {next : ι → Option ι} {first : Option ι} {nodes : List ι}
    (chain : Chain next first nodes) : nodes.Nodup := by
  induction nodes generalizing first with
  | nil => exact List.nodup_nil
  | cons node rest inductionHypothesis =>
    refine List.nodup_cons.mpr ⟨?_, inductionHypothesis chain.2⟩
    intro again
    obtain ⟨before, after, split⟩ := List.append_of_mem again
    have behind : Chain next (next node) after := by
      have whole : Chain next (next node) rest := chain.2
      rw [split] at whole
      exact chain_behind whole
    have same : rest = after := chain_unique chain.2 behind
    have lengths := congrArg List.length split
    rw [same] at lengths
    simp only [List.length_append, List.length_cons] at lengths
    omega

/-- A node without a successor can only be the last of a chain. -/
theorem last_of_next_none {next : ι → Option ι} {first : Option ι} {nodes : List ι} {node : ι}
    (chain : Chain next first nodes) (member : node ∈ nodes) (stop : next node = none) :
    nodes.getLast? = some node := by
  obtain ⟨before, after, rfl⟩ := List.append_of_mem member
  have behind := chain_behind chain
  rw [stop] at behind
  rw [chain_none behind]
  simp

/-- The last node of a chain has no successor. -/
theorem next_none_of_last {next : ι → Option ι} {first : Option ι} {nodes : List ι} {node : ι}
    (chain : Chain next first nodes) (last : nodes.getLast? = some node) : next node = none := by
  obtain ⟨before, rfl⟩ := List.getLast?_eq_some_iff.mp last
  exact chain_behind chain

variable [DecidableEq ι]

/-- Changing the successor of a node outside a chain keeps the chain. -/
theorem chain_update_outside {next : ι → Option ι} {first : Option ι} {nodes : List ι} {node : ι}
    (successor : Option ι) (outside : node ∉ nodes) :
    Chain (Function.update next node successor) first nodes ↔ Chain next first nodes :=
  chain_congr fun visited member =>
    Function.update_of_ne (fun same : visited = node => outside (same ▸ member)) _ _

/-- Clearing a successor in a chain cuts it behind the node. -/
theorem chain_cut {next : ι → Option ι} {first : Option ι} {before after : List ι} {node : ι}
    (chain : Chain next first (before ++ node :: after)) :
    Chain (Function.update next node none) first (before ++ [node]) := by
  have unique := chain_nodup chain
  induction before generalizing first with
  | nil =>
    obtain ⟨rfl, _⟩ := chain
    simp
  | cons earlier rest inductionHypothesis =>
    have distinct := List.nodup_cons.mp unique
    have other : earlier ≠ node := fun same => distinct.1 (by simp [same])
    constructor
    · exact chain.1
    · rw [Function.update_of_ne other]
      exact inductionHypothesis chain.2 distinct.2

/-- Clearing the successor of any node keeps the chain finite and adds no node. -/
theorem chain_clear {next : ι → Option ι} {first : Option ι} {nodes : List ι} (node : ι)
    (chain : Chain next first nodes) :
    ∃ shorter, Chain (Function.update next node none) first shorter ∧ shorter <+: nodes := by
  by_cases member : node ∈ nodes
  · obtain ⟨before, after, rfl⟩ := List.append_of_mem member
    exact ⟨before ++ [node], chain_cut chain, ⟨after, by simp⟩⟩
  · exact ⟨nodes, (chain_update_outside none member).mpr chain, List.prefix_refl _⟩

/-- Linking a fresh node without a successor behind the last node appends it. -/
theorem chain_append {next : ι → Option ι} {first : Option ι} {before : List ι} {last node : ι}
    (chain : Chain next first (before ++ [last])) (fresh : node ∉ before ++ [last])
    (stop : next node = none) :
    Chain (Function.update next last (some node)) first (before ++ [last] ++ [node]) := by
  have unique := chain_nodup chain
  induction before generalizing first with
  | nil =>
    obtain ⟨rfl, _⟩ := chain
    have other : node ≠ last := fun same => fresh (by simp [same])
    simp [Function.update_of_ne other, stop]
  | cons earlier rest inductionHypothesis =>
    have distinct := List.nodup_cons.mp unique
    have other : earlier ≠ last := fun same => distinct.1 (by simp [same])
    constructor
    · exact chain.1
    · rw [Function.update_of_ne other]
      exact inductionHypothesis chain.2 (fun member => fresh (List.mem_cons_of_mem _ member)) distinct.2

/-- Linking any node without a successor behind any other node keeps the chain
finite and adds at most that node. -/
theorem chain_link {next : ι → Option ι} {first : Option ι} {nodes : List ι} {last node : ι}
    (chain : Chain next first nodes) (stop : next node = none) (other : node ≠ last) :
    ∃ longer, Chain (Function.update next last (some node)) first longer ∧
      ∀ visited ∈ longer, visited ∈ nodes ∨ visited = node := by
  by_cases member : last ∈ nodes
  · obtain ⟨before, after, rfl⟩ := List.append_of_mem member
    have stopped : Function.update next last none node = none := by
      rw [Function.update_of_ne other, stop]
    have fresh : node ∉ before ++ [last] := by
      intro present
      rcases List.mem_append.mp present with early | atLast
      · obtain ⟨start, rest, rfl⟩ := List.append_of_mem early
        have whole : Chain next first (start ++ node :: (rest ++ last :: after)) := by
          simpa using chain
        have behind := chain_behind whole
        rw [stop] at behind
        have empty := chain_none behind
        simp at empty
      · exact other (List.mem_singleton.mp atLast)
    have linked := chain_append (chain_cut chain) fresh stopped
    rw [Function.update_idem] at linked
    refine ⟨_, linked, ?_⟩
    intro visited present
    simp only [List.mem_append, List.mem_cons, List.not_mem_nil, or_false] at present ⊢
    tauto
  · exact ⟨nodes, (chain_update_outside _ member).mpr chain, fun _ present => Or.inl present⟩

end Linked
