import Mathlib.Algebra.Ring.Nat
import Solnet.Native.P2pNode

/-! The P2P nodes of calls that overlap. A call looks at the flag that only the task of an
earlier one sets, so two calls may both go on; the second sender is dropped, and the loop that
it was for ends and clears the flag of the first. -/
namespace Solnet.Native
open Runs

/-- How far a call that has got past its check has come, and then the task it has spawned. The
peer id is returned when the task is spawned. -/
inductive NodePoint where
  | setsSender
  | spawns
  | building
  | looping
  | stopping
  | ended
  deriving DecidableEq, Repr

inductive NodeEvent where
  | setSender
  | spawn
  | build (built : Bool)
  | close
  | finish
  deriving DecidableEq, Repr

/-- The statics, and the nodes in the order in which their calls looked at the flag. -/
structure Nodes where
  relayRt : Option Nat
  p2pRunning : Bool
  swarmTx : Option Nat
  nodes : List NodePoint
  deriving DecidableEq, Repr

inductive NodesEvent where
  | initNode
  | node (i : Nat) (event : NodeEvent)
  deriving DecidableEq, Repr

namespace Nodes

def new (relayRt : Option Nat) : Nodes := ⟨relayRt, false, none, []⟩

def initNode (w : Nodes) : Nodes :=
  if w.p2pRunning then w
  else
    match w.relayRt with
    | none => w
    | some _ => { w with nodes := w.nodes ++ [.setsSender] }

def proceed (w : Nodes) (i : Nat) : NodePoint → NodeEvent → Option Nodes
  | .setsSender, .setSender =>
    let swarmTx :=
      match setOnce w.swarmTx i with
      | .ok swarmTx => swarmTx
      | .error _ => w.swarmTx
    some { w with swarmTx := swarmTx, nodes := w.nodes.set i .spawns }
  | .spawns, .spawn => some { w with nodes := w.nodes.set i .building }
  | .building, .build true =>
    some { w with p2pRunning := true, nodes := w.nodes.set i .looping }
  | .building, .build false => some { w with nodes := w.nodes.set i .stopping }
  -- The channel closes with its only sender.
  | .looping, .close =>
    if w.swarmTx = some i then none else some { w with nodes := w.nodes.set i .stopping }
  | .stopping, .finish => some { w with p2pRunning := false, nodes := w.nodes.set i .ended }
  | _, _ => none

def advance (w : Nodes) : NodesEvent → Option Nodes
  | .initNode => some w.initNode
  | .node i event =>
    match w.nodes[i]? with
    | some point => w.proceed i point event
    | none => none

def Step (w : Nodes) (e : NodesEvent) (w' : Nodes) : Prop := advance w e = some w'

/-- One loop runs at most, the flag is set exactly while one runs, and each peer id returned is
that of a node whose loop runs, or is about to, with its own sender stored. -/
structure SingleNode (w : Nodes) : Prop where
  one : ∀ i j : Nat, w.nodes[i]? = some .looping → w.nodes[j]? = some .looping → i = j
  flag : w.p2pRunning = true ↔ NodePoint.looping ∈ w.nodes
  usable : ∀ (i : Nat) (point : NodePoint), w.nodes[i]? = some point →
    point ≠ .setsSender → point ≠ .spawns →
      (point = .building ∨ point = .looping) ∧ w.swarmTx = some i

/-- A call gets past the check. -/
def Passes (w : Nodes) : Prop := w.p2pRunning = false ∧ w.relayRt ≠ none

/-- One call gets past the check at most, and each swarm is built. -/
def Alone (w : Nodes) : NodesEvent → Prop
  | .initNode => w.Passes → w.nodes = []
  | .node _ (.build built) => built = true
  | _ => True

/-- Each call has returned. -/
def Returned (w : Nodes) : Prop :=
  NodePoint.setsSender ∉ w.nodes ∧ NodePoint.spawns ∉ w.nodes

/-- The states after one call has got past the check at most. -/
inductive Single : Nodes → Prop where
  | fresh {relayRt : Option Nat} : Single ⟨relayRt, false, none, []⟩
  | setsSender {relayRt : Option Nat} : Single ⟨relayRt, false, none, [.setsSender]⟩
  | spawns {relayRt : Option Nat} : Single ⟨relayRt, false, some 0, [.spawns]⟩
  | building {relayRt : Option Nat} : Single ⟨relayRt, false, some 0, [.building]⟩
  | looping {relayRt : Option Nat} : Single ⟨relayRt, true, some 0, [.looping]⟩

variable {w w' : Nodes}

theorem step_deterministic : Deterministic Step :=
  deterministic_of_option advance

theorem node_iff {i : Nat} {event : NodeEvent} :
    Step w (.node i event) w' ↔
      ∃ point, w.nodes[i]? = some point ∧ w.proceed i point event = some w' := by
  simp only [Step, advance]
  cases w.nodes[i]? with
  | none => simp
  | some point => simp

theorem only_node {i : Nat} {point : NodePoint} {event : NodeEvent} (only : w.nodes = [point])
    (step : Step w (.node i event) w') : w.proceed 0 point event = some w' := by
  obtain ⟨here, found, moves⟩ := node_iff.mp step
  rw [only] at found
  cases i with
  | zero =>
    obtain rfl := Option.some.inj found
    exact moves
  | succ i => cases found

theorem initNode_passes (passes : w.Passes) :
    w.initNode = { w with nodes := w.nodes ++ [.setsSender] } := by
  obtain ⟨flag, runtime⟩ := passes
  obtain ⟨rt, present⟩ := Option.ne_none_iff_exists'.mp runtime
  simp only [initNode, flag, present, Bool.false_eq_true, if_false]

theorem initNode_refused (refused : ¬ w.Passes) : w.initNode = w := by
  unfold initNode
  split_ifs with flag
  · rfl
  · have absent : w.relayRt = none := by
      by_contra present
      exact refused ⟨Bool.eq_false_iff.mpr flag, present⟩
    simp only [absent]

theorem length_proceed {i : Nat} {point : NodePoint} {event : NodeEvent}
    (moves : w.proceed i point event = some w') : w'.nodes.length = w.nodes.length := by
  unfold proceed at moves
  split at moves
  case h_5 =>
    split_ifs at moves
    obtain rfl := Option.some.inj moves
    exact List.length_set
  case h_7 => cases moves
  all_goals
    obtain rfl := Option.some.inj moves
    exact List.length_set

/-- A call that has got past the check stays in the list. -/
theorem length_step {e : NodesEvent} (step : Step w e w') : w.nodes.length ≤ w'.nodes.length := by
  cases e with
  | initNode =>
    obtain rfl := Option.some.inj step
    by_cases passes : w.Passes
    · rw [initNode_passes passes]
      simp only [List.length_append, List.length_singleton]
      omega
    · rw [initNode_refused passes]
  | node i event =>
    obtain ⟨point, _, moves⟩ := node_iff.mp step
    exact (length_proceed moves).ge

theorem index_of_only {i : Nat} {point here : NodePoint} (only : w.nodes = [point])
    (found : w.nodes[i]? = some here) : i = 0 ∧ here = point := by
  rw [only] at found
  cases i with
  | zero => exact ⟨rfl, (Option.some.inj found).symm⟩
  | succ i => cases found

theorem singleNode_of_only {point : NodePoint} (only : w.nodes = [point])
    (flag : w.p2pRunning = true ↔ point = .looping)
    (usable : point ≠ .setsSender → point ≠ .spawns →
      (point = .building ∨ point = .looping) ∧ w.swarmTx = some 0) : SingleNode w where
  one i j left right := by
    obtain ⟨rfl, _⟩ := index_of_only only left
    obtain ⟨rfl, _⟩ := index_of_only only right
    rfl
  flag := by
    rw [flag, only, List.mem_singleton]
    exact eq_comm
  usable i here found notSets notSpawns := by
    obtain ⟨rfl, rfl⟩ := index_of_only only found
    exact usable notSets notSpawns

theorem Single.singleNode (single : Single w) : SingleNode w := by
  cases single with
  | fresh =>
    constructor
    · intro i j left
      cases left
    · simp
    · intro i point found
      cases found
  | setsSender =>
    apply singleNode_of_only rfl
    · simp
    · intro notSets
      exact absurd rfl notSets
  | spawns =>
    apply singleNode_of_only rfl
    · simp
    · intro _ notSpawns
      exact absurd rfl notSpawns
  | building =>
    apply singleNode_of_only rfl
    · simp
    · intro _ _
      exact ⟨.inl rfl, rfl⟩
  | looping =>
    apply singleNode_of_only rfl
    · simp
    · intro _ _
      exact ⟨.inr rfl, rfl⟩

/-- The states after which the promise is broken, if each call returns. -/
def Doomed (w : Nodes) : Prop := ¬ SingleNode w ∨ 2 ≤ w.nodes.length

/-- Two nodes would each have to have its own sender stored. -/
theorem SingleNode.length_le (single : SingleNode w) (returned : w.Returned) :
    w.nodes.length ≤ 1 := by
  by_contra more
  have stored : ∀ i, i < w.nodes.length → w.swarmTx = some i := by
    intro i bound
    have found : w.nodes[i]? = some w.nodes[i] := List.getElem?_eq_getElem bound
    refine (single.usable i w.nodes[i] found ?_ ?_).2
    · intro same
      exact returned.1 (same ▸ List.getElem_mem bound)
    · intro same
      exact returned.2 (same ▸ List.getElem_mem bound)
  have same : some 0 = some 1 := (stored 0 (by omega)).symm.trans (stored 1 (by omega))
  cases same

theorem doomed_run (w : Nodes) (events : List NodesEvent) (u : Nodes) (doomed : Doomed w)
    (run : Run Step w events u) (returned : u.Returned) :
    ¬ Always Step SingleNode w events := by
  intro all
  rcases doomed with broken | two
  · exact broken (all [] w List.nil_prefix (.nil w))
  · have single : SingleNode u := all events u (List.prefix_refl events) run
    have later : 2 ≤ u.nodes.length :=
      run.invariant (I := fun w => 2 ≤ w.nodes.length)
        (fun _ _ _ before step => before.trans (length_step step)) two
    have one : u.nodes.length ≤ 1 := single.length_le returned
    omega

theorem single_initNode (single : Single w) (step : Step w .initNode w') :
    Alone w .initNode ∧ Single w' ∨ ¬ Alone w .initNode ∧ Doomed w' := by
  obtain rfl := Option.some.inj step
  by_cases passes : w.Passes
  · by_cases none : w.nodes = []
    · refine .inl ⟨fun _ => none, ?_⟩
      rw [initNode_passes passes]
      cases single with
      | fresh => exact .setsSender
      | _ => cases none
    · refine .inr ⟨fun alone => none (alone passes), .inr ?_⟩
      rw [initNode_passes passes]
      have some : 0 < w.nodes.length := List.length_pos_of_ne_nil none
      simp only [List.length_append, List.length_singleton]
      omega
  · rw [initNode_refused passes]
    exact .inl ⟨fun passes' => absurd passes' passes, single⟩

theorem single_node {i : Nat} {event : NodeEvent} (single : Single w)
    (step : Step w (.node i event) w') :
    Alone w (.node i event) ∧ Single w' ∨ ¬ Alone w (.node i event) ∧ Doomed w' := by
  cases single with
  | fresh =>
    obtain ⟨_, found, _⟩ := node_iff.mp step
    cases found
  | setsSender =>
    have moves := only_node rfl step
    cases event with
    | setSender =>
      obtain rfl := Option.some.inj moves
      exact .inl ⟨trivial, .spawns⟩
    | _ => cases moves
  | spawns =>
    have moves := only_node rfl step
    cases event with
    | spawn =>
      obtain rfl := Option.some.inj moves
      exact .inl ⟨trivial, .building⟩
    | _ => cases moves
  | building =>
    have moves := only_node rfl step
    cases event with
    | build built =>
      cases built with
      | true =>
        obtain rfl := Option.some.inj moves
        exact .inl ⟨rfl, .looping⟩
      | false =>
        obtain rfl := Option.some.inj moves
        refine .inr ⟨nofun, .inl ?_⟩
        intro single
        rcases (single.usable 0 .stopping rfl nofun nofun).1 with impossible | impossible
        · cases impossible
        · cases impossible
    | _ => cases moves
  | looping =>
    have moves := only_node rfl step
    cases event with
    | close => cases moves
    | _ => cases moves

theorem single_step (w : Nodes) (e : NodesEvent) (w' : Nodes) (single : Single w)
    (step : Step w e w') : Alone w e ∧ Single w' ∨ ¬ Alone w e ∧ Doomed w' := by
  cases e with
  | initNode => exact single_initNode single step
  | node i event => exact single_node single step

/-- One node runs at most, with its flag and its sender, as long as one call at most gets past
the check and each swarm is built; and only then, in a run at whose end each call has
returned. -/
theorem single_node_iff (relayRt : Option Nat) (events : List NodesEvent) (w : Nodes)
    (run : Run Step (new relayRt) events w) :
    (Run (Guarded Step Alone) (new relayRt) events w →
        Always Step SingleNode (new relayRt) events) ∧
      (w.Returned → Always Step SingleNode (new relayRt) events →
        Run (Guarded Step Alone) (new relayRt) events w) := by
  constructor
  · intro guarded
    refine guarded.always (I := Single) step_deterministic ?_ (fun w single => single.singleNode)
      .fresh
    intro w e w' single step alone
    rcases single_step w e w' single step with ⟨_, kept⟩ | ⟨crowded, _⟩
    · exact kept
    · exact absurd alone crowded
  · intro returned
    exact (always_iff_guarded_of_dooms step_deterministic (fun w single => single.singleNode)
      single_step doomed_run run returned .fresh).mp

/-- A call that gets past the check, with no other beside it. -/
theorem call_run (passes : w.Passes) :
    Run Step w [.initNode, .node w.nodes.length .setSender, .node w.nodes.length .spawn]
      { w with
        swarmTx :=
          match setOnce w.swarmTx w.nodes.length with
          | .ok swarmTx => swarmTx
          | .error _ => w.swarmTx
        nodes := w.nodes ++ [.building] } := by
  apply Run.cons (congrArg some (initNode_passes passes))
  apply Run.cons (node_iff.mpr ⟨.setsSender, List.getElem?_concat_length, rfl⟩)
  rw [set_last]
  apply Run.cons (node_iff.mpr ⟨.spawns, List.getElem?_concat_length, rfl⟩)
  rw [set_last]
  exact .nil _

/-- A node that stops clears the flag, whoever has set it. -/
theorem ends_run {i : Nat} {point : NodePoint} {event : NodeEvent}
    (here : w.nodes[i]? = some point)
    (stops : w.proceed i point event = some { w with nodes := w.nodes.set i .stopping }) :
    Run Step w [.node i event, .node i .finish]
      { w with p2pRunning := false, nodes := w.nodes.set i .ended } := by
  obtain ⟨bound, _⟩ := List.getElem?_eq_some_iff.mp here
  apply Run.cons (node_iff.mpr ⟨point, here, stops⟩)
  refine .cons (node_iff.mpr ⟨.stopping, ?_, ?_⟩) (.nil _)
  · exact List.getElem?_set_self bound
  · simp only [proceed, List.set_set]

/-- Two calls one after the other, the second while the node of the first runs. -/
def calledTwice : List NodesEvent :=
  [.initNode, .node 0 .setSender, .node 0 .spawn, .node 0 (.build true), .initNode]

theorem single_node_calledTwice : Always Step SingleNode (new (some 0)) calledTwice := by
  have guarded : ∃ w, Run (Guarded Step Alone) (new (some 0)) calledTwice w :=
    ⟨_, .cons ⟨rfl, fun _ => rfl⟩ (.cons ⟨rfl, trivial⟩ (.cons ⟨rfl, trivial⟩
      (.cons ⟨rfl, rfl⟩ (.cons ⟨rfl, fun passes => absurd passes.1 nofun⟩ (.nil _)))))⟩
  obtain ⟨w, guarded⟩ := guarded
  exact (single_node_iff (some 0) _ w guarded.unguarded).1 guarded

/-- Both calls get past the check, and both nodes run. -/
theorem overlapping_calls_run_two :
    ¬ ∀ (relayRt : Option Nat) (events : List NodesEvent) (w : Nodes),
      Run Step (new relayRt) events w → relayRt ≠ none →
        Always Step SingleNode (new relayRt) events := by
  intro all
  have run : ∃ w, Run Step (new (some 0)) [.initNode, .initNode, .node 0 .setSender,
      .node 1 .setSender, .node 0 .spawn, .node 1 .spawn, .node 0 (.build true),
      .node 1 (.build true)] w ∧ w.nodes = [.looping, .looping] :=
    ⟨_, .cons rfl (.cons rfl (.cons rfl (.cons rfl (.cons rfl (.cons rfl (.cons rfl
      (.cons rfl (.nil _)))))))), rfl⟩
  obtain ⟨w, run, both⟩ := run
  have single : SingleNode w := all (some 0) _ w run nofun _ w (List.prefix_refl _) run
  have same : 0 = 1 := single.one 0 1 (by rw [both]; rfl) (by rw [both]; rfl)
  cases same

end Nodes

/-- Where a swarm is between two steps of the machine whose calls do not overlap. -/
def SwarmState.point : SwarmState → NodePoint
  | .starting => .building
  | .active => .looping
  | .ended => .ended

namespace P2pNode
open Nodes

def nodes (s : P2pNode) (relayRt : Option Nat) : Nodes :=
  ⟨relayRt, s.p2pRunning, s.swarmTx, s.swarms.map fun swarm => swarm.state.point⟩

variable {s s' : P2pNode} {i : Nat}

theorem nodes_getElem? (s : P2pNode) (relayRt : Option Nat) (i : Nat) :
    (s.nodes relayRt).nodes[i]? = s.swarms[i]?.map fun swarm => swarm.state.point :=
  List.getElem?_map

theorem nodes_peerCount (s : P2pNode) (relayRt : Option Nat) (peerCount : Nat) :
    nodes { s with peerCount := peerCount } relayRt = s.nodes relayRt :=
  rfl

theorem nodes_set (s : P2pNode) (relayRt : Option Nat) (flag : Bool) (i : Nat) (swarm : Swarm) :
    nodes { s with p2pRunning := flag, swarms := s.swarms.set i swarm } relayRt =
      { s.nodes relayRt with
        p2pRunning := flag
        nodes := (s.nodes relayRt).nodes.set i swarm.state.point } := by
  simp only [nodes, List.map_set]

/-- A swarm that has done something else leaves the nodes as they are. -/
theorem nodes_same (relayRt : Option Nat) {swarm swarm' : Swarm}
    (found : s.swarms[i]? = some swarm) (same : swarm'.state = swarm.state) :
    nodes { s with swarms := s.swarms.set i swarm' } relayRt = s.nodes relayRt := by
  have here : (s.nodes relayRt).nodes[i]? = some swarm.state.point := by
    rw [nodes_getElem?, found]
    rfl
  obtain ⟨bound, point⟩ := List.getElem?_eq_some_iff.mp here
  rw [nodes_set s relayRt s.p2pRunning, same, ← point, List.set_getElem_self]
  rfl

/-- A call of `init_node` that no other overlaps. -/
theorem initNode_simulated (s : P2pNode) (relayRt : Option Nat) (localPeerId : String) :
    ∃ events, Run Nodes.Step (s.nodes relayRt) events
      ((s.initNode relayRt localPeerId).1.nodes relayRt) := by
  cases flag : s.p2pRunning with
  | true =>
    have refused : ¬ (s.nodes relayRt).Passes := by
      intro passes
      cases flag.symm.trans passes.1
    refine ⟨[.initNode], .cons (congrArg some (initNode_refused refused)) ?_⟩
    simp only [P2pNode.initNode, flag, if_true]
    exact .nil _
  | false =>
    cases relayRt with
    | none =>
      have refused : ¬ (s.nodes none).Passes := fun passes => passes.2 rfl
      refine ⟨[.initNode], .cons (congrArg some (initNode_refused refused)) ?_⟩
      simp only [P2pNode.initNode, flag, Bool.false_eq_true, if_false]
      exact .nil _
    | some rt =>
      have passes : (s.nodes (some rt)).Passes := ⟨flag, nofun⟩
      have called := call_run passes
      have count : (s.nodes (some rt)).nodes.length = s.swarms.length := List.length_map _
      rw [count] at called
      refine ⟨_, Eq.subst ?_ called⟩
      simp only [P2pNode.initNode, flag, Bool.false_eq_true, if_false, nodes, List.map_append]
      rfl

theorem dialPeer_nodes (isMultiaddr : String → Bool) (s : P2pNode) (multiaddr : String)
    (relayRt : Option Nat) :
    (s.dialPeer isMultiaddr multiaddr).1.nodes relayRt = s.nodes relayRt := by
  simp only [dialPeer]
  split
  · rfl
  · split
    · rfl
    · split_ifs
      · rfl
      · apply nodes_same relayRt
        · assumption
        · rfl

/-- What a swarm does is one step of its node or two, or none if its point stays the same. -/
theorem run_simulated {event : SwarmEvent} (relayRt : Option Nat) (runs : s.run i event = some s') :
    ∃ events, Run Nodes.Step (s.nodes relayRt) events (s'.nodes relayRt) := by
  obtain ⟨swarm, found⟩ : ∃ swarm, s.swarms[i]? = some swarm := by
    cases found : s.swarms[i]? with
    | none =>
      cases event with
      | _ => simp only [run, found, Option.bind_eq_bind, Option.bind_none, reduceCtorEq] at runs
    | some swarm => exact ⟨swarm, rfl⟩
  have here : (s.nodes relayRt).nodes[i]? = some swarm.state.point := by
    rw [nodes_getElem?, found]
    rfl
  cases event with
  | built =>
    simp only [run, found, Option.bind_eq_bind, Option.bind_some] at runs
    split_ifs at runs with starting
    obtain rfl := Option.some.inj runs
    rw [starting] at here
    rw [nodes_set s relayRt true]
    exact ⟨[.node i (.build true)], .cons (node_iff.mpr ⟨.building, here, rfl⟩) (.nil _)⟩
  | failed =>
    simp only [run, found, Option.bind_eq_bind, Option.bind_some] at runs
    split_ifs at runs with starting
    obtain rfl := Option.some.inj runs
    rw [starting] at here
    rw [nodes_set s relayRt false]
    exact ⟨[.node i (.build false), .node i .finish], ends_run here rfl⟩
  | dial =>
    simp only [run, found, Option.bind_eq_bind, Option.bind_some] at runs
    split at runs
    next commands active _ =>
      obtain rfl := Option.some.inj runs
      rw [nodes_same relayRt found active.symm]
      exact ⟨[], .nil _⟩
    · cases runs
  | connected =>
    simp only [run, found, Option.bind_eq_bind, Option.bind_some] at runs
    split_ifs at runs
    obtain rfl := Option.some.inj runs
    rw [nodes_peerCount s relayRt (_ % _)]
    exact ⟨[], .nil _⟩
  | disconnected =>
    simp only [run, found, Option.bind_eq_bind, Option.bind_some] at runs
    split_ifs at runs
    obtain rfl := Option.some.inj runs
    rw [nodes_peerCount s relayRt (_ % _)]
    exact ⟨[], .nil _⟩
  | closed =>
    simp only [run, found, Option.bind_eq_bind, Option.bind_some] at runs
    split_ifs at runs with closes
    obtain rfl := Option.some.inj runs
    obtain ⟨active, _, other⟩ := closes
    rw [active] at here
    rw [nodes_set s relayRt false]
    exact ⟨[.node i .close, .node i .finish], ends_run here (if_neg other)⟩

end P2pNode

end Solnet.Native
