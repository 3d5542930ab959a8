import Mathlib.Data.List.MinMax
import Mathlib.Algebra.Order.BigOperators.Group.List
import Mathlib.Algebra.Order.Group.Nat
import Solnet.Daemon.Upstream
import Solnet.Lib.Runs

/-! Which node the load balancer selects: how the weighted strategy shares out its draws, and
what the errors of a node do to its selection. -/
namespace Solnet.Daemon.LoadBalancer
open Fallible Runs

/-! The weighted strategy. -/

/-- The place at which the loop over the nodes returns. -/
def pickIndex (pick : Int) : List LoadBalancerNode → Checked (Option Nat)
  | [] => .ok none
  | node :: rest => do
    let pick ← withinI32 .subOverflow (pick - asI32 node.weight)
    if pick ≤ 0 then return some 0
    else
      let later ← pickIndex pick rest
      return later.map (· + 1)

/-- The first place at which the weights, as `i32`, add up to the draw. -/
def reach (draw : Int) : List LoadBalancerNode → Option Nat
  | [] => none
  | node :: rest =>
    if draw ≤ asI32 node.weight then some 0 else (reach (draw - asI32 node.weight) rest).map (· + 1)

def totalWeight (nodes : List LoadBalancerNode) : Nat := (nodes.map LoadBalancerNode.weight).sum

/-- The loop returns the `i`-th node for this draw. -/
def picks (nodes : List LoadBalancerNode) (i pick : Nat) : Bool :=
  match pickIndex pick nodes with
  | .ok (some j) => j = i
  | _ => false

/-- Of the draws below the total weight, each node is returned for as many as it has weight. -/
def Proportional (nodes : List LoadBalancerNode) : Prop :=
  ∀ i node, nodes[i]? = some node →
    (List.range (totalWeight nodes)).countP (picks nodes i) = node.weight

variable {nodes rest : List LoadBalancerNode} {node : LoadBalancerNode} {pick : Int}
  {index : Option Nat}

theorem weightedPick_eq : weightedPick pick nodes = (do
    let index ← pickIndex pick nodes
    return index.bind fun i => (nodes[i]?).map LoadBalancerNode.endpoint) := by
  induction nodes generalizing pick with
  | nil => rfl
  | cons node rest ih =>
    rw [weightedPick, pickIndex, bind_assoc]
    congr 1
    funext next
    split
    · rfl
    · rw [ih, bind_assoc]
      congr 1
      funext later
      cases later <;> rfl

theorem pickIndex_ok (ok : pickIndex pick nodes = .ok index) : reach pick nodes = index := by
  induction nodes generalizing pick index with
  | nil => exact Except.ok.inj ok
  | cons node rest ih =>
    obtain ⟨next, within, ok⟩ := bind_ok_iff.mp ok
    obtain ⟨_, rfl⟩ := guarded_ok_iff.mp within
    rw [reach]
    split at ok
    · rename_i reached
      obtain rfl := Except.ok.inj ok
      rw [if_pos (by omega)]
    · rename_i short
      obtain ⟨later, picked, ok⟩ := bind_ok_iff.mp ok
      obtain rfl := Except.ok.inj ok
      rw [if_neg (by omega), ih picked]

theorem asI32_of_lt {n : Nat} (small : n < 2 ^ 31) : asI32 n = n := by
  have bits : (BitVec.ofNat 32 n).toNat = n := by
    rw [BitVec.toNat_ofNat]
    omega
  rw [asI32, BitVec.toInt_eq_toNat_of_lt (by omega), bits]

/-- With small weights nothing overflows. -/
theorem pickIndex_eq (low : 0 ≤ pick) (high : pick < 2 ^ 31)
    (small : ∀ node ∈ nodes, node.weight < 2 ^ 31) :
    pickIndex pick nodes = .ok (reach pick nodes) := by
  induction nodes generalizing pick with
  | nil => rfl
  | cons node rest ih =>
    obtain ⟨first, others⟩ := List.forall_mem_cons.mp small
    have weight : asI32 node.weight = node.weight := asI32_of_lt first
    rw [pickIndex, reach, withinI32, if_pos (by omega), bind_of_ok]
    by_cases reached : pick ≤ asI32 node.weight
    · rw [if_pos reached, if_pos (by omega)]
      rfl
    · rw [if_neg reached, if_neg (by omega), ih (by omega) (by omega) others]
      rfl

theorem weight_le_total (member : node ∈ nodes) : node.weight ≤ totalWeight nodes :=
  List.le_sum_of_mem (List.mem_map_of_mem member)

theorem picks_eq {i p : Nat} (fits : totalWeight nodes < 2 ^ 31) (drawn : p < totalWeight nodes) :
    picks nodes i p = decide (reach p nodes = some i) := by
  have small : ∀ node ∈ nodes, node.weight < 2 ^ 31 := fun node member =>
    Nat.lt_of_le_of_lt (weight_le_total member) fits
  rw [picks, pickIndex_eq (by omega) (by omega) small]
  cases reach p nodes with
  | none => rfl
  | some j => simp

theorem countP_range_le (n w : Nat) : (List.range n).countP (fun p => p ≤ w) = min n (w + 1) := by
  induction n with
  | zero => simp
  | succ n ih =>
    rw [List.range_succ, List.countP_append, ih, List.countP_singleton]
    split
    · rename_i inside
      rw [decide_eq_true_eq] at inside
      omega
    · rename_i outside
      rw [decide_eq_true_eq] at outside
      omega

/-- The first node is returned for one draw more than it has weight. -/
theorem count_first {first : LoadBalancerNode} (fits : totalWeight (first :: rest) < 2 ^ 31) :
    (List.range (totalWeight (first :: rest))).countP (picks (first :: rest) 0) =
      min (totalWeight (first :: rest)) (first.weight + 1) := by
  have weight : asI32 first.weight = first.weight :=
    asI32_of_lt (Nat.lt_of_le_of_lt (weight_le_total List.mem_cons_self) fits)
  rw [← countP_range_le]
  apply List.countP_congr
  intro p drawn
  rw [picks_eq fits (List.mem_range.mp drawn), decide_eq_true_eq, decide_eq_true_eq, reach, weight]
  by_cases reached : p ≤ first.weight
  · rw [if_pos (by omega)]
    simp [reached]
  · rw [if_neg (by omega)]
    simp [reached]

/-- The draws are shared out by weight only when no node after the first has any. -/
theorem proportional_iff (nodes : List LoadBalancerNode) (positive : 0 < totalWeight nodes)
    (fits : totalWeight nodes < 2 ^ 31) :
    Proportional nodes ↔ ∀ node ∈ nodes.tail, node.weight = 0 := by
  cases nodes with
  | nil => exact absurd positive (Nat.lt_irrefl 0)
  | cons first rest =>
    have split : totalWeight (first :: rest) = first.weight + totalWeight rest := rfl
    constructor
    · intro proportional node member
      have shared := proportional 0 first rfl
      rw [count_first fits] at shared
      have share : node.weight ≤ totalWeight rest := weight_le_total member
      omega
    · intro weightless i node found
      have none : totalWeight rest = 0 := by
        apply List.sum_eq_zero
        intro weight member
        obtain ⟨node, inside, rfl⟩ := List.mem_map.mp member
        exact weightless node inside
      cases i with
      | zero =>
        obtain rfl : first = node := Option.some.inj found
        rw [count_first fits]
        omega
      | succ i =>
        rw [weightless node (List.mem_of_getElem? found), List.countP_eq_zero]
        intro p drawn
        have below : p < totalWeight (first :: rest) := List.mem_range.mp drawn
        have weight : asI32 first.weight = first.weight := asI32_of_lt (by omega)
        rw [picks_eq fits below, decide_eq_true_eq, reach, weight, if_pos (by omega)]
        simp

def weighted (endpoint : String) (weight : Nat) : LoadBalancerNode :=
  ⟨endpoint, weight, 0, 0, 0, 0, true⟩

theorem proportional_spare :
    Proportional [weighted "http://a:8899" 3, weighted "http://b:8899" 0] :=
  (proportional_iff _ (by decide) (by decide)).mpr (by decide)

/-- Of two nodes of weight 1, the first is returned for both draws. -/
theorem equal_weights_not_proportional : ¬ ∀ nodes : List LoadBalancerNode,
    0 < totalWeight nodes → totalWeight nodes < 2 ^ 31 → Proportional nodes := by
  intro proportional
  have second := proportional [weighted "http://a:8899" 1, weighted "http://b:8899" 1]
    (by decide) (by decide) 1 (weighted "http://b:8899" 1) rfl
  exact absurd second (by decide)

/-! The draw of the selection. -/

theorem sum_ok {key : LoadBalancerNode → Nat} {width a b : Nat}
    (ok : nodes.foldlM (fun sum node => checkedAdd width sum (key node)) a = .ok b) :
    a + (nodes.map key).sum = b := by
  induction nodes generalizing a with
  | nil => exact Except.ok.inj ok
  | cons node rest ih =>
    obtain ⟨next, added, ok⟩ := bind_ok_iff.mp ok
    obtain ⟨_, rfl⟩ := addWithin_ok_iff.mp added
    rw [List.map_cons, List.sum_cons, ← Nat.add_assoc]
    exact ih ok

theorem sum_eq {key : LoadBalancerNode → Nat} {width a : Nat}
    (fits : a + (nodes.map key).sum < 2 ^ width) :
    nodes.foldlM (fun sum node => checkedAdd width sum (key node)) a =
      .ok (a + (nodes.map key).sum) := by
  induction nodes generalizing a with
  | nil => rfl
  | cons node rest ih =>
    rw [List.map_cons, List.sum_cons, ← Nat.add_assoc] at fits ⊢
    have first : checkedAdd width a (key node) = .ok (a + key node) :=
      if_pos (Nat.lt_of_le_of_lt (Nat.le_add_right _ _) fits)
    rw [List.foldlM_cons, first, bind_of_ok]
    exact ih fits

theorem reach_some {draw : Nat} (nonempty : nodes ≠ []) (fits : totalWeight nodes < 2 ^ 31)
    (inside : draw ≤ totalWeight nodes) :
    ∃ i node, reach draw nodes = some i ∧ nodes[i]? = some node := by
  induction nodes generalizing draw with
  | nil => exact absurd rfl nonempty
  | cons first rest ih =>
    have split : totalWeight (first :: rest) = first.weight + totalWeight rest := rfl
    have weight : asI32 first.weight = first.weight := asI32_of_lt (by omega)
    rw [reach, weight]
    by_cases reached : draw ≤ first.weight
    · exact ⟨0, first, if_pos (by omega), rfl⟩
    · have others : rest ≠ [] := by
        rintro rfl
        exact reached inside
      obtain ⟨i, node, found, listed⟩ : ∃ i node,
          reach ↑(draw - first.weight) rest = some i ∧ rest[i]? = some node :=
        ih others (by omega) (by omega)
      refine ⟨i + 1, node, ?_, listed⟩
      rw [if_neg (by omega), ← Int.ofNat_sub (by omega), found]
      rfl

/-- The selection by weight is the loop at the draw. -/
theorem selectNode_weighted {s : LoadBalancer} (strategy : s.strategy = .weightedRoundRobin)
    (alive : s.nodes.filter LoadBalancerNode.alive = nodes) (positive : 0 < totalWeight nodes)
    (fits : totalWeight nodes < 2 ^ 31) (random : UInt32) :
    ∃ i node, picks nodes i (random.toNat % totalWeight nodes) = true ∧ nodes[i]? = some node ∧
      s.selectNode random = .ok (s, some node.endpoint) := by
  have drawn : random.toNat % totalWeight nodes < totalWeight nodes := Nat.mod_lt _ positive
  cases nodes with
  | nil => exact absurd positive (Nat.lt_irrefl 0)
  | cons first rest =>
    obtain ⟨i, node, found, listed⟩ := reach_some (List.cons_ne_nil first rest) fits drawn.le
    have small : ∀ node ∈ first :: rest, node.weight < 2 ^ 31 := fun node member =>
      Nat.lt_of_le_of_lt (weight_le_total member) fits
    refine ⟨i, node, ?_, listed, ?_⟩
    · rw [picks_eq fits drawn, found]
      simp
    · have total : (first :: rest).foldlM (fun sum node => checkedAdd 32 sum node.weight) 0 =
          .ok (0 + totalWeight (first :: rest)) := sum_eq (by
        change 0 + totalWeight (first :: rest) < 2 ^ 32
        omega)
      have draw : asI32 (random.toNat % totalWeight (first :: rest)) =
          ↑(random.toNat % totalWeight (first :: rest)) := asI32_of_lt (by omega)
      simp only [selectNode, alive, strategy]
      rw [total, bind_of_ok, Nat.zero_add, if_neg positive.ne', weightedPick_eq, draw,
        pickIndex_eq (by omega) (by omega) small, found]
      simp [listed]

/-! Runs of the balancer, with the errors recorded for each endpoint. -/

inductive Event where
  | added (endpoint : String) (weight : UInt32)
  | selected (random : UInt32) (endpoint : Option String)
  | succeeded (endpoint : String) (latencyMs : UInt64)
  | failed (endpoint : String)
  deriving DecidableEq, Repr

def Performs (s : LoadBalancer) : Event → LoadBalancer → Prop
  | .added endpoint weight, s' => s.addNode endpoint weight.toNat = s'
  | .selected random endpoint, s' => s.selectNode random = .ok (s', endpoint)
  | .succeeded endpoint latencyMs, s' => s.recordSuccess endpoint latencyMs.toNat = .ok s'
  | .failed endpoint, s' => s.recordError endpoint = .ok s'

/-- An error is recorded for an endpoint that is listed. -/
def noteError (s : LoadBalancer) : Event → (String → Nat) → String → Nat
  | .failed endpoint, errors, n =>
    errors n + if n = endpoint ∧ s.nodes.any (fun node => node.endpoint = endpoint) then 1 else 0
  | _, errors, n => errors n

/-- The balancer beside the errors recorded so far. -/
abbrev Recorded := LoadBalancer × (String → Nat)

def Recorded.start (strategy : Strategy) : Recorded := (new strategy, fun _ => 0)

/-- More than 11 errors, while another node has none. -/
def Recorded.Failing (x : Recorded) (endpoint : String) : Prop :=
  11 < x.2 endpoint ∧ ∃ node ∈ x.1.nodes, x.2 node.endpoint = 0

/-- A failing endpoint is not selected. -/
def Isolates (x : Recorded) : Event → Prop
  | .selected _ (some endpoint) => ¬ x.Failing endpoint
  | _ => True

/-- Another node has less of the key, or as much and was added before. -/
def Behind (key : LoadBalancerNode → Nat) (nodes : List LoadBalancerNode) (i : Nat)
    (node : LoadBalancerNode) : Prop :=
  ∃ j other, nodes[j]? = some other ∧ (key other < key node ∨ key other = key node ∧ j < i)

/-- What the weights of the nodes up to the `i`-th add up to, as `i32`. -/
def weightTo (nodes : List LoadBalancerNode) (i : Nat) : Int :=
  ((nodes.take (i + 1)).map fun node => asI32 node.weight).sum

/-- The weights up to the node do not add up to the draw, or those up to an earlier one do. The
first node is left with the draws that no weights add up to. -/
def OutsideShare (nodes : List LoadBalancerNode) (draw : Int) (i : Nat) : Prop :=
  (weightTo nodes i < draw ∨ ∃ j < i, draw ≤ weightTo nodes j) ∧
    (i = 0 → ∃ j < nodes.length, draw ≤ weightTo nodes j)

/-- The strategy leaves the `i`-th node out: it is not its turn, there is a better one by
connections or latency, or the draw is outside its share of the weights. -/
def PassesOver (s : LoadBalancer) (random : UInt32) (i : Nat) (node : LoadBalancerNode) : Prop :=
  match s.strategy with
  | .roundRobin => s.roundRobinCounter % s.nodes.length ≠ i
  | .leastConnections => Behind LoadBalancerNode.currentConnections s.nodes i node
  | .weightedRoundRobin =>
    if totalWeight s.nodes = 0 then i ≠ 0
    else OutsideShare s.nodes (asI32 (random.toNat % totalWeight s.nodes)) i
  | .latencyBased | .adaptive => Behind LoadBalancerNode.avgLatencyMs s.nodes i node

/-- Each failing node is left out by the strategy. -/
def PassesFailing (x : Recorded) : Event → Prop
  | .selected random _ => ∀ i node, x.1.nodes[i]? = some node → x.Failing node.endpoint →
      x.1.PassesOver random i node
  | _ => True

/-- No operation marks a node as dead or counts a connection. -/
def Untouched (s : LoadBalancer) : Prop :=
  ∀ node ∈ s.nodes, node.alive = true ∧ node.currentConnections = 0

variable {s s' : LoadBalancer} {event : Event} {random : UInt32} {selected : Option String}

/-- The place of the first node with the least key, which alone has none before it. -/
theorem argmin_behind {key : LoadBalancerNode → Nat} {least : LoadBalancerNode}
    (found : nodes.argmin key = some least) :
    nodes[nodes.idxOf least]? = some least ∧ ∀ i node, nodes[i]? = some node →
      (Behind key nodes i node ↔ i ≠ nodes.idxOf least) := by
  obtain ⟨member, below, first⟩ := List.argmin_eq_some_iff.mp found
  have here : nodes[nodes.idxOf least]? = some least := List.getElem?_idxOf member
  have index {i : Nat} {node : LoadBalancerNode} (listed : nodes[i]? = some node) :
      nodes.idxOf node ≤ i := by
    obtain ⟨inside, rfl⟩ := List.getElem?_eq_some_iff.mp listed
    by_contra later
    have earlier := List.not_of_lt_findIdx (Nat.not_le.mp later)
    simp at earlier
  refine ⟨here, fun i node listed => ⟨?_, fun elsewhere => ?_⟩⟩
  · rintro ⟨j, other, listed', better⟩ rfl
    obtain rfl := Option.some.inj (listed.symm.trans here)
    have least_le := below other (List.mem_of_getElem? listed')
    rcases better with less | ⟨same, earlier⟩
    · exact absurd less (Nat.not_lt.mpr least_le)
    · have before := first other (List.mem_of_getElem? listed') (Nat.le_of_eq same)
      exact absurd (before.trans (index listed')) (Nat.not_le.mpr earlier)
  · refine ⟨nodes.idxOf least, least, here, ?_⟩
    rcases Nat.lt_or_eq_of_le (below node (List.mem_of_getElem? listed)) with less | same
    · exact .inl less
    · have before := first node (List.mem_of_getElem? listed) (Nat.le_of_eq same.symm)
      exact .inr ⟨same, Nat.lt_of_le_of_ne (before.trans (index listed)) (Ne.symm elsewhere)⟩

theorem weightTo_succ (node : LoadBalancerNode) (rest : List LoadBalancerNode) (i : Nat) :
    weightTo (node :: rest) (i + 1) = asI32 node.weight + weightTo rest i := by
  rw [weightTo, List.take_succ_cons, List.map_cons, List.sum_cons]
  rfl

theorem weightTo_zero (node : LoadBalancerNode) (rest : List LoadBalancerNode) :
    weightTo (node :: rest) 0 = asI32 node.weight := by
  simp [weightTo]

theorem reach_none (short : reach pick nodes = none) : ∀ j < nodes.length,
    weightTo nodes j < pick := by
  induction nodes generalizing pick with
  | nil => exact fun j inside => absurd inside (Nat.not_lt_zero j)
  | cons node rest ih =>
    rw [reach] at short
    split at short
    · cases short
    · rename_i beyond
      intro j inside
      cases j with
      | zero => exact weightTo_zero node rest ▸ Int.not_le.mp beyond
      | succ j =>
        have later := ih (Option.map_eq_none_iff.mp short) j (Nat.lt_of_succ_lt_succ inside)
        rw [weightTo_succ]
        omega

theorem reach_some_iff {i : Nat} (reached : reach pick nodes = some i) :
    i < nodes.length ∧ pick ≤ weightTo nodes i ∧ ∀ j < i, weightTo nodes j < pick := by
  induction nodes generalizing pick i with
  | nil => cases reached
  | cons node rest ih =>
    rw [reach] at reached
    split at reached
    · rename_i here
      obtain rfl := Option.some.inj reached
      exact ⟨Nat.succ_pos _, weightTo_zero node rest ▸ here, nofun⟩
    · rename_i beyond
      obtain ⟨k, later, rfl⟩ := Option.map_eq_some_iff.mp reached
      obtain ⟨inside, reaches, short⟩ := ih later
      refine ⟨Nat.succ_lt_succ inside, ?_, ?_⟩
      · rw [weightTo_succ]
        omega
      · intro j earlier
        cases j with
        | zero => exact weightTo_zero node rest ▸ Int.not_le.mp beyond
        | succ j =>
          have before := short j (Nat.lt_of_succ_lt_succ earlier)
          rw [weightTo_succ]
          omega

/-- The draw is in the share of one node only. -/
theorem outsideShare_iff {i : Nat} (inside : i < nodes.length) :
    OutsideShare nodes pick i ↔ i ≠ (reach pick nodes).getD 0 := by
  unfold OutsideShare
  cases reached : reach pick nodes with
  | none =>
    have short := reach_none reached
    constructor
    · rintro ⟨_, first⟩ rfl
      obtain ⟨j, inside, reaches⟩ := first rfl
      exact absurd (short j inside) (Int.not_lt.mpr reaches)
    · intro later
      exact ⟨.inl (short i inside), fun first => absurd first later⟩
  | some k =>
    obtain ⟨listed, reaches, short⟩ := reach_some_iff reached
    rw [Option.getD_some]
    constructor
    · rintro ⟨beyond | ⟨j, earlier, before⟩, _⟩ rfl
      · exact absurd beyond (Int.not_lt.mpr reaches)
      · exact absurd (short j earlier) (Int.not_lt.mpr before)
    · intro other
      refine ⟨?_, fun _ => ⟨k, listed, reaches⟩⟩
      rcases Nat.lt_or_gt_of_ne other with before | after
      · exact .inl (short i before)
      · exact .inr ⟨k, after, reaches⟩

theorem weightedPick_ok {picked : Option String} (ok : weightedPick pick nodes = .ok picked) :
    picked = ((reach pick nodes).bind fun i => nodes[i]?).map LoadBalancerNode.endpoint := by
  rw [weightedPick_eq] at ok
  obtain ⟨index, walked, ok⟩ := bind_ok_iff.mp ok
  obtain rfl := Except.ok.inj ok
  rw [pickIndex_ok walked]
  cases index <;> rfl

theorem Untouched.connections (untouched : Untouched s) {width connections : Nat}
    (summed : s.nodes.foldlM (fun sum node => checkedAdd width sum node.currentConnections) 0 =
      .ok connections) : connections = 0 := by
  rw [← sum_ok summed, Nat.zero_add]
  apply List.sum_eq_zero
  intro count member
  obtain ⟨node, inside, rfl⟩ := List.mem_map.mp member
  exact (untouched node inside).2

/-- The strategy leaves out all nodes but the one at this place. -/
def Takes (s : LoadBalancer) (random : UInt32) (k : Nat) : Prop :=
  ∀ i node, s.nodes[i]? = some node → (s.PassesOver random i node ↔ i ≠ k)

/-- What the selection comes to when no node is dead and none has connections. -/
theorem selectNode_takes (untouched : Untouched s)
    (ok : s.selectNode random = .ok (s', selected)) :
    s'.nodes = s.nodes ∧ (s.nodes = [] ∧ selected = none ∨ ∃ k node, s.nodes[k]? = some node ∧
      selected = some node.endpoint ∧ s.Takes random k) := by
  have all : s.nodes.filter LoadBalancerNode.alive = s.nodes :=
    List.filter_eq_self.mpr fun node member => (untouched node member).1
  have least {key : LoadBalancerNode → Nat} {first : LoadBalancerNode}
      {rest : List LoadBalancerNode} (alive : s.nodes = first :: rest)
      (passes : ∀ i node, s.PassesOver random i node = Behind key s.nodes i node) :
      ∃ k node, s.nodes[k]? = some node ∧
        ((first :: rest).argmin key).map LoadBalancerNode.endpoint = some node.endpoint ∧
        s.Takes random k := by
    cases found : (first :: rest).argmin key with
    | none => cases List.argmin_eq_none.mp found
    | some node =>
      rw [← alive] at found
      obtain ⟨here, behind⟩ := argmin_behind found
      refine ⟨_, node, here, rfl, fun i other listed => ?_⟩
      rw [passes]
      exact behind i other listed
  cases selectNode_selects ok with
  | noneAlive alive => exact ⟨rfl, .inl ⟨all.symm.trans alive, rfl⟩⟩
  | roundRobin alive strategy =>
    rw [all] at alive
    rw [← alive]
    have inside : s.roundRobinCounter % s.nodes.length < s.nodes.length :=
      Nat.mod_lt _ (alive ▸ Nat.succ_pos _)
    have turn := List.getElem?_eq_getElem inside
    refine ⟨rfl, .inr ⟨_, _, turn, by rw [turn]; rfl, fun i other _ => ?_⟩⟩
    simp only [PassesOver, strategy]
    exact ne_comm
  | leastConnections alive strategy =>
    rw [all] at alive
    exact ⟨rfl, .inr (least alive fun i node => by simp only [PassesOver, strategy])⟩
  | latencyBased alive strategy =>
    rw [all] at alive
    exact ⟨rfl, .inr (least alive fun i node => by simp only [PassesOver, strategy])⟩
  | @weightless first rest alive strategy summed =>
    rw [all] at alive
    have zero : totalWeight (first :: rest) = 0 := by
      rw [← sum_ok summed, Nat.zero_add]
      rfl
    refine ⟨rfl, .inr ⟨0, first, by rw [alive]; rfl, rfl, fun i other _ => ?_⟩⟩
    simp only [PassesOver, strategy, alive, zero, if_true]
  | @weighted first rest total picked alive strategy summed positive walked =>
    rw [all] at alive
    obtain rfl : totalWeight (first :: rest) = total := by
      rw [← sum_ok summed, Nat.zero_add]
      rfl
    rw [weightedPick_ok walked]
    rw [← alive] at positive ⊢
    have takes : s.Takes random
        ((reach (asI32 (random.toNat % totalWeight s.nodes)) s.nodes).getD 0) := by
      intro i other listed
      simp only [PassesOver, strategy, if_neg positive]
      exact outsideShare_iff (List.getElem?_eq_some_iff.mp listed).1
    refine ⟨rfl, .inr ?_⟩
    cases reached : reach (asI32 (random.toNat % totalWeight s.nodes)) s.nodes with
    | none =>
      rw [reached] at takes
      exact ⟨0, first, by rw [alive]; rfl, rfl, takes⟩
    | some k =>
      rw [reached] at takes
      have turn := List.getElem?_eq_getElem (reach_some_iff reached).1
      exact ⟨k, _, turn, by rw [Option.bind_some, turn]; rfl, takes⟩
  | adaptive alive strategy summed =>
    rw [all] at alive
    rw [← alive] at summed
    obtain rfl := untouched.connections summed
    rw [Nat.zero_div, if_neg (Nat.not_lt_zero 100)]
    exact ⟨rfl, .inr (least alive fun i node => by simp only [PassesOver, strategy])⟩

theorem updateFirst_keeps {endpoint : String} {P : LoadBalancerNode → Prop}
    {update : LoadBalancerNode → Checked LoadBalancerNode} {updated : List LoadBalancerNode}
    (keeps : ∀ node node', update node = .ok node' → P node → P node')
    (ok : updateFirst endpoint update nodes = .ok updated) (all : ∀ node ∈ nodes, P node) :
    ∀ node ∈ updated, P node := by
  induction nodes generalizing updated with
  | nil =>
    obtain rfl := Except.ok.inj ok
    exact all
  | cons first rest ih =>
    obtain ⟨here, others⟩ := List.forall_mem_cons.mp all
    rw [updateFirst] at ok
    split at ok
    · obtain ⟨node, changed, ok⟩ := bind_ok_iff.mp ok
      obtain rfl := Except.ok.inj ok
      exact List.forall_mem_cons.mpr ⟨keeps first node changed here, others⟩
    · obtain ⟨later, changed, ok⟩ := bind_ok_iff.mp ok
      obtain rfl := Except.ok.inj ok
      exact List.forall_mem_cons.mpr ⟨here, ih changed others⟩

theorem performs_untouched (untouched : Untouched s) (performs : Performs s event s') :
    Untouched s' := by
  cases event with
  | added endpoint weight =>
    obtain rfl := performs
    exact List.forall_mem_append.mpr ⟨untouched, List.forall_mem_singleton.mpr ⟨rfl, rfl⟩⟩
  | selected random endpoint =>
    intro node member
    rw [(selectNode_takes untouched performs).1] at member
    exact untouched node member
  | succeeded endpoint latencyMs =>
    obtain ⟨nodes, updated, ok⟩ := bind_ok_iff.mp performs
    obtain rfl := Except.ok.inj ok
    refine updateFirst_keeps ?_ updated untouched
    intro node node' moved kept
    obtain ⟨total, _, ok⟩ := bind_ok_iff.mp moved
    obtain rfl := Except.ok.inj ok
    exact kept
  | failed endpoint =>
    obtain ⟨nodes, updated, ok⟩ := bind_ok_iff.mp performs
    obtain rfl := Except.ok.inj ok
    refine updateFirst_keeps ?_ updated untouched
    intro node node' counted kept
    obtain rfl := Except.ok.inj counted
    exact kept

theorem isolates_iff {x : Recorded} (untouched : Untouched x.1)
    (ok : x.1.selectNode random = .ok (s', selected)) :
    Isolates x (.selected random selected) ↔ PassesFailing x (.selected random selected) := by
  obtain ⟨_, ⟨empty, rfl⟩ | ⟨k, taken, here, rfl, takes⟩⟩ := selectNode_takes untouched ok
  · simp [Isolates, PassesFailing, empty]
  · constructor
    · intro isolated i node listed failing
      refine (takes i node listed).mpr ?_
      rintro rfl
      obtain rfl := Option.some.inj (listed.symm.trans here)
      exact isolated failing
    · intro passes failing
      exact (takes k taken here).mp (passes k taken here failing) rfl

/-- Errors play no part in the selection: a failing endpoint is never selected in a run exactly
when the strategy leaves each failing node out. -/
theorem isolates_iff_passesFailing (strategy : Strategy) (events : List Event) :
    EachStep (Traced Performs noteError) Isolates (Recorded.start strategy) events ↔
      EachStep (Traced Performs noteError) PassesFailing (Recorded.start strategy) events := by
  have keeps (x : Recorded) (e : Event) (y : Recorded) (untouched : Untouched x.1)
      (step : Traced Performs noteError x e y) : Untouched y.1 :=
    performs_untouched untouched step.1
  refine eachStep_congr keeps ?_ (nofun : Untouched (Recorded.start strategy).1)
  intro x e y untouched step
  cases e with
  | selected random endpoint => exact isolates_iff untouched step.1
  | added endpoint weight => exact Iff.rfl
  | succeeded endpoint latencyMs => exact Iff.rfl
  | failed endpoint => exact Iff.rfl

theorem fails_again (n : Nat) {x : Recorded} {first : LoadBalancerNode}
    (nodes : x.1.nodes = first :: rest) : ∃ y count,
      Run (Traced Performs noteError) x (List.replicate n (.failed first.endpoint)) y ∧
      y.1 = { x.1 with nodes := { first with errorCount := count } :: rest } ∧
      ∀ m, y.2 m = x.2 m + if m = first.endpoint then n else 0 := by
  induction n generalizing x first with
  | zero =>
    refine ⟨x, first.errorCount, .nil x, ?_, fun m => by simp⟩
    rw [← nodes]
  | succ n ih =>
    obtain ⟨⟨listed, strategy, counter⟩, errors⟩ := x
    obtain rfl : listed = first :: rest := nodes
    let before : LoadBalancer := ⟨first :: rest, strategy, counter⟩
    let counted := { first with errorCount := (first.errorCount + 1) % 2 ^ 64 }
    let after : LoadBalancer := ⟨counted :: rest, strategy, counter⟩
    have step : Performs before (.failed first.endpoint) after := by
      simp [before, after, counted, Performs, recordError, updateFirst]
    have here : after.nodes = counted :: rest := rfl
    obtain ⟨y, count, run, state, recorded⟩ :=
      ih (x := (after, noteError before (.failed first.endpoint) errors)) here
    refine ⟨y, count, .cons (traced_of step errors) run, state, fun m => ?_⟩
    rw [recorded m]
    by_cases same : m = first.endpoint
    · simp [before, counted, noteError, same]
      omega
    · simp [before, counted, noteError, same]

/-- Two nodes without errors, of which the first is always selected. -/
def twoNodes : Recorded :=
  (⟨[weighted "http://a:8899" 1, weighted "http://b:8899" 1], .leastConnections, 0⟩, fun _ => 0)

def twelveErrors : List Event :=
  .added "http://a:8899" 1 :: .added "http://b:8899" 1 ::
    List.replicate 12 (.failed "http://a:8899")

theorem twoNodes_run : Run (Traced Performs noteError) (Recorded.start .leastConnections)
    [.added "http://a:8899" 1, .added "http://b:8899" 1] twoNodes := by
  have first : Performs (new .leastConnections) (.added "http://a:8899" 1)
      ⟨[weighted "http://a:8899" 1], .leastConnections, 0⟩ := rfl
  have second : Performs ⟨[weighted "http://a:8899" 1], .leastConnections, 0⟩
      (.added "http://b:8899" 1) twoNodes.1 := rfl
  exact .cons (traced_of first _) (.cons (traced_of second _) (.nil _))

/-- The same two nodes, with the quicker one second. -/
def slowNode : LoadBalancerNode := ⟨"http://a:8899", 1, 0, 1, 0, 10, true⟩

def slowFirst : Recorded :=
  (⟨[slowNode, weighted "http://b:8899" 1], .latencyBased, 0⟩, fun _ => 0)

def slowErrors : List Event :=
  [.added "http://a:8899" 1, .added "http://b:8899" 1, .succeeded "http://a:8899" 100] ++
    List.replicate 12 (.failed "http://a:8899")

theorem performs_deterministic : Deterministic Performs := by
  intro s event t u first second
  cases event with
  | added endpoint weight => exact first.symm.trans second
  | selected random endpoint =>
    exact (Prod.mk.inj (Except.ok.inj (first.symm.trans second))).1
  | succeeded endpoint latencyMs => exact Except.ok.inj (first.symm.trans second)
  | failed endpoint => exact Except.ok.inj (first.symm.trans second)

/-- The first node fails, and the strategy takes the second one as the quicker one. -/
theorem quicker_node_selected :
    EachStep (Traced Performs noteError) Isolates (Recorded.start .latencyBased)
        (slowErrors ++ [.selected 0 (some "http://b:8899")]) ∧
      ∃ x y, Run (Traced Performs noteError) (Recorded.start .latencyBased) slowErrors x ∧
        Recorded.Failing x "http://a:8899" ∧
        Traced Performs noteError x (.selected 0 (some "http://b:8899")) y := by
  have before : Run (Traced Performs noteError) (Recorded.start .latencyBased)
      [.added "http://a:8899" 1, .added "http://b:8899" 1, .succeeded "http://a:8899" 100]
      slowFirst :=
    .cons (traced_of rfl _) (.cons (traced_of rfl _) (.cons (traced_of rfl _) (.nil _)))
  obtain ⟨⟨s, errors⟩, count, failed, state, recorded⟩ :=
    fails_again 12 (show slowFirst.1.nodes = slowNode :: [weighted "http://b:8899" 1] from rfl)
  obtain rfl : s = _ := state
  have run := run_append_iff.mpr ⟨slowFirst, before, failed⟩
  have twelve : errors "http://a:8899" = 12 := (recorded _).trans (by decide)
  have none : errors "http://b:8899" = 0 := (recorded _).trans (by decide)
  refine ⟨(isolates_iff_passesFailing _ _).mpr ?_, _, _, run, ?_, traced_of rfl errors⟩
  · refine eachStep_concat performs_deterministic.traced run ?_ ?_
    · intro event member x
      cases event with
      | selected random endpoint => simp [slowErrors] at member
      | added | succeeded | failed => trivial
    · intro i node listed failing
      cases i with
      | zero =>
        obtain rfl := Option.some.inj listed
        exact ⟨1, weighted "http://b:8899" 1, rfl, .inl (show 0 < 10 by decide)⟩
      | succ i =>
        obtain rfl : node = weighted "http://b:8899" 1 :=
          List.mem_singleton.mp (List.mem_of_getElem? listed)
        have many : 11 < errors "http://b:8899" := failing.1
        rw [none] at many
        exact absurd many (by decide)
  · have many : 11 < errors "http://a:8899" := by rw [twelve]; decide
    refine ⟨many, weighted "http://b:8899" 1, ?_, none⟩
    exact List.mem_cons_of_mem _ List.mem_cons_self

theorem failing_node_selected : ¬ ∀ (strategy : Strategy) (events : List Event),
    EachStep (Traced Performs noteError) Isolates (Recorded.start strategy) events := by
  intro isolates
  obtain ⟨⟨s, errors⟩, count, failed, state, recorded⟩ := fails_again 12
    (show twoNodes.1.nodes = weighted "http://a:8899" 1 :: [weighted "http://b:8899" 1] from rfl)
  obtain rfl : s = _ := state
  have run : Run (Traced Performs noteError) (Recorded.start .leastConnections) twelveErrors
      (_, errors) := run_append_iff.mpr ⟨twoNodes, twoNodes_run, failed⟩
  have selects := isolates .leastConnections
    (twelveErrors ++ [.selected 0 (some "http://a:8899")]) twelveErrors
    (.selected 0 (some "http://a:8899")) [] _ _ rfl run (traced_of rfl errors)
  apply selects
  refine ⟨?_, weighted "http://b:8899" 1, List.mem_cons_of_mem _ List.mem_cons_self, ?_⟩
  · rw [recorded]
    decide
  · rw [recorded]
    decide

end Solnet.Daemon.LoadBalancer
