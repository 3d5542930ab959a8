import Mathlib.Data.Multiset.Count
import Mathlib.Data.Multiset.MapFold
import Solnet.Daemon.Upstream
import Solnet.Lib.Runs
import Solnet.Lib.Smoothing

/-! The average latency of a node, over calls of `record_success` that follow one another and
over calls that overlap. A call holds the list of nodes only for reading. -/
namespace Solnet.Daemon
open Runs Fallible Smoothing

namespace LoadBalancer

/-- The node that a call for the endpoint finds. -/
def finds (s : LoadBalancer) (endpoint : String) : Option LoadBalancerNode :=
  s.nodes.find? fun node => node.endpoint = endpoint

/-- Calls that follow one another. -/
def recordSuccesses (endpoint : String) (s : LoadBalancer) (latencies : List Nat) :
    Checked LoadBalancer :=
  latencies.foldlM (fun s latencyMs => s.recordSuccess endpoint latencyMs) s

variable {s : LoadBalancer} {node node' : LoadBalancerNode} {nodes : List LoadBalancerNode}
  {endpoint : String} {latencyMs : Nat} {latencies : List Nat}

theorem movingAverage_ok (fits : node.avgLatencyMs * 9 + latencyMs < 2 ^ 64) :
    movingAverage node latencyMs = .ok { node with
      totalRequests := (node.totalRequests + 1) % 2 ^ 64
      avgLatencyMs := smooth 9 node.avgLatencyMs latencyMs } :=
  bind_ok_iff.mpr ⟨_, addWithin_ok_iff.mpr ⟨fits, rfl⟩, rfl⟩

theorem updateFirst_found (update : LoadBalancerNode → Checked LoadBalancerNode)
    (found : nodes.find? (fun node => node.endpoint = endpoint) = some node)
    (updated : update node = .ok node') (named : node'.endpoint = node.endpoint) :
    ∃ nodes', updateFirst endpoint update nodes = .ok nodes' ∧
      nodes'.find? (fun node => node.endpoint = endpoint) = some node' := by
  induction nodes with
  | nil => cases found
  | cons first rest ih =>
    rw [List.find?_cons] at found
    by_cases here : first.endpoint = endpoint
    · rw [decide_eq_true here] at found
      obtain rfl := Option.some.inj found
      refine ⟨node' :: rest, ?_, ?_⟩
      · rw [updateFirst, if_pos here, updated]
        rfl
      · rw [List.find?_cons, decide_eq_true (named.trans here)]
    · rw [decide_eq_false here] at found
      obtain ⟨rest', ok, found'⟩ := ih found
      refine ⟨first :: rest', ?_, ?_⟩
      · rw [updateFirst, if_neg here, ok]
        rfl
      · rw [List.find?_cons, decide_eq_false here]
        exact found'

/-- Small latencies never overflow, and the average is the smoothed one. -/
theorem recordSuccesses_ok (found : s.finds endpoint = some node)
    (old : node.avgLatencyMs * 10 < 2 ^ 63) (samples : ∀ l ∈ latencies, l * 10 < 2 ^ 63) :
    ∃ s' node', recordSuccesses endpoint s latencies = .ok s' ∧ s'.finds endpoint = some node' ∧
      node'.avgLatencyMs = smoothed 9 node.avgLatencyMs latencies := by
  induction latencies generalizing s node with
  | nil => exact ⟨s, node, rfl, found, rfl⟩
  | cons latencyMs latencies ih =>
    obtain ⟨first, rest⟩ := List.forall_mem_cons.mp samples
    have fits : node.avgLatencyMs * 9 + latencyMs < 2 ^ 64 := by omega
    obtain ⟨nodes, ok, found'⟩ :=
      updateFirst_found (movingAverage · latencyMs) found (movingAverage_ok fits) rfl
    have records : s.recordSuccess endpoint latencyMs = .ok { s with nodes } :=
      bind_ok_iff.mpr ⟨nodes, ok, rfl⟩
    have bound : smooth 9 node.avgLatencyMs latencyMs ≤ (2 ^ 63 - 1) / 10 :=
      smooth_le (by omega) (by omega)
    have small : smooth 9 node.avgLatencyMs latencyMs * 10 < 2 ^ 63 := by omega
    obtain ⟨s', node', later, finds, average⟩ := ih (s := { s with nodes }) found' small rest
    exact ⟨s', node', bind_ok_iff.mpr ⟨_, records, later⟩, finds, average⟩

/-- The average stays between the least and the greatest of its first value and the samples,
and under equal samples it settles at most 9 below them. -/
theorem average_tracks_latency {s : LoadBalancer} {endpoint : String} {node : LoadBalancerNode}
    (found : s.finds endpoint = some node) (small : node.avgLatencyMs * 10 < 2 ^ 63) :
    (∀ latencies : List Nat, (∀ l ∈ latencies, l * 10 < 2 ^ 63) →
      ∃ s' node', recordSuccesses endpoint s latencies = .ok s' ∧
        s'.finds endpoint = some node' ∧
        ∀ low high, (node.avgLatencyMs :: latencies).min? = some low →
          (node.avgLatencyMs :: latencies).max? = some high →
            low ≤ node'.avgLatencyMs ∧ node'.avgLatencyMs ≤ high) ∧
    ∀ latencyMs : Nat, latencyMs * 10 < 2 ^ 63 → ∃ n, ∀ m, n ≤ m →
      ∃ s' node', recordSuccesses endpoint s (List.replicate m latencyMs) = .ok s' ∧
        s'.finds endpoint = some node' ∧
        latencyMs - 9 ≤ node'.avgLatencyMs ∧ node'.avgLatencyMs ≤ latencyMs ∧
        (latencyMs ≤ node.avgLatencyMs → node'.avgLatencyMs = latencyMs) := by
  constructor
  · intro latencies samples
    obtain ⟨s', node', ok, finds, average⟩ := recordSuccesses_ok found small samples
    refine ⟨s', node', ok, finds, fun low high least greatest => ?_⟩
    obtain ⟨low_old, low_samples⟩ := List.forall_mem_cons.mp (List.min?_eq_some_iff.mp least).2
    obtain ⟨old_high, samples_high⟩ := List.forall_mem_cons.mp (List.max?_eq_some_iff.mp greatest).2
    rw [average]
    exact ⟨le_smoothed low_old low_samples, smoothed_le old_high samples_high⟩
  · intro latencyMs sample
    obtain ⟨n, settles⟩ := smoothed_settles 9 node.avgLatencyMs latencyMs
    refine ⟨n, fun m late => ?_⟩
    have samples : ∀ l ∈ List.replicate m latencyMs, l * 10 < 2 ^ 63 := by
      intro l member
      rw [List.eq_of_mem_replicate member]
      exact sample
    obtain ⟨s', node', ok, finds, average⟩ := recordSuccesses_ok found small samples
    obtain ⟨upper, lower, exactly⟩ := settles m late
    rw [← average] at upper lower exactly
    exact ⟨s', node', ok, finds, Nat.sub_le_of_le_add lower, upper, exactly⟩

def balancerOf (endpoint : String) : LoadBalancer := (new .latencyBased).addNode endpoint 1

theorem latencies_tracked :
    ∃ s' node', recordSuccesses "http://a:8899" (balancerOf "http://a:8899") [100, 200] = .ok s' ∧
      s'.finds "http://a:8899" = some node' ∧
      0 ≤ node'.avgLatencyMs ∧ node'.avgLatencyMs ≤ 200 := by
  have found : (balancerOf "http://a:8899").finds "http://a:8899" =
      some ⟨"http://a:8899", 1, 0, 0, 0, 0, true⟩ := rfl
  obtain ⟨between, _⟩ := average_tracks_latency found (by decide)
  obtain ⟨s', node', ok, finds, tracked⟩ := between [100, 200] (by decide)
  exact ⟨s', node', ok, finds, tracked 0 200 rfl rfl⟩

end LoadBalancer

/-! Calls that overlap. -/

/-- Where a call that found the node stands before its next access to it. A call that `stores`
has loaded `current`. -/
inductive LatencyPoint where
  | counts (latencyMs : Nat)
  | loads (latencyMs : Nat)
  | stores (latencyMs current : Nat)
  deriving DecidableEq, Repr

namespace LatencyPoint

def latencyMs : LatencyPoint → Nat
  | counts latencyMs | loads latencyMs | stores latencyMs _ => latencyMs

def act (node : LoadBalancerNode) : LatencyPoint → Checked LoadBalancerNode
  | counts _ => .ok { node with totalRequests := (node.totalRequests + 1) % 2 ^ 64 }
  | loads _ => .ok node
  | stores latencyMs current => do
    let total ← checkedAdd 64 (current * 9) latencyMs
    return { node with avgLatencyMs := total / 10 }

def next (node : LoadBalancerNode) : LatencyPoint → Multiset LatencyPoint
  | counts latencyMs => {loads latencyMs}
  | loads latencyMs => {stores latencyMs node.avgLatencyMs}
  | stores _ _ => 0

end LatencyPoint

/-- The node, where each call in progress stands, and the panic that ended the daemon, if one
did. -/
structure LatencyWorld where
  node : LoadBalancerNode
  calls : Multiset LatencyPoint
  halted : Option Halt

inductive LatencyEvent where
  | recordSuccess (latencyMs : Nat)
  | advance (point : LatencyPoint)
  deriving DecidableEq, Repr

/-- The latencies of the calls that a run begins. -/
def samples : List LatencyEvent → List Nat
  | [] => []
  | .recordSuccess latencyMs :: events => latencyMs :: samples events
  | .advance _ :: events => samples events

namespace LatencyWorld

def start (node : LoadBalancerNode) : LatencyWorld := ⟨node, 0, none⟩

def step (w : LatencyWorld) (event : LatencyEvent) : Option LatencyWorld :=
  if w.halted.isSome then none
  else
    match event with
    | .recordSuccess latencyMs => some { w with calls := .counts latencyMs ::ₘ w.calls }
    | .advance point =>
      if point ∈ w.calls then
        match point.act w.node with
        | .error halt => some { w with halted := some halt }
        | .ok node => some { w with node, calls := w.calls.erase point + point.next w.node }
      else none

def Steps (w : LatencyWorld) (event : LatencyEvent) (w' : LatencyWorld) : Prop :=
  w.step event = some w'

/-- A call that stores finds the average that it loaded, and the counter does not wrap. -/
def Undisturbed (w : LatencyWorld) : LatencyEvent → Prop
  | .advance (.stores _ current) => w.node.avgLatencyMs = current
  | .advance (.counts _) => w.node.totalRequests + 1 < 2 ^ 64
  | _ => True

/-- When no call is in progress, each sample is in the average, in some order, and is counted. -/
def Exact (node : LoadBalancerNode) (events : List LatencyEvent) (w : LatencyWorld) : Prop :=
  w.calls = 0 → (∃ order : List Nat, order.Perm (samples events) ∧
      w.node.avgLatencyMs = order.foldl (fun avg sample => (avg * 9 + sample) / 10)
        node.avgLatencyMs) ∧
    w.node.totalRequests = node.totalRequests + (samples events).length

inductive Took (w : LatencyWorld) : LatencyEvent → LatencyWorld → Prop where
  | recordSuccess {latencyMs : Nat} :
      Took w (.recordSuccess latencyMs) { w with calls := .counts latencyMs ::ₘ w.calls }
  | advance {point : LatencyPoint} {rest : Multiset LatencyPoint} {node : LoadBalancerNode}
      (stands : w.calls = point ::ₘ rest) (ok : point.act w.node = .ok node) :
      Took w (.advance point) { w with node, calls := rest + point.next w.node }
  | panics {point : LatencyPoint} {rest : Multiset LatencyPoint} {halt : Halt}
      (stands : w.calls = point ::ₘ rest) (error : point.act w.node = .error halt) :
      Took w (.advance point) { w with halted := some halt }

variable {w w' : LatencyWorld} {event : LatencyEvent} {events : List LatencyEvent}
  {node node' : LoadBalancerNode} {latencyMs : Nat}

theorem Steps.took (step : w.Steps event w') : w.Took event w' := by
  unfold Steps LatencyWorld.step at step
  split at step
  · cases step
  cases event with
  | recordSuccess latencyMs =>
    cases step
    exact .recordSuccess
  | advance point =>
    dsimp only at step
    split at step
    · rename_i enabled
      obtain ⟨rest, stands⟩ := Multiset.exists_cons_of_mem enabled
      cases outcome : point.act w.node with
      | error halt =>
        rw [outcome] at step
        cases step
        exact .panics stands outcome
      | ok node =>
        rw [outcome, stands, Multiset.erase_cons_head] at step
        cases step
        exact .advance stands outcome
    · cases step

/-- The three accesses of a call with nothing between them make up its moving average. -/
theorem alone_iff : Run Steps (start node) [.recordSuccess latencyMs, .advance (.counts latencyMs),
      .advance (.loads latencyMs), .advance (.stores latencyMs node.avgLatencyMs)] (start node') ↔
    LoadBalancer.movingAverage node latencyMs = .ok node' := by
  cases summed : checkedAdd 64 (node.avgLatencyMs * 9) latencyMs with
  | error halt =>
    simp [run_cons_iff, run_nil_iff, Steps, step, start, LatencyPoint.act, LatencyPoint.next,
      LoadBalancer.movingAverage, summed]
  | ok total =>
    simp [run_cons_iff, run_nil_iff, Steps, step, start, LatencyPoint.act, LatencyPoint.next,
      LoadBalancer.movingAverage, summed]

/-! Each sample is in the average, or its call has yet to store. -/

def awaitsCount : LatencyPoint → Bool
  | .counts _ => true
  | _ => false

def uncounted (calls : Multiset LatencyPoint) : Nat := calls.countP fun p => awaitsCount p = true

def unstored (calls : Multiset LatencyPoint) : Multiset Nat := calls.map LatencyPoint.latencyMs

/-- Of the samples `begun`, those in `order` are stored. -/
structure Accounted (node : LoadBalancerNode) (begun order : List Nat) (w : LatencyWorld) :
    Prop where
  average : w.node.avgLatencyMs = smoothed 9 node.avgLatencyMs order
  sampled : (order : Multiset Nat) + unstored w.calls = begun
  counted : w.node.totalRequests + uncounted w.calls = node.totalRequests + begun.length

theorem uncounted_cons (point : LatencyPoint) (rest : Multiset LatencyPoint) :
    uncounted (point ::ₘ rest) = uncounted rest + if awaitsCount point then 1 else 0 :=
  Multiset.countP_cons ..

theorem uncounted_concat (point : LatencyPoint) (rest : Multiset LatencyPoint) :
    uncounted (rest + {point}) = uncounted rest + if awaitsCount point then 1 else 0 := by
  rw [Multiset.add_comm, Multiset.singleton_add, uncounted_cons]

theorem uncounted_next (node : LoadBalancerNode) (point : LatencyPoint)
    (rest : Multiset LatencyPoint) : uncounted (rest + point.next node) = uncounted rest := by
  cases point with
  | stores latencyMs current =>
    dsimp only [LatencyPoint.next]
    rw [Multiset.add_zero]
  | counts latencyMs => exact uncounted_concat (.loads latencyMs) rest
  | loads latencyMs => exact uncounted_concat (.stores latencyMs node.avgLatencyMs) rest

theorem unstored_cons (point : LatencyPoint) (rest : Multiset LatencyPoint) :
    unstored (point ::ₘ rest) = point.latencyMs ::ₘ unstored rest :=
  Multiset.map_cons ..

theorem unstored_concat (point : LatencyPoint) (rest : Multiset LatencyPoint) :
    unstored (rest + {point}) = point.latencyMs ::ₘ unstored rest := by
  rw [Multiset.add_comm, Multiset.singleton_add, unstored_cons]

theorem coe_concat (xs : List Nat) (x : Nat) : (↑(xs ++ [x]) : Multiset Nat) = x ::ₘ ↑xs :=
  Multiset.coe_eq_coe.mpr (List.perm_append_singleton x xs)

theorem Accounted.act {begun order : List Nat} {point : LatencyPoint} {rest : Multiset LatencyPoint}
    (accounted : Accounted node begun order w) (stands : w.calls = point ::ₘ rest)
    (undisturbed : Undisturbed w (.advance point)) (ok : point.act w.node = .ok node') :
    ∃ order', Accounted node begun order'
      { w with node := node', calls := rest + point.next w.node } := by
  obtain ⟨average, sampled, counted⟩ := accounted
  rw [stands, unstored_cons] at sampled
  rw [stands, uncounted_cons] at counted
  have waiting := uncounted_next w.node point rest
  cases point with
  | counts latencyMs =>
    have room : w.node.totalRequests + 1 < 2 ^ 64 := undisturbed
    obtain rfl := Except.ok.inj ok
    refine ⟨order, average, ?_, ?_⟩
    · rw [← sampled]
      exact congrArg _ (unstored_concat (.loads latencyMs) rest)
    · rw [awaitsCount, if_pos rfl] at counted
      dsimp only
      rw [waiting, Nat.mod_eq_of_lt room]
      omega
  | loads latencyMs =>
    obtain rfl := Except.ok.inj ok
    refine ⟨order, average, ?_, ?_⟩
    · rw [← sampled]
      exact congrArg _ (unstored_concat (.stores latencyMs w.node.avgLatencyMs) rest)
    · dsimp only
      rw [waiting]
      exact counted
  | stores latencyMs current =>
    obtain rfl : w.node.avgLatencyMs = current := undisturbed
    obtain ⟨total, summed, ok⟩ := bind_ok_iff.mp ok
    obtain ⟨_, rfl⟩ := addWithin_ok_iff.mp summed
    obtain rfl := Except.ok.inj ok
    refine ⟨order ++ [latencyMs], ?_, ?_, ?_⟩
    · rw [smoothed_concat, ← average]
      rfl
    · rw [← sampled, coe_concat, Multiset.add_cons, Multiset.cons_add]
      dsimp only [LatencyPoint.next, LatencyPoint.latencyMs]
      rw [Multiset.add_zero]
    · dsimp only
      rw [waiting]
      exact counted

theorem Accounted.step {begun order : List Nat} (accounted : Accounted node begun order w)
    (step : Guarded Steps Undisturbed w event w') :
    ∃ order', Accounted node (begun ++ samples [event]) order' w' := by
  obtain ⟨step, undisturbed⟩ := step
  cases step.took with
  | @recordSuccess latencyMs =>
    obtain ⟨average, sampled, counted⟩ := accounted
    refine ⟨order, average, ?_, ?_⟩
    · rw [unstored_cons, Multiset.add_cons, sampled]
      exact (coe_concat begun latencyMs).symm
    · rw [uncounted_cons, samples, samples, List.length_append, List.length_singleton, awaitsCount,
        if_pos rfl]
      dsimp only
      omega
  | @panics point rest halt stands error =>
    rw [samples, samples, List.append_nil]
    exact ⟨order, accounted.average, accounted.sampled, accounted.counted⟩
  | @advance point rest node stands ok =>
    rw [samples, samples, List.append_nil]
    exact accounted.act stands undisturbed ok

theorem samples_concat (events : List LatencyEvent) (event : LatencyEvent) :
    samples (events ++ [event]) = samples events ++ samples [event] := by
  induction events with
  | nil => rfl
  | cons first events ih =>
    cases first with
    | recordSuccess latencyMs => exact congrArg (latencyMs :: ·) ih
    | advance point => exact ih

/-- No sample is lost in a run in which each call stores over the average that it loaded. -/
theorem exact_of_undisturbed {node : LoadBalancerNode} {events : List LatencyEvent}
    {w : LatencyWorld} (run : Run (Guarded Steps Undisturbed) (start node) events w) :
    Exact node events w := by
  have keeps (done : List LatencyEvent) (w : LatencyWorld) (event : LatencyEvent)
      (w' : LatencyWorld) (accounted : ∃ order, Accounted node (samples done) order w)
      (step : Guarded Steps Undisturbed w event w') :
      ∃ order, Accounted node (samples (done ++ [event])) order w' := by
    obtain ⟨order, accounted⟩ := accounted
    rw [samples_concat]
    exact accounted.step step
  have first : ∃ order, Accounted node (samples []) order (start node) := ⟨[], rfl, rfl, rfl⟩
  obtain ⟨order, average, sampled, counted⟩ := run.history keeps first
  intro idle
  rw [idle, unstored, Multiset.map_zero, Multiset.add_zero] at sampled
  rw [idle, uncounted, Multiset.countP_zero, Nat.add_zero] at counted
  exact ⟨⟨order, Multiset.coe_eq_coe.mp sampled, average⟩, counted⟩

/-! Two calls one after the other, and two at once. -/

def freshNode : LoadBalancerNode := ⟨"http://a:8899", 1, 0, 0, 0, 0, true⟩

def oneByOne : List LatencyEvent :=
  [.recordSuccess 100, .advance (.counts 100), .advance (.loads 100), .advance (.stores 100 0),
    .recordSuccess 200, .advance (.counts 200), .advance (.loads 200), .advance (.stores 200 10)]

theorem oneByOne_exact : ∃ w, Run Steps (start freshNode) oneByOne w ∧ w.calls = 0 ∧
    w.node.totalRequests = 2 := by
  have first : 0 + 1 < 2 ^ 64 := by decide
  have second : 1 + 1 < 2 ^ 64 := by decide
  have run : Run (Guarded Steps Undisturbed) (start freshNode) oneByOne _ :=
    .cons ⟨rfl, trivial⟩ <| .cons ⟨rfl, first⟩ <| .cons ⟨rfl, trivial⟩ <| .cons ⟨rfl, rfl⟩ <|
      .cons ⟨rfl, trivial⟩ <| .cons ⟨rfl, second⟩ <| .cons ⟨rfl, trivial⟩ <|
        .cons ⟨rfl, rfl⟩ <| .nil _
  have idle := exact_of_undisturbed run
  exact ⟨_, run.unguarded, rfl, (idle rfl).2⟩

/-- Both calls load the average before either stores. -/
def atOnce : List LatencyEvent :=
  [.recordSuccess 100, .recordSuccess 200, .advance (.counts 100), .advance (.counts 200),
    .advance (.loads 100), .advance (.loads 200), .advance (.stores 100 0),
    .advance (.stores 200 0)]

theorem sample_lost : ¬ ∀ (node : LoadBalancerNode) (events : List LatencyEvent)
    (w : LatencyWorld), Run Steps (start node) events w → Exact node events w := by
  intro all
  have run : Run Steps (start freshNode) atOnce
      ⟨{ freshNode with totalRequests := 2, avgLatencyMs := 20 }, 0, none⟩ :=
    .cons rfl <| .cons rfl <| .cons rfl <| .cons rfl <| .cons rfl <| .cons rfl <| .cons rfl <|
      .cons rfl <| .nil _
  obtain ⟨⟨order, perm, average⟩, _⟩ := all freshNode atOnce _ run rfl
  have two : order.length = 2 := perm.length_eq
  have differ : order.Nodup := perm.nodup_iff.mpr (by decide)
  obtain ⟨a, b, rfl⟩ := List.length_eq_two.mp two
  have first : a = 100 ∨ a = 200 := by simpa [samples, atOnce] using perm.subset List.mem_cons_self
  have second : b = 100 ∨ b = 200 := by
    simpa [samples, atOnce] using perm.subset (List.mem_cons_of_mem a List.mem_cons_self)
  rcases first with rfl | rfl <;> rcases second with rfl | rfl
  · exact absurd differ (by decide)
  · cases average
  · cases average
  · exact absurd differ (by decide)

end LatencyWorld

end Solnet.Daemon
