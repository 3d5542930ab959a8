import Solnet.Daemon.Upstream
import Solnet.Lib.Rotation
import Solnet.Lib.Runs

/-! Calls of `select_node` under round robin, which interleave between their accesses to the
balancer. The counter hands out tickets, and a ticket decides the node. -/
namespace Solnet.Daemon
open Runs Rotation

/-- Where a call stands. It keeps the list of nodes locked for reading until it returns, and the
node it returns is noted with the ticket that picked it. -/
inductive SelectPoint where
  | reads
  | draws (alive : List LoadBalancerNode)
  | indexes (alive : List LoadBalancerNode) (ticket : Nat)
  | returned (selected : Option (Nat × String))
  deriving DecidableEq, Repr

structure SelectWorld where
  balancer : LoadBalancer
  calls : List SelectPoint
  deriving DecidableEq, Repr

inductive SelectEvent where
  | call
  | advance (i : Nat)
  deriving DecidableEq, Repr

namespace SelectPoint

/-- The ticket that a call has drawn. -/
def ticket : SelectPoint → Option Nat
  | .indexes _ ticket => some ticket
  | .returned selected => selected.map Prod.fst
  | _ => none

/-- What a call has seen of the list: the nodes alive, and the one its ticket picks. -/
def Sound (nodes : List LoadBalancerNode) : SelectPoint → Prop
  | .reads => True
  | .draws alive => alive = nodes.filter LoadBalancerNode.alive ∧ alive ≠ []
  | .indexes alive _ => alive = nodes.filter LoadBalancerNode.alive ∧ alive ≠ []
  | .returned selected => ∀ ticket endpoint, selected = some (ticket, endpoint) →
    turn ((nodes.filter LoadBalancerNode.alive).map LoadBalancerNode.endpoint) ticket =
      some endpoint

end SelectPoint

namespace LoadBalancer

/-- The accesses of `select_node`, one at a time. The other strategies are not followed, and an
index out of bounds would panic. -/
def advance (s : LoadBalancer) : SelectPoint → Option (LoadBalancer × SelectPoint)
  | .reads =>
    let alive := s.nodes.filter LoadBalancerNode.alive
    if alive.isEmpty then some (s, .returned none)
    else if s.strategy = .roundRobin then some (s, .draws alive)
    else none
  | .draws alive =>
    -- `fetch_add` on an `AtomicUsize` wraps.
    some ({ s with roundRobinCounter := (s.roundRobinCounter + 1) % 2 ^ 64 },
      .indexes alive s.roundRobinCounter)
  | .indexes alive ticket =>
    alive[ticket % alive.length]?.map fun node => (s, .returned (some (ticket, node.endpoint)))
  | .returned _ => none

variable {s s' : LoadBalancer} {point next : SelectPoint}

/-- What an access can do. -/
inductive Advances (s : LoadBalancer) : SelectPoint → LoadBalancer → SelectPoint → Prop where
  | noneAlive : Advances s .reads s (.returned none)
  | reads (alive : s.nodes.filter LoadBalancerNode.alive ≠ []) :
      Advances s .reads s (.draws (s.nodes.filter LoadBalancerNode.alive))
  | draws (alive : List LoadBalancerNode) :
      Advances s (.draws alive)
        { s with roundRobinCounter := (s.roundRobinCounter + 1) % 2 ^ 64 }
        (.indexes alive s.roundRobinCounter)
  | indexes {alive : List LoadBalancerNode} {ticket : Nat} {node : LoadBalancerNode}
      (here : turn alive ticket = some node) :
      Advances s (.indexes alive ticket) s (.returned (some (ticket, node.endpoint)))

theorem advance_advances (ok : s.advance point = some (s', next)) : s.Advances point s' next := by
  cases point with
  | reads =>
    simp only [advance] at ok
    split at ok
    · obtain ⟨rfl, rfl⟩ := Prod.mk.inj (Option.some.inj ok)
      exact .noneAlive
    · rename_i some_alive
      split at ok
      · obtain ⟨rfl, rfl⟩ := Prod.mk.inj (Option.some.inj ok)
        exact .reads fun none_alive => some_alive (List.isEmpty_iff.mpr none_alive)
      · cases ok
  | draws alive =>
    obtain ⟨rfl, rfl⟩ := Prod.mk.inj (Option.some.inj ok)
    exact .draws alive
  | indexes alive ticket =>
    obtain ⟨node, here, moved⟩ := Option.map_eq_some_iff.mp ok
    obtain ⟨rfl, rfl⟩ := Prod.mk.inj moved
    exact .indexes here
  | returned selected => cases ok

theorem Advances.draws_or (advances : s.Advances point s' next) :
    next.ticket = point.ticket ∧ s' = s ∨
      point.ticket = none ∧ next.ticket = some s.roundRobinCounter ∧
        s' = { s with roundRobinCounter := (s.roundRobinCounter + 1) % 2 ^ 64 } := by
  cases advances with
  | noneAlive => exact .inl ⟨rfl, rfl⟩
  | reads alive => exact .inl ⟨rfl, rfl⟩
  | draws alive => exact .inr ⟨rfl, rfl, rfl⟩
  | indexes here => exact .inl ⟨rfl, rfl⟩

theorem Advances.sound (advances : s.Advances point s' next) (sound : point.Sound s.nodes) :
    next.Sound s.nodes := by
  cases advances with
  | noneAlive =>
    intro ticket endpoint selected
    cases selected
  | reads alive => exact ⟨rfl, alive⟩
  | draws alive => exact sound
  | @indexes alive ticket node here =>
    obtain ⟨rfl, _⟩ := sound
    rintro _ _ selected
    obtain ⟨rfl, rfl⟩ := Prod.mk.inj (Option.some.inj selected)
    rw [turn_map, here]
    rfl

/-- No call under round robin panics. -/
theorem advance_some (strategy : s.strategy = .roundRobin) (sound : point.Sound s.nodes)
    (running : ∀ selected, point ≠ .returned selected) : ∃ t, s.advance point = some t := by
  cases point with
  | reads =>
    simp only [advance, strategy, if_true]
    split
    · exact ⟨_, rfl⟩
    · exact ⟨_, rfl⟩
  | draws alive => exact ⟨_, rfl⟩
  | indexes alive ticket =>
    obtain ⟨node, here⟩ := turn_of_pos (List.length_pos_iff.mpr sound.2) ticket
    exact ⟨_, congrArg (Option.map _) here⟩
  | returned selected => exact absurd rfl (running selected)

end LoadBalancer

namespace SelectWorld

def advance (w : SelectWorld) : SelectEvent → Option SelectWorld
  | .call => some { w with calls := w.calls ++ [.reads] }
  | .advance i =>
    match w.calls[i]? with
    | some point =>
      (w.balancer.advance point).map fun (balancer, next) => ⟨balancer, w.calls.set i next⟩
    | none => none

def Steps (w : SelectWorld) (event : SelectEvent) (w' : SelectWorld) : Prop :=
  w.advance event = some w'

/-- The tickets drawn so far. -/
def tickets (w : SelectWorld) : List Nat := w.calls.filterMap SelectPoint.ticket

variable {s : LoadBalancer} {w w' : SelectWorld} {event : SelectEvent} {events : List SelectEvent}

/-- A step starts a call or takes one further. -/
theorem step_cases (step : Steps w event w') :
    w' = { w with calls := w.calls ++ [.reads] } ∨
      ∃ front point back balancer next, w.calls = front ++ point :: back ∧
        w.balancer.Advances point balancer next ∧
        w' = ⟨balancer, front ++ next :: back⟩ := by
  cases event with
  | call => exact .inl (Option.some.inj step).symm
  | advance i =>
    simp only [Steps, advance] at step
    split at step
    · rename_i point here
      obtain ⟨⟨balancer, next⟩, ok, moved⟩ := Option.map_eq_some_iff.mp step
      obtain ⟨front, back, split, replaced⟩ := set_splits here
      exact .inr ⟨front, point, back, balancer, next, split, LoadBalancer.advance_advances ok,
        by rw [← moved, replaced]⟩
    · cases step

theorem last_advances {balancer : LoadBalancer} {calls : List SelectPoint}
    {point next : SelectPoint} (ok : s.advance point = some (balancer, next)) :
    Steps ⟨s, calls ++ [point]⟩ (.advance calls.length) ⟨balancer, calls ++ [next]⟩ := by
  simp only [Steps, advance, List.getElem?_concat_length, ok, Option.map_some, set_last]

/-- A call alone is the call of the handler's model. -/
theorem selectNode_run {random : UInt32} {s' : LoadBalancer} {answer : Option String}
    (strategy : s.strategy = .roundRobin) (ok : s.selectNode random = .ok (s', answer))
    (calls : List SelectPoint) :
    ∃ events selected, Run Steps ⟨s, calls⟩ (.call :: events) ⟨s', calls ++ [.returned selected]⟩ ∧
      selected.map Prod.snd = answer := by
  obtain ⟨nodes, _, counter⟩ := s
  obtain rfl : _ = Strategy.roundRobin := strategy
  unfold LoadBalancer.selectNode at ok
  match filtered : nodes.filter LoadBalancerNode.alive with
  | [] =>
    simp only [filtered] at ok
    obtain ⟨rfl, rfl⟩ := Prod.mk.inj (Except.ok.inj ok)
    refine ⟨_, none, .cons rfl (.cons (last_advances ?_) (.nil _)), rfl⟩
    simp only [LoadBalancer.advance, filtered, List.isEmpty_nil, if_true]
  | first :: rest =>
    simp only [filtered] at ok
    obtain ⟨rfl, rfl⟩ := Prod.mk.inj (Except.ok.inj ok)
    have positive : 0 < (first :: rest).length := Nat.zero_lt_succ rest.length
    obtain ⟨node, here⟩ := turn_of_pos positive counter
    let balancer : LoadBalancer := ⟨nodes, .roundRobin, counter⟩
    let drawn : LoadBalancer := ⟨nodes, .roundRobin, (counter + 1) % 2 ^ 64⟩
    have reads : balancer.advance .reads = some (balancer, .draws (first :: rest)) := by
      simp only [balancer, LoadBalancer.advance, filtered, List.isEmpty_cons, if_true,
        Bool.false_eq_true, if_false]
    have draws : balancer.advance (.draws (first :: rest)) =
        some (drawn, .indexes (first :: rest) counter) := rfl
    have indexes : drawn.advance (.indexes (first :: rest) counter) =
        some (drawn, .returned (some (counter, node.endpoint))) :=
      congrArg (Option.map _) here
    refine ⟨_, some (counter, node.endpoint), .cons rfl (.cons (last_advances reads)
      (.cons (last_advances draws) (.cons (last_advances indexes) (.nil _)))), ?_⟩
    exact (congrArg (Option.map LoadBalancerNode.endpoint) here).symm

/-- Until the counter wraps, it is the next ticket after those drawn. -/
structure HandsOut (s : LoadBalancer) (w : SelectWorld) : Prop where
  drawn : w.tickets.Perm (List.range' s.roundRobinCounter w.tickets.length)
  next : s.roundRobinCounter + w.tickets.length < 2 ^ 64 →
    w.balancer.roundRobinCounter = s.roundRobinCounter + w.tickets.length

structure Fair (s : LoadBalancer) (w : SelectWorld) : Prop where
  nodes : w.balancer.nodes = s.nodes
  strategy : w.balancer.strategy = s.strategy
  sound : ∀ point ∈ w.calls, point.Sound s.nodes
  handsOut : s.roundRobinCounter + w.tickets.length ≤ 2 ^ 64 → HandsOut s w

theorem HandsOut.draw {balancer : LoadBalancer} {calls : List SelectPoint}
    (handsOut : HandsOut s w) (noWrap : s.roundRobinCounter + (w.tickets.length + 1) ≤ 2 ^ 64)
    (counter : balancer.roundRobinCounter = (w.balancer.roundRobinCounter + 1) % 2 ^ 64)
    (drawn : (tickets ⟨balancer, calls⟩).Perm (w.balancer.roundRobinCounter :: w.tickets)) :
    HandsOut s ⟨balancer, calls⟩ := by
  have ticket := handsOut.next noWrap
  have length : (tickets ⟨balancer, calls⟩).length = w.tickets.length + 1 := by
    rw [drawn.length_eq, List.length_cons]
  constructor
  · have range : List.range' s.roundRobinCounter (w.tickets.length + 1) =
        List.range' s.roundRobinCounter w.tickets.length ++
          [s.roundRobinCounter + w.tickets.length] := by
      rw [List.range'_concat, Nat.one_mul]
    rw [length, range, ← ticket]
    exact drawn.trans ((handsOut.drawn.cons _).trans (List.perm_append_singleton _ _).symm)
  · intro more
    rw [length] at more ⊢
    rw [counter, ticket, Nat.add_assoc, Nat.mod_eq_of_lt more]

theorem HandsOut.same {w' : SelectWorld} (handsOut : HandsOut s w)
    (tickets : w'.tickets = w.tickets)
    (counter : w'.balancer.roundRobinCounter = w.balancer.roundRobinCounter) : HandsOut s w' := by
  constructor
  · rw [tickets]
    exact handsOut.drawn
  · rw [tickets, counter]
    exact handsOut.next

theorem Fair.call (fair : Fair s w) : Fair s { w with calls := w.calls ++ [.reads] } := by
  have same : tickets { w with calls := w.calls ++ [.reads] } = w.tickets := by
    rw [tickets, List.filterMap_append]
    exact List.append_nil _
  refine ⟨fair.nodes, fair.strategy, ?_, ?_⟩
  · rw [List.forall_mem_append, List.forall_mem_singleton]
    exact ⟨fair.sound, trivial⟩
  · intro noWrap
    rw [same] at noWrap
    exact (fair.handsOut noWrap).same same rfl

theorem Fair.advance {front back : List SelectPoint} {point next : SelectPoint}
    {balancer : LoadBalancer} (fair : Fair s w) (split : w.calls = front ++ point :: back)
    (advances : w.balancer.Advances point balancer next) :
    Fair s ⟨balancer, front ++ next :: back⟩ := by
  have before : w.tickets = (front ++ point :: back).filterMap SelectPoint.ticket := by
    rw [tickets, split]
  have sound : ∀ point ∈ front ++ next :: back, point.Sound s.nodes := by
    have sound := fair.sound
    rw [split, List.forall_mem_append, List.forall_mem_cons, ← fair.nodes] at sound
    obtain ⟨earlier, here, later⟩ := sound
    rw [List.forall_mem_append, List.forall_mem_cons, ← fair.nodes]
    exact ⟨earlier, advances.sound here, later⟩
  rcases advances.draws_or with ⟨ticket, rfl⟩ | ⟨none_yet, ticket, rfl⟩
  · have same : tickets ⟨w.balancer, front ++ next :: back⟩ = w.tickets := by
      rw [before, tickets, List.filterMap_append, List.filterMap_append, List.filterMap_cons,
        List.filterMap_cons, ticket]
    refine ⟨fair.nodes, fair.strategy, sound, fun noWrap => ?_⟩
    rw [same] at noWrap
    exact (fair.handsOut noWrap).same same rfl
  · have drawn : ((front ++ next :: back).filterMap SelectPoint.ticket).Perm
        (w.balancer.roundRobinCounter :: w.tickets) := by
      rw [before, List.filterMap_append, List.filterMap_append,
        List.filterMap_cons_some ticket, List.filterMap_cons_none none_yet]
      exact List.perm_middle
    refine ⟨fair.nodes, fair.strategy, sound, fun noWrap => ?_⟩
    rw [tickets, drawn.length_eq, List.length_cons] at noWrap
    exact (fair.handsOut (Nat.le_of_succ_le noWrap)).draw noWrap rfl drawn

theorem fair_step (w : SelectWorld) (event : SelectEvent) (w' : SelectWorld) (fair : Fair s w)
    (step : Steps w event w') : Fair s w' := by
  rcases step_cases step with rfl | ⟨front, point, back, balancer, next, split, advances, rfl⟩
  · exact fair.call
  · exact fair.advance split advances

/-- Calls whose tickets are consecutive, finished in any order, return each node that is alive
once for each time that the tickets go round. -/
theorem round_robin_fair {s : LoadBalancer} (strategy : s.strategy = .roundRobin)
    (alive : ∀ node ∈ s.nodes, node.alive = true) {events : List SelectEvent} {w : SelectWorld}
    (run : Run Steps ⟨s, []⟩ events w)
    (noWrap : s.roundRobinCounter + w.tickets.length ≤ 2 ^ 64) :
    w.tickets.Perm (List.range' s.roundRobinCounter w.tickets.length) ∧
      (∀ point ∈ w.calls, (∀ selected, point ≠ .returned selected) →
        ∃ t, w.balancer.advance point = some t) ∧
      ∀ (start k : Nat) (calls : List (Nat × String)),
        (∀ call ∈ calls, .returned (some call) ∈ w.calls) →
        (calls.map Prod.fst).Perm (List.range' start (k * s.nodes.length)) →
        (calls.map Prod.snd).Perm
          (List.replicate k (s.nodes.map LoadBalancerNode.endpoint)).flatten := by
  have fresh : Fair s ⟨s, []⟩ :=
    ⟨rfl, rfl, fun _ member => absurd member List.not_mem_nil, fun _ => ⟨.refl _, fun _ => rfl⟩⟩
  obtain ⟨nodes, strategy', sound, handsOut⟩ := run.invariant fair_step fresh
  refine ⟨(handsOut noWrap).drawn, ?_, ?_⟩
  · intro point member running
    have here := sound point member
    rw [← nodes] at here
    exact LoadBalancer.advance_some (strategy'.trans strategy) here running
  · intro start k calls among consecutive
    have all : s.nodes.filter LoadBalancerNode.alive = s.nodes := List.filter_eq_self.mpr alive
    have seen : ∀ call ∈ calls,
        turn (s.nodes.map LoadBalancerNode.endpoint) call.1 = some call.2 := by
      intro call member
      have here := sound _ (among call member) call.1 call.2 rfl
      rwa [all] at here
    rw [← List.length_map LoadBalancerNode.endpoint] at consecutive
    exact reads_perm seen consecutive

def twoNodes : LoadBalancer :=
  ((LoadBalancer.new .roundRobin).addNode "http://a:8899" 1).addNode "http://b:8899" 1

/-- The second call draws its ticket first. -/
def overtaking : List SelectEvent :=
  [.call, .call, .advance 0, .advance 1, .advance 1, .advance 0, .advance 0, .advance 1]

theorem overtaking_fair : ∃ w, Run Steps ⟨twoNodes, []⟩ overtaking w ∧
    w.calls = [.returned (some (1, "http://b:8899")), .returned (some (0, "http://a:8899"))] ∧
    ["http://b:8899", "http://a:8899"].Perm ["http://a:8899", "http://b:8899"] := by
  let w : SelectWorld := ⟨{ twoNodes with roundRobinCounter := 2 },
    [.returned (some (1, "http://b:8899")), .returned (some (0, "http://a:8899"))]⟩
  have run : Run Steps ⟨twoNodes, []⟩ overtaking w :=
    .cons rfl (.cons rfl (.cons rfl (.cons rfl (.cons rfl (.cons rfl (.cons rfl (.cons rfl
      (.nil w))))))))
  obtain ⟨_, _, fair⟩ := round_robin_fair rfl (by decide) run (by decide)
  exact ⟨w, run, rfl, fair 0 1 [(1, "http://b:8899"), (0, "http://a:8899")] (by decide) (by decide)⟩

end SelectWorld

end Solnet.Daemon
