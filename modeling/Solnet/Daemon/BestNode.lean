import Solnet.Daemon.Routing
import Solnet.Lib.Tiers

/-! The node that the table of mesh nodes gives for a region: alive, and by tiers of distance
and load. -/
namespace Solnet.Daemon.GeoRouter
open Tiers

def aliveIn (region : Region) (loadLimit : Nat) (n : GeoNode) : Bool :=
  n.region = region && n.alive && n.loadPercent < loadLimit

/-- The client's own region has the lower load limit; the last tier has none. -/
def nodeTiers (clientRegion : Region) : List (GeoNode → Bool) :=
  aliveIn clientRegion 80 ::
    (clientRegion.nearestRegions.map fun region => aliveIn region 90) ++ [GeoNode.alive]

variable {s : GeoRouter} {order : List GeoNode} {node best : GeoNode} {clientRegion : Region}
  {tier : GeoNode → Bool}

theorem findBestNode_eq_choose (s : GeoRouter) (clientRegion : Region) :
    s.findBestNode clientRegion = choose GeoNode.latencyMs (nodeTiers clientRegion) s.nodes := by
  rw [choose, nodeTiers, List.cons_append, List.findSome?_cons, List.findSome?_append,
    List.findSome?_map, List.findSome?_singleton]
  unfold findBestNode
  cases same : leastOf GeoNode.latencyMs s.nodes (aliveIn clientRegion 80) with
  | some best => exact congrArg (Option.or · _) same
  | none => exact (congrArg (Option.or · _) same).trans (Option.none_or ..)

theorem alive_of_tier (mem : tier ∈ nodeTiers clientRegion) (held : tier node = true) :
    node.alive = true := by
  have inRegion (region : Region) (loadLimit : Nat)
      (held : aliveIn region loadLimit node = true) : node.alive = true := by
    simp only [aliveIn, Bool.and_eq_true] at held
    exact held.1.2
  rw [nodeTiers, List.cons_append, List.mem_cons, List.mem_append, List.mem_map,
    List.mem_singleton] at mem
  rcases mem with rfl | ⟨region, _, rfl⟩ | rfl
  · exact inRegion clientRegion 80 held
  · exact inRegion region 90 held
  · exact held

theorem alive_mem_nodeTiers : GeoNode.alive ∈ nodeTiers clientRegion :=
  List.mem_append_right _ List.mem_cons_self

/-- Whatever the order in which the iterations visit the table, the best node is alive and the
nearest of the first tier that a node is in, and there is one as soon as a node is alive. -/
theorem best_node_by_tier {s : GeoRouter} {order : List GeoNode} (visits : order.Perm s.nodes)
    (clientRegion : Region) :
    (findBestNode { s with nodes := order } clientRegion = none ↔
      ∀ node ∈ s.nodes, node.alive = false) ∧
    ∀ best, findBestNode { s with nodes := order } clientRegion = some best →
      best.alive = true ∧ ∃ tier, firstHeld (nodeTiers clientRegion) s.nodes = some tier ∧
        Least GeoNode.latencyMs s.nodes tier best := by
  rw [findBestNode_eq_choose]
  constructor
  · rw [choose_none_iff]
    constructor
    · intro empty node mem
      exact empty _ alive_mem_nodeTiers node (visits.mem_iff.mpr mem)
    · intro dead tier mem node member
      refine Bool.eq_false_iff.mpr fun held => ?_
      have alive := alive_of_tier mem held
      rw [dead node (visits.mem_iff.mp member)] at alive
      cases alive
  · intro best chosen
    obtain ⟨tier, first, least⟩ := least_of_choose chosen
    have held : tier ∈ nodeTiers clientRegion := List.mem_of_find?_eq_some first
    rw [firstHeld_perm visits] at first
    exact ⟨alive_of_tier held least.held, tier, first, least.perm visits⟩

/-- A busy node of the region, a quick node of a near one, and a quicker node far away. -/
def threeNodes : List GeoNode :=
  [⟨"p1", "http://a:1", .usEast, 10, 85, true⟩, ⟨"p2", "http://b:1", .usWest, 40, 20, true⟩,
    ⟨"p3", "http://c:1", .asiaEast, 5, 0, true⟩]

theorem threeNodes_best : ∃ tier,
    firstHeld (nodeTiers .usEast) threeNodes = some tier ∧
      Least GeoNode.latencyMs threeNodes tier ⟨"p2", "http://b:1", .usWest, 40, 20, true⟩ :=
  ((best_node_by_tier (s := ⟨threeNodes, .usEast⟩) (List.reverse_perm threeNodes)
    .usEast).2 _ rfl).2

end Solnet.Daemon.GeoRouter
