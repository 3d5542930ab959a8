import Solnet.Daemon.Handling
import Solnet.Lib.Orbit

/-! Forwarding through the mesh. Each daemon decides from its caches, its shard and its
table of mesh nodes; where a post to an endpoint arrives belongs to the mesh. -/
namespace Solnet.Daemon
open Orbit

/-- The daemons, when each looks its caches up, and the daemon that a post from one of
them to an endpoint is delivered to. -/
structure Mesh (N : Type) where
  daemon : N → SharedState
  instant : N → Nat
  deliver : N → String → Option N

namespace Mesh

variable {N : Type} (lib : Serde) (mesh : Mesh N) (method : String) (params : Value)

def Cached (n : N) : Prop :=
  ((mesh.daemon n).latencyEngine.live lib method params (mesh.instant n)).isSome

instance (n : N) : Decidable (mesh.Cached lib method params n) :=
  inferInstanceAs (Decidable (_ = true))

def nextHop (n : N) : Option N :=
  if mesh.Cached lib method params n then none
  else (meshTarget (mesh.daemon n) method).bind fun node => mesh.deliver n node.endpoint

/-- The request stays: it is answered from a cache, the shard handles its method, or no
mesh node takes it. -/
def Settles (n : N) : Prop :=
  mesh.Cached lib method params n ∨
    (mesh.daemon n).shardRouter.shouldHandle method = true ∨
    ∀ node, (mesh.daemon n).geoRouter.findBestNode (mesh.daemon n).config.region = some node →
      mesh.deliver n node.endpoint = none

/-- No daemon comes twice, and some daemon settles the request. -/
def MakesProgress (start : N) : Prop :=
  NoRevisit (mesh.nextHop lib method params) start ∧
    ∃ hops n, follow (mesh.nextHop lib method params) hops start = some n ∧
      mesh.Settles lib method params n

/-- Each daemon of the group lacks a cached answer and the shard, and its best mesh node
is another of the group, or itself. -/
def PassesAround (group : Set N) : Prop :=
  ∀ n ∈ group, ¬ mesh.Cached lib method params n ∧
    (mesh.daemon n).shardRouter.shouldHandle method = false ∧
    ∃ node, (mesh.daemon n).geoRouter.findBestNode (mesh.daemon n).config.region = some node ∧
      ∃ m ∈ group, mesh.deliver n node.endpoint = some m

/-- The daemon has the table that `main` builds, and its own endpoint leads back to it. -/
structure AsMainBuilds (n : N) : Prop where
  table : (mesh.daemon n).geoRouter = (GeoRouter.new (mesh.daemon n).config.region).registerNode
    (localNode (mesh.daemon n).config)
  loopback : mesh.deliver n (localNode (mesh.daemon n).config).endpoint = some n

variable {lib mesh method params} {n m : N}

theorem nextHop_some_iff : mesh.nextHop lib method params n = some m ↔
    ¬ mesh.Cached lib method params n ∧
      (mesh.daemon n).shardRouter.shouldHandle method = false ∧
      ∃ node, (mesh.daemon n).geoRouter.findBestNode (mesh.daemon n).config.region = some node ∧
        mesh.deliver n node.endpoint = some m := by
  unfold nextHop meshTarget
  by_cases cached : mesh.Cached lib method params n
  · rw [if_pos cached]
    simp only [reduceCtorEq, cached, not_true_eq_false, false_and]
  · rw [if_neg cached]
    by_cases own : (mesh.daemon n).shardRouter.shouldHandle method = true
    · simp only [own, if_true, Option.bind_none, reduceCtorEq, Bool.true_eq_false, false_and,
        and_false]
    · simp only [own, Bool.false_eq_true, if_false, Option.bind_eq_some_iff, cached,
        not_false_eq_true, true_and]

theorem nextHop_none_iff :
    mesh.nextHop lib method params n = none ↔ mesh.Settles lib method params n := by
  rw [Option.eq_none_iff_forall_ne_some]
  constructor
  · intro stays
    by_contra moves
    simp only [Settles, not_or, not_forall] at moves
    obtain ⟨uncached, foreign, node, best, delivered⟩ := moves
    obtain ⟨m, arrives⟩ := Option.ne_none_iff_exists'.mp delivered
    exact stays m (nextHop_some_iff.mpr
      ⟨uncached, Bool.eq_false_iff.mpr foreign, node, best, arrives⟩)
  · intro settles m moves
    obtain ⟨uncached, foreign, node, best, arrives⟩ := nextHop_some_iff.mp moves
    rcases settles with cached | own | lost
    · exact uncached cached
    · rw [foreign] at own
      cases own
    · rw [lost node best] at arrives
      cases arrives

/-- A daemon forwards an admitted request exactly when there is a next hop, provided it
looks its caches up at the mesh's instant and mesh nodes answer what is delivered. -/
theorem forwards_iff_nextHop {env : Env} {req : Request} {h : Handled} {bodyStr : String}
    {rpcReq : Value} (ok : rpcHandler lib env (mesh.daemon n) req = .ok h)
    (admitted : Admitted lib env (mesh.daemon n) req bodyStr rpcReq)
    (looksUp : env.cacheInstant = mesh.instant n)
    (answers : ∀ node, meshTarget (mesh.daemon n) (requestMethod rpcReq) = some node →
      (env.meshReply.isSome ↔ (mesh.deliver n node.endpoint).isSome)) :
    h.origin = .mesh ↔
      (mesh.nextHop lib (requestMethod rpcReq) (requestParams rpcReq) n).isSome := by
  rcases rpcHandler_ok ok with ⟨_, refused, _⟩ | ⟨bodyStr', rpcReq', admitted', served, _⟩
  · exact absurd admitted (refused bodyStr rpcReq)
  · obtain ⟨_, rfl⟩ := Prod.mk.inj
      (Except.ok.inj (admitted.parsed.symm.trans admitted'.parsed))
    cases served with
    | cached entry found origin response keeps =>
      have hit : mesh.Cached lib (requestMethod rpcReq) (requestParams rpcReq) n := by
        rw [Cached, ← looksUp, found]
        rfl
      rw [origin, nextHop, if_pos hit]
      simp only [reduceCtorEq, Option.isSome_none, Bool.false_eq_true]
    | uncached missed answer =>
      have miss : ¬ mesh.Cached lib (requestMethod rpcReq) (requestParams rpcReq) n := by
        rw [Cached, ← looksUp, missed]
        exact Bool.noConfusion
      rw [nextHop, if_neg miss]
      -- a request that stays has no target, or one that does not answer
      have stays_put (stays : meshTarget (mesh.daemon n) (requestMethod rpcReq) = none ∨
          env.meshReply = none) :
          ¬ ((meshTarget (mesh.daemon n) (requestMethod rpcReq)).bind fun node =>
            mesh.deliver n node.endpoint).isSome := by
        cases target : meshTarget (mesh.daemon n) (requestMethod rpcReq) with
        | none => exact Bool.noConfusion
        | some node =>
          rw [Option.bind_some, ← answers node target, stays.resolve_left (by simp [target])]
          exact Bool.noConfusion
      cases answer with
      | refused stays origin keeps => simp only [origin, reduceCtorEq, stays_put stays]
      | forwarded node found status bytes delivered origin response posts keeps =>
        rw [origin, found, Option.bind_some, ← answers node found, delivered]
        exact ⟨fun _ => rfl, fun _ => rfl⟩
      | slotIntercept stays slot origin response adds =>
        simp only [origin, reduceCtorEq, stays_put stays]
      | upstream stays json read origin response adds =>
        simp only [origin, reduceCtorEq, stays_put stays]

theorem makesProgress_iff_stops {start : N} : mesh.MakesProgress lib method params start ↔
    ∃ n, StopsAt (mesh.nextHop lib method params) start n := by
  constructor
  · rintro ⟨_, hops, n, reaches, settles⟩
    exact ⟨n, ⟨hops, reaches⟩, nextHop_none_iff.mpr settles⟩
  · rintro ⟨n, ⟨hops, reaches⟩, stops⟩
    exact ⟨noRevisit_of_stop ⟨⟨hops, reaches⟩, stops⟩, hops, n, reaches,
      nextHop_none_iff.mp stops⟩

theorem passesAround_iff_trap {group : Set N} :
    mesh.PassesAround lib method params group ↔ Trap (mesh.nextHop lib method params) group := by
  constructor
  · intro passes n inside
    obtain ⟨uncached, foreign, node, best, m, stays, arrives⟩ := passes n inside
    exact ⟨m, stays, nextHop_some_iff.mpr ⟨uncached, foreign, node, best, arrives⟩⟩
  · intro trap n inside
    obtain ⟨m, stays, moves⟩ := trap n inside
    obtain ⟨uncached, foreign, node, best, arrives⟩ := nextHop_some_iff.mp moves
    exact ⟨uncached, foreign, node, best, m, stays, arrives⟩

theorem findBestNode_of_main (config : Config) :
    ((GeoRouter.new config.region).registerNode (localNode config)).findBestNode config.region =
      some (localNode config) := by
  simp [GeoRouter.findBestNode, GeoRouter.registerNode, GeoRouter.new, localNode]

/-- With the table of `main` a foreign request that no cache answers is posted back to
the daemon itself. -/
theorem nextHop_of_main (built : mesh.AsMainBuilds n) :
    mesh.nextHop lib method params n = some n ↔
      ¬ (mesh.Cached lib method params n ∨
        (mesh.daemon n).shardRouter.shouldHandle method = true) := by
  rw [nextHop_some_iff, built.table, findBestNode_of_main]
  simp only [Option.some.injEq, exists_eq_left', built.loopback, and_true, not_or,
    Bool.not_eq_true]

/-- Forwarding makes progress from a daemon exactly when no group that holds it passes
the request around. From a daemon with the table of `main` it does exactly when a cache
answers the request or the shard handles its method. -/
theorem progress_iff_not_passed_around (lib : Serde) (mesh : Mesh N) (method : String)
    (params : Value) (start : N) :
    (mesh.MakesProgress lib method params start ↔
      ¬ ∃ group, mesh.PassesAround lib method params group ∧ start ∈ group) ∧
    (mesh.AsMainBuilds start → (mesh.MakesProgress lib method params start ↔
      mesh.Cached lib method params start ∨
        (mesh.daemon start).shardRouter.shouldHandle method = true)) := by
  constructor
  · rw [makesProgress_iff_stops, stops_iff_no_trap]
    simp only [passesAround_iff_trap]
  · intro built
    constructor
    · rintro ⟨once, _⟩
      by_contra passed
      have back := (nextHop_of_main built).mpr passed
      have again : follow (mesh.nextHop lib method params) 1 start = some start := by
        rw [follow, back]
        rfl
      exact absurd (once 0 1 start rfl again) Nat.zero_ne_one
    · intro kept
      refine makesProgress_iff_stops.mpr ⟨start, ⟨0, rfl⟩, nextHop_none_iff.mpr ?_⟩
      exact kept.imp id .inl

/-! One daemon as `main` builds it, whose own endpoint leads back to it. -/

def lone (shard : ShardType) : Mesh Unit where
  daemon _ := devnetState shard
  instant _ := 0
  deliver _ endpoint := if endpoint = "http://0.0.0.0:8080" then some () else none

def nullSerde : Serde := ⟨fun _ => none, fun _ => "null", fun _ => ""⟩

theorem lone_asMainBuilds (shard : ShardType) : (lone shard).AsMainBuilds () :=
  ⟨rfl, if_pos (show "http://0.0.0.0:" ++ toString 8080 = "http://0.0.0.0:8080" by decide)⟩

theorem lone_daemon_settles_own_method :
    (lone .deFi).MakesProgress nullSerde "sendTransaction" .null () :=
  ((progress_iff_not_passed_around nullSerde (lone .deFi) "sendTransaction" .null ()).2
    (lone_asMainBuilds .deFi)).mpr (.inr (by decide))

theorem lone_daemon_forwards_to_itself :
    ¬ ∀ (N : Type) (lib : Serde) (mesh : Mesh N) (method : String) (params : Value) (start : N),
      mesh.MakesProgress lib method params start := by
  intro progress
  obtain ⟨once, _⟩ := progress Unit nullSerde (lone .general) "sendTransaction" .null ()
  have back : (lone .general).nextHop nullSerde "sendTransaction" .null () = some () :=
    (nextHop_of_main (lone_asMainBuilds .general)).mpr (by decide)
  have again : follow ((lone .general).nextHop nullSerde "sendTransaction" .null) 1 () =
      some () := by
    rw [follow, back]
    rfl
  exact absurd (once 0 1 () rfl again) Nat.zero_ne_one

end Mesh

end Solnet.Daemon
