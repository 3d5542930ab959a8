import Solnet.Daemon.Onion
import Solnet.Daemon.PeerRegistry

/-! Relaying between peers. A layer names its next hop by 32 bytes, which a node looks up in
hexadecimal, and the swarm loop registers the peers by their ids in base 58. -/
namespace Solnet.Daemon
open Runs Fallible

/-- Some id that a layer can be wrapped with makes the node forward the layer to the address
that the registry has for the peer. -/
def HopResolves (crypto : OnionCrypto) (router : OnionRouter) (registry : PeerRegistry)
    (peer : PeerId) : Prop :=
  ∃ id random payload wrapped nextHop endpoint inner,
    OnionRouter.wrapRequest crypto random payload [router.publicKey] [id] = .ok wrapped ∧
    registry.lookup peer.toString = some endpoint ∧
    onionHandler crypto router registry.lookup ⟨Base64.encode wrapped, nextHop⟩ =
      .forward (endpoint ++ "/onion") ⟨inner, peer.toString⟩

def HopsResolve (crypto : OnionCrypto) (router : OnionRouter) (d : Directory) : Prop :=
  ∀ peer, d.connections peer ≠ none → HopResolves crypto router d.registry peer

/-- Each entry is of a mobile node or of a peer. -/
def OfTwoWriters (registry : PeerRegistry) : Prop :=
  ∀ key value, registry.lookup key = some value →
    startsWith value "mobile:" = true ∨ ∃ peer : PeerId, peer.toString = key

variable {crypto : OnionCrypto} {router : OnionRouter} {registry : PeerRegistry}
  {request forwarded : OnionRequest} {url : String} {httpPort : Nat} {d : Directory}

theorem PeerId.length_toString (peer : PeerId) : peer.toString.length ≤ 57 := by
  have short : peer.toString.length ≤ (3 * peer.bytes.length + 1) / 2 :=
    Base58.length_encode_le peer.bytes
  rcases peer.size with sha256 | identity
  · omega
  · omega

theorem length_nextHop {wrapped : List UInt8} {peeled : PeeledLayer}
    (peels : router.peelLayer crypto wrapped = .ok peeled) : peeled.nextHop.length = 64 := by
  obtain ⟨decrypted, _, built⟩ := bind_ok_iff.mp peels
  split at built
  · cases built
  · rename_i long
    cases built
    rw [Hex.length_encode, List.length_take]
    omega

/-- A layer is forwarded to what the registry has under its next hop. -/
theorem onionHandler_forward {peerRegistry : String → Option String}
    (forwards : onionHandler crypto router peerRegistry request = .forward url forwarded) :
    ∃ nextHopAddr, peerRegistry forwarded.nextHop = some nextHopAddr ∧
      url = nextHopAddr ++ "/onion" ∧ forwarded.nextHop.length = 64 := by
  unfold onionHandler at forwards
  split at forwards
  · cases forwards
  split at forwards
  · cases forwards
  rename_i peeled peels
  split at forwards
  · cases forwards
  split at forwards
  · rename_i nextHopAddr found
    cases forwards
    exact ⟨nextHopAddr, found, rfl, length_nextHop peels⟩
  · cases forwards

/-- The two encodings of a peer have different lengths. -/
theorem not_hopResolves (peer : PeerId) : ¬ HopResolves crypto router registry peer := by
  rintro ⟨_, _, _, _, _, _, _, _, _, forwards⟩
  obtain ⟨_, _, _, length⟩ := onionHandler_forward forwards
  change peer.toString.length = 64 at length
  have short := peer.length_toString
  omega

theorem OfTwoWriters.after (kept : OfTwoWriters registry) (event : RegistryEvent) :
    OfTwoWriters (registry.after httpPort event) := by
  intro key value stored
  cases event with
  | connectionEstablished peer remoteAddress =>
    cases found : extractIpFromMultiaddr remoteAddress with
    | none =>
      simp only [PeerRegistry.after, connectionEstablished, found] at stored
      exact kept key value stored
    | some ip =>
      rw [lookup_after_connected found] at stored
      split at stored
      · rename_i own
        exact .inr ⟨peer, own.symm⟩
      · exact kept key value stored
  | mobileRegister payload =>
    rw [lookup_after_registered] at stored
    split at stored
    · rw [← Option.some.inj stored]
      exact .inl (startsWith_append _ _)
    · exact kept key value stored

theorem ofTwoWriters_run (httpPort : Nat) (events : List RegistryEvent) :
    OfTwoWriters (events.foldl (Directory.after httpPort) .start).registry := by
  have start : OfTwoWriters Directory.start.registry := by
    intro key value stored
    cases stored
  refine (updates_run httpPort events .start).invariant (I := (OfTwoWriters ·.registry)) ?_ start
  rintro d event _ kept rfl
  exact kept.after event

/-- After any run a layer goes on only to an entry that a registration wrote: no layer is
relayed to a peer. -/
theorem forwards_only_to_mobile (events : List RegistryEvent)
    (forwards : onionHandler crypto router
      (events.foldl (Directory.after httpPort) .start).registry.lookup request =
        .forward url forwarded) : startsWith url "mobile:" = true := by
  obtain ⟨nextHopAddr, found, rfl, length⟩ := onionHandler_forward forwards
  rcases ofTwoWriters_run httpPort events _ _ found with mobile | ⟨peer, own⟩
  · have leads : "mobile:".toList <+: nextHopAddr.toList := of_decide_eq_true mobile
    rw [startsWith, decide_eq_true_iff, String.toList_append]
    exact leads.trans (List.prefix_append _ _)
  · have short := peer.length_toString
    rw [own] at short
    omega

/-- The next hop of no peer resolves: the law holds after a run exactly when no peer has
connected in it. -/
theorem hops_resolve_iff_no_peer (crypto : OnionCrypto) (router : OnionRouter) (httpPort : Nat)
    (events : List RegistryEvent) :
    HopsResolve crypto router (events.foldl (Directory.after httpPort) .start) ↔
      ∀ peer, (events.foldl (Directory.after httpPort) .start).connections peer = none := by
  constructor
  · intro resolve peer
    by_contra connected
    exact not_hopResolves peer (resolve peer connected)
  · intro none peer connected
    exact absurd (none peer) connected

/-- The 32 bytes of a peer's key. -/
def someHop : String := Hex.encode (somePeer.bytes.drop 6)

theorem someHop_isHopId : IsHopId someHop where
  size := Hex.length_encode _
  lower _ := Hex.encode_lower

/-- A peer connects, and the node runs as the exit a layer that names the peer by its key. -/
theorem layer_for_peer_runs_here :
    let d := [RegistryEvent.connectionEstablished somePeer "/ip4/10.0.0.1/tcp/9001"].foldl
      (Directory.after 9000) .start
    let router := OnionRouter.new OnionRouter.pingCrypto OnionRouter.nodeSecret
    d.registry.lookup somePeer.toString = some "http://10.0.0.1:9000" ∧
      (∃ wrapped, OnionRouter.wrapRequest OnionRouter.pingCrypto
        (fun _ => (OnionRouter.ephemeralSecret, OnionRouter.pingNonce)) (Bytes.ofString "ping")
          [router.publicKey] [someHop] = .ok wrapped ∧
        onionHandler OnionRouter.pingCrypto router d.registry.lookup
          ⟨Base64.encode wrapped, someHop⟩ = .rpc "anon-routed" (Bytes.ofString "ping")) ∧
      ¬ HopsResolve OnionRouter.pingCrypto router d := by
  intro d router
  have latest : d.connections somePeer ≠ none := by decide
  refine ⟨by decide, ?_, fun resolve => not_hopResolves somePeer (resolve somePeer latest)⟩
  have found : [someHop][0]? = some someHop := rfl
  obtain ⟨sealed, wraps, _, peeled⟩ := OnionRouter.peel_wrapLayer OnionRouter.pingCrypto_lawful
    (fun _ => (OnionRouter.ephemeralSecret, OnionRouter.pingNonce)) found someHop_isHopId
    (Bytes.ofString "ping") OnionRouter.nodeSecret
  have unnamed : d.registry.lookup someHop = none := by decide
  have relay : someHop ≠ exitId := by decide
  refine ⟨sealed, wraps, ?_⟩
  simp only [onionHandler, Base64.decode_encode, router, peeled, relay, decide_false,
    Bool.false_eq_true, if_false, unnamed]

end Solnet.Daemon
