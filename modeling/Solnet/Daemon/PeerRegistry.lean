import Solnet.Daemon.RpcProxy
import Solnet.Lib.Base58
import Solnet.Lib.Runs

/-! The peer registry. The swarm loop writes the address of each peer that connects, and the
registration of a mobile node writes under a key that the caller chooses. -/
namespace Solnet.Daemon
open Runs

/-- The multihash of a public key: Ed25519 keys are hashed by the identity, others by
SHA-256. -/
structure PeerId where
  bytes : List UInt8
  size : bytes.length = 34 ∨ bytes.length = 38
  deriving DecidableEq

def PeerId.toString (peer : PeerId) : String := Base58.encode peer.bytes

abbrev PeerRegistry := Table String String

def afterFirst (pattern : List Char) : List Char → Option (List Char)
  | [] => none
  | c :: rest =>
    if pattern <+: c :: rest then some ((c :: rest).drop pattern.length)
    else afterFirst pattern rest

/-- The part between the first `/ip4/` and the next one is cut at its first slash, which
stands before the next one. -/
def extractIpFromMultiaddr (addr : String) : Option String :=
  (afterFirst "/ip4/".toList addr.toList).map fun rest =>
    String.ofList (rest.takeWhile (· ≠ '/'))

def peerEndpoint (httpPort : Nat) (ip : String) : String :=
  "http://" ++ ip ++ ":" ++ toString httpPort

/-- What the swarm loop does to the registry when a connection is established. -/
def connectionEstablished (httpPort : Nat) (registry : PeerRegistry) (peer : PeerId)
    (remoteAddress : String) : PeerRegistry :=
  match extractIpFromMultiaddr remoteAddress with
  | some ip => registry.insert peer.toString (peerEndpoint httpPort ip)
  | none => registry

def registeredId (payload : Value) : String := (payload.index "node_id").asStr.getD "unknown"

def registeredPlatform (payload : Value) : String :=
  (payload.index "platform").asStr.getD "unknown"

def mobileRegisterHandler (registry : PeerRegistry) (payload : Value) : PeerRegistry × Response :=
  (registry.insert (registeredId payload) ("mobile:" ++ registeredPlatform payload),
    .of 200 <| .json <| .object
      [("assigned_peer", .string "https://solnet-production.up.railway.app"),
        ("message", .string "Route all requests to assigned_peer"),
        ("node_id", .string (registeredId payload)),
        ("platform", .string (registeredPlatform payload)), ("status", .string "registered")])

def desktopPeers (registry : PeerRegistry) : List (String × String) :=
  (registry.entries.map fun entry => (entry.1, entry.2)).filter fun entry =>
    !startsWith entry.2 "mobile:"

def mobilePeersHandler (registry : PeerRegistry) : Response :=
  .of 200 <| .json <| .object
    [("bootstrap", .string "https://solnet-production.up.railway.app"),
      ("count", .number (.int (desktopPeers registry).length)),
      ("peers", .array ((desktopPeers registry).map fun entry =>
        .object [("endpoint", .string entry.2), ("peer_id", .string entry.1)]))]

/-- The answer has the peer in its list. -/
def Response.Lists (response : Response) (id endpoint : String) : Prop :=
  ∃ body peers, response.body = .json body ∧ body.index "peers" = .array peers ∧
    .object [("endpoint", .string endpoint), ("peer_id", .string id)] ∈ peers

inductive RegistryEvent where
  | connectionEstablished (peer : PeerId) (remoteAddress : String)
  | mobileRegister (payload : Value)

def PeerRegistry.after (httpPort : Nat) (registry : PeerRegistry) : RegistryEvent → PeerRegistry
  | .connectionEstablished peer remoteAddress =>
    Daemon.connectionEstablished httpPort registry peer remoteAddress
  | .mobileRegister payload => (mobileRegisterHandler registry payload).1

/-- The address of the latest connection of each peer that had one. -/
abbrev Connections := PeerId → Option String

def Connections.after (connections : Connections) : RegistryEvent → Connections
  | .connectionEstablished peer remoteAddress =>
    match extractIpFromMultiaddr remoteAddress with
    | some ip => Function.update connections peer (some ip)
    | none => connections
  | .mobileRegister _ => connections

structure Directory where
  registry : PeerRegistry
  connections : Connections

def Directory.start : Directory := ⟨∅, fun _ => none⟩

def Directory.after (httpPort : Nat) (d : Directory) (event : RegistryEvent) : Directory :=
  ⟨d.registry.after httpPort event, d.connections.after event⟩

def Updates (httpPort : Nat) (d : Directory) (event : RegistryEvent) (d' : Directory) : Prop :=
  d.after httpPort event = d'

/-- The list has the peers that connected, each with its latest address, and no others. -/
def ListsPeers (httpPort : Nat) (d : Directory) : Prop :=
  ∀ id endpoint, (mobilePeersHandler d.registry).Lists id endpoint ↔
    ∃ peer ip, peer.toString = id ∧ d.connections peer = some ip ∧
      endpoint = peerEndpoint httpPort ip

/-- A registration does not name a peer that connected. -/
def NamesNoPeer (d : Directory) : RegistryEvent → Prop
  | .connectionEstablished _ _ => True
  | .mobileRegister payload =>
    ∀ peer, d.connections peer ≠ none → registeredId payload ≠ peer.toString

variable {httpPort : Nat} {d d' : Directory} {event : RegistryEvent} {registry : PeerRegistry}
  {id endpoint : String}

theorem PeerId.toString_inj {p q : PeerId} (same : p.toString = q.toString) : p = q := by
  obtain ⟨bytes, size⟩ := p
  obtain ⟨bytes', size'⟩ := q
  obtain rfl : bytes = bytes' := Base58.encode_inj same
  rfl

theorem startsWith_append (start rest : String) : startsWith (start ++ rest) start = true := by
  simp only [startsWith, String.toList_append, List.prefix_append, decide_true]

theorem peerEndpoint_not_mobile (httpPort : Nat) (ip : String) :
    startsWith (peerEndpoint httpPort ip) "mobile:" = false := by
  rw [startsWith, decide_eq_false_iff_not]
  rintro ⟨rest, same⟩
  have first := congrArg List.head? same
  simp only [peerEndpoint, String.toList_append] at first
  cases first

theorem mem_desktopPeers : (id, endpoint) ∈ desktopPeers registry ↔
    registry.lookup id = some endpoint ∧ startsWith endpoint "mobile:" = false := by
  have stored : registry.lookup id = some endpoint ↔
      (⟨id, endpoint⟩ : Sigma fun _ : String => String) ∈ registry.entries :=
    AList.mem_lookup_iff
  rw [desktopPeers, List.mem_filter, Bool.not_eq_true', stored]
  apply and_congr_left
  intro _
  constructor
  · intro member
    obtain ⟨⟨key, value⟩, entry, same⟩ := List.mem_map.mp member
    obtain ⟨rfl, rfl⟩ := Prod.mk.inj same
    exact entry
  · exact fun entry => List.mem_map.mpr ⟨_, entry, rfl⟩

theorem answer_lists_iff : (mobilePeersHandler registry).Lists id endpoint ↔
    registry.lookup id = some endpoint ∧ startsWith endpoint "mobile:" = false := by
  rw [← mem_desktopPeers]
  constructor
  · rintro ⟨_, peers, ⟨⟩, ⟨⟩, member⟩
    obtain ⟨⟨key, value⟩, entry, same⟩ := List.mem_map.mp member
    cases same
    exact entry
  · exact fun entry => ⟨_, _, rfl, rfl, List.mem_map.mpr ⟨_, entry, rfl⟩⟩

theorem lookup_after_connected {peer : PeerId} {remoteAddress ip : String}
    (found : extractIpFromMultiaddr remoteAddress = some ip) (key : String) :
    (registry.after httpPort (.connectionEstablished peer remoteAddress)).lookup key =
      if key = peer.toString then some (peerEndpoint httpPort ip) else registry.lookup key := by
  simp only [PeerRegistry.after, connectionEstablished, found, Table.lookup_insert]

theorem lookup_after_registered (payload : Value) (key : String) :
    (registry.after httpPort (.mobileRegister payload)).lookup key =
      if key = registeredId payload then some ("mobile:" ++ registeredPlatform payload)
      else registry.lookup key := by
  simp only [PeerRegistry.after, mobileRegisterHandler, Table.lookup_insert]

theorem ListsPeers.connected {peer : PeerId} {remoteAddress : String}
    (lists : ListsPeers httpPort d) :
    ListsPeers httpPort (d.after httpPort (.connectionEstablished peer remoteAddress)) := by
  intro id endpoint
  cases found : extractIpFromMultiaddr remoteAddress with
  | none =>
    simp only [Directory.after, PeerRegistry.after, connectionEstablished, Connections.after, found]
    exact lists id endpoint
  | some ip =>
    rw [answer_lists_iff, Directory.after, lookup_after_connected found]
    simp only [Connections.after, found]
    by_cases own : id = peer.toString
    · subst own
      rw [if_pos rfl]
      constructor
      · rintro ⟨same, _⟩
        exact ⟨peer, ip, rfl, Function.update_self .., (Option.some.inj same).symm⟩
      · rintro ⟨p, ip', same, latest, rfl⟩
        obtain rfl := PeerId.toString_inj same
        rw [Function.update_self] at latest
        obtain rfl := Option.some.inj latest
        exact ⟨rfl, peerEndpoint_not_mobile httpPort ip⟩
    · rw [if_neg own, ← answer_lists_iff, lists id endpoint]
      refine exists_congr fun p => exists_congr fun ip' => and_congr_right fun same => ?_
      have other : p ≠ peer := fun equal => own (same ▸ equal ▸ rfl)
      rw [Function.update_of_ne other]

/-- A registration leaves the list as it should be when it names no peer. When it names one,
that peer is no longer in the list. -/
theorem listsPeers_registered_iff {payload : Value} (lists : ListsPeers httpPort d) :
    ListsPeers httpPort (d.after httpPort (.mobileRegister payload)) ↔
      NamesNoPeer d (.mobileRegister payload) := by
  constructor
  · intro lists' peer connected same
    obtain ⟨ip, latest⟩ := Option.ne_none_iff_exists'.mp connected
    have listed := (lists' peer.toString (peerEndpoint httpPort ip)).mpr
      ⟨peer, ip, rfl, latest, rfl⟩
    rw [answer_lists_iff, Directory.after, lookup_after_registered, if_pos same.symm] at listed
    obtain ⟨stored, desktop⟩ := listed
    rw [← Option.some.inj stored, startsWith_append] at desktop
    cases desktop
  · intro other id endpoint
    rw [answer_lists_iff, Directory.after, lookup_after_registered]
    by_cases own : id = registeredId payload
    · rw [if_pos own]
      constructor
      · rintro ⟨stored, desktop⟩
        rw [← Option.some.inj stored, startsWith_append] at desktop
        cases desktop
      · rintro ⟨peer, ip, same, latest, _⟩
        have connected : d.connections peer ≠ none :=
          Option.ne_none_iff_exists'.mpr ⟨ip, latest⟩
        exact absurd (own.symm.trans same.symm) (other peer connected)
    · rw [if_neg own, ← answer_lists_iff, lists id endpoint]
      rfl

theorem listsPeers_start : ListsPeers httpPort .start := by
  intro id endpoint
  rw [answer_lists_iff]
  constructor
  · rintro ⟨stored, _⟩
    cases stored
  · rintro ⟨_, _, _, latest, _⟩
    cases latest

theorem listsPeers_after_iff (lists : ListsPeers httpPort d) :
    ListsPeers httpPort (d.after httpPort event) ↔ NamesNoPeer d event := by
  cases event with
  | connectionEstablished peer remoteAddress => exact iff_of_true lists.connected trivial
  | mobileRegister payload => exact listsPeers_registered_iff lists

theorem updates_run (httpPort : Nat) (events : List RegistryEvent) (d : Directory) :
    Run (Updates httpPort) d events (events.foldl (Directory.after httpPort) d) := by
  induction events generalizing d with
  | nil => exact .nil d
  | cons event events ih => exact .cons rfl (ih (d.after httpPort event))

/-- All along a run the list has the peers that connected with their latest addresses and no
others, exactly when no registration names a peer that connected before it. -/
theorem peers_listed_iff_ids_kept (httpPort : Nat) (events : List RegistryEvent) :
    Always (Updates httpPort) (ListsPeers httpPort) .start events ↔
      Run (Guarded (Updates httpPort) NamesNoPeer) .start events
        (events.foldl (Directory.after httpPort) .start) := by
  refine always_iff_guarded (I := fun _ => True) ?_ (fun _ _ _ _ _ => trivial) ?_
    (updates_run httpPort events .start) trivial listsPeers_start
  · rintro d event _ _ rfl rfl
    rfl
  · rintro d event _ _ lists rfl
    exact listsPeers_after_iff lists

/-- A peer with an Ed25519 key. -/
def somePeer : PeerId :=
  ⟨[0x00, 0x24, 0x08, 0x01, 0x12, 0x20] ++ List.replicate 32 6, .inr rfl⟩

/-- A mobile node registers under the id of a peer that is connected: the peer leaves the
list. -/
theorem peer_unlisted_by_registration :
    let events := [.connectionEstablished somePeer "/ip4/10.0.0.1/tcp/9001",
      .mobileRegister (.object [("node_id", .string somePeer.toString)])]
    let d := events.foldl (Directory.after 9000) .start
    Run (Updates 9000) .start events d ∧
      d.connections somePeer = some "10.0.0.1" ∧ desktopPeers d.registry = [] ∧
      ¬ Always (Updates 9000) (ListsPeers 9000) .start events := by
  refine ⟨updates_run 9000 _ .start, by decide, by decide, ?_⟩
  intro all
  have listed := all _ _ List.prefix_rfl (updates_run 9000 _ .start) somePeer.toString
    (peerEndpoint 9000 "10.0.0.1")
  obtain ⟨stored, _⟩ := answer_lists_iff.mp
    (listed.mpr ⟨somePeer, _, rfl, by decide, rfl⟩)
  exact absurd stored (by decide)

end Solnet.Daemon
