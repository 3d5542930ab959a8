import Mathlib.Tactic.Basic
import Solnet.Lib.Base64
import Solnet.Lib.Bytes
import Solnet.Lib.Fallible
import Solnet.Lib.Hex

/-! Onion routing: a request is sealed once for each node, the exit first, and each node
opens one layer. X25519 and AES-256-GCM come from outside. -/
namespace Solnet.Daemon
open Fallible Bytes

abbrev Key := Block 32
abbrev Nonce := Block 12

structure OnionCrypto where
  publicKey : Key → Key
  diffieHellman : Key → Key → Key
  encrypt : Key → Nonce → List UInt8 → Option (List UInt8)
  decrypt : Key → Nonce → List UInt8 → Option (List UInt8)

/-- Both sides of a key agreement get the same key, and what is sealed under a key, a tag of
16 bytes longer, is opened under it. -/
structure OnionCrypto.Lawful (crypto : OnionCrypto) : Prop where
  agreement : ∀ a b,
    crypto.diffieHellman a (crypto.publicKey b) = crypto.diffieHellman b (crypto.publicKey a)
  opens : ∀ key nonce data, ∃ sealed, crypto.encrypt key nonce data = some sealed ∧
    sealed.length = data.length + 16 ∧ crypto.decrypt key nonce sealed = some data

/-- What is opened under a key was sealed under it. -/
def OnionCrypto.Authentic (crypto : OnionCrypto) : Prop :=
  ∀ key nonce sealed data, crypto.decrypt key nonce sealed = some data →
    crypto.encrypt key nonce data = some sealed

/-- Why a layer is not built. The last one is a panic. -/
inductive WrapError where
  | hex | encrypt | indexOutOfBounds
  deriving DecidableEq, Repr

inductive PeelError where
  | dataTooShort | decrypt | invalidLayer
  deriving DecidableEq, Repr

def PeelError.text : PeelError → String
  | .dataTooShort => "data too short"
  | .decrypt => "decrypt: aead::Error"
  | .invalidLayer => "invalid onion layer"

structure OnionRouter where
  privateKey : Key
  publicKey : Key
  deriving DecidableEq, Repr

structure PeeledLayer where
  nextHop : String
  innerPayload : List UInt8
  isExit : Bool
  deriving DecidableEq, Repr

def exitId : String := String.ofList (List.replicate 64 '0')

namespace OnionRouter

variable (crypto : OnionCrypto)

def new (privateKey : Key) : OnionRouter := ⟨privateKey, crypto.publicKey privateKey⟩

/-- `random` is the ephemeral secret and the nonce drawn for the layer. -/
def encryptLayer (random : Key × Nonce) (data : List UInt8) (recipientKey : Key) :
    Except WrapError (List UInt8) :=
  let ephemeralPub := crypto.publicKey random.1
  let shared := crypto.diffieHellman random.1 recipientKey
  match crypto.encrypt shared random.2 data with
  | some ciphertext => .ok (ephemeralPub.bytes ++ random.2.bytes ++ ciphertext)
  | none => .error .encrypt

def decryptLayer (data : List UInt8) (ourKey : Key) : Except PeelError (List UInt8) :=
  if short : data.length < 44 then .error .dataTooShort
  else
    let ephemeralPub : Key := ⟨data.take 32, by rw [List.length_take]; omega⟩
    let nonce : Nonce := ⟨(data.drop 32).take 12, by rw [List.length_take, List.length_drop]; omega⟩
    let ciphertext := data.drop 44
    let shared := crypto.diffieHellman ourKey ephemeralPub
    match crypto.decrypt shared nonce ciphertext with
    | some decrypted => .ok decrypted
    | none => .error .decrypt

def wrapLayer (random : Nat → Key × Nonce) (nextHops : List String) (wrapped : List UInt8) :
    Key × Nat → Except WrapError (List UInt8)
  | (nodeKey, i) =>
    match nextHops[i]? with
    | none => .error .indexOutOfBounds
    | some nextHop =>
      match Hex.decode nextHop with
      | none => .error .hex
      | some nextHopBytes => encryptLayer crypto (random i) (nextHopBytes ++ wrapped) nodeKey

def wrapRequest (random : Nat → Key × Nonce) (payload : List UInt8) (nodeKeys : List Key)
    (nextHops : List String) : Except WrapError (List UInt8) :=
  nodeKeys.zipIdx.reverse.foldlM (wrapLayer crypto random nextHops) payload

def peelLayer (router : OnionRouter) (wrapped : List UInt8) :
    Except PeelError PeeledLayer := do
  let decrypted ← decryptLayer crypto wrapped router.privateKey
  if decrypted.length < 32 then .error .invalidLayer
  else
    let nextHop := Hex.encode (decrypted.take 32)
    return ⟨nextHop, decrypted.drop 32, nextHop = exitId⟩

/-- The nodes peel one after the other, each what the one before left inside. -/
def peelAll : List OnionRouter → List UInt8 → Except PeelError (List PeeledLayer × List UInt8)
  | [], payload => return ([], payload)
  | router :: rest, wrapped => do
    let layer ← peelLayer crypto router wrapped
    let (layers, payload) ← peelAll rest layer.innerPayload
    return (layer :: layers, payload)

end OnionRouter

structure OnionRequest where
  layer : String
  nextHop : String
  deriving DecidableEq, Repr

/-- What the onion handler does with a request: it answers 400 with an error, hands the
inside to the RPC handler under a fixed client address, or posts it to the next hop. -/
inductive OnionAnswer where
  | badRequest (error : String)
  | rpc (forwardedFor : String) (body : List UInt8)
  | forward (url : String) (request : OnionRequest)
  deriving DecidableEq, Repr

def onionHandler (crypto : OnionCrypto) (router : OnionRouter)
    (peerRegistry : String → Option String) (request : OnionRequest) : OnionAnswer :=
  match Base64.decode request.layer with
  | none => .badRequest "invalid base64"
  | some wrapped =>
    match router.peelLayer crypto wrapped with
    | .error e => .badRequest ("peel failed: " ++ e.text)
    | .ok peeled =>
      if peeled.isExit then .rpc "anon-routed" peeled.innerPayload
      else
        match peerRegistry peeled.nextHop with
        | some nextHopAddr =>
          .forward (nextHopAddr ++ "/onion") ⟨Base64.encode peeled.innerPayload, peeled.nextHop⟩
        -- a peer that is not registered: this node acts as the exit
        | none => .rpc "anon-routed" peeled.innerPayload

structure IsHopId (id : String) : Prop where
  size : id.length = 64
  lower : ∀ c ∈ id.toList, c ∈ Hex.lowerDigits

namespace OnionRouter

variable {crypto : OnionCrypto}

theorem decrypt_encryptLayer (lawful : crypto.Lawful) (random : Key × Nonce) (data : List UInt8)
    (secret : Key) :
    ∃ sealed, encryptLayer crypto random data (crypto.publicKey secret) = .ok sealed ∧
      sealed.length = data.length + 60 ∧ decryptLayer crypto sealed secret = .ok data := by
  obtain ⟨ephemeral, nonce⟩ := random
  obtain ⟨ciphertext, encrypted, length, opened⟩ :=
    lawful.opens (crypto.diffieHellman ephemeral (crypto.publicKey secret)) nonce data
  let header := (crypto.publicKey ephemeral).bytes ++ nonce.bytes
  have headerLength : header.length = 44 := by
    rw [List.length_append, (crypto.publicKey ephemeral).full, nonce.full]
  refine ⟨header ++ ciphertext, ?_, ?_, ?_⟩
  · simp only [encryptLayer, encrypted]
    rfl
  · rw [List.length_append, headerLength, length]
    omega
  · have long : ¬ (header ++ ciphertext).length < 44 := by
      rw [List.length_append]
      omega
    have pub : (header ++ ciphertext).take 32 = (crypto.publicKey ephemeral).bytes := by
      rw [List.append_assoc]
      exact List.take_left' (crypto.publicKey ephemeral).full
    have nonceBytes : ((header ++ ciphertext).drop 32).take 12 = nonce.bytes := by
      rw [List.append_assoc, List.drop_left' (crypto.publicKey ephemeral).full]
      exact List.take_left' nonce.full
    have rest : (header ++ ciphertext).drop 44 = ciphertext := List.drop_left' headerLength
    simp only [decryptLayer, dif_neg long, pub, nonceBytes, rest]
    rw [lawful.agreement secret ephemeral, opened]

theorem peel_wrapLayer (lawful : crypto.Lawful) (random : Nat → Key × Nonce)
    {nextHops : List String} {i : Nat} {hop : String} (found : nextHops[i]? = some hop)
    (id : IsHopId hop) (wrapped : List UInt8) (secret : Key) :
    ∃ sealed, wrapLayer crypto random nextHops wrapped (crypto.publicKey secret, i) = .ok sealed ∧
      sealed.length = wrapped.length + 92 ∧
      peelLayer crypto (new crypto secret) sealed = .ok ⟨hop, wrapped, hop = exitId⟩ := by
  obtain ⟨hopBytes, decoded, size, encoded⟩ := Hex.decode_lower (n := 32) id.size id.lower
  obtain ⟨sealed, encrypted, length, decrypted⟩ :=
    decrypt_encryptLayer lawful (random i) (hopBytes ++ wrapped) secret
  refine ⟨sealed, ?_, ?_, ?_⟩
  · simp only [wrapLayer, found, decoded]
    exact encrypted
  · rw [length, List.length_append, size]
    omega
  · have long : ¬ (hopBytes ++ wrapped).length < 32 := by
      rw [List.length_append, size]
      omega
    refine bind_ok_iff.mpr ⟨hopBytes ++ wrapped, decrypted, ?_⟩
    rw [if_neg long, List.take_left' size, List.drop_left' size, encoded]
    rfl

theorem hop_of_drop {nextHops hops : List String} {start : Nat} {hop : String}
    (drop : nextHops.drop start = hop :: hops) :
    nextHops[start]? = some hop ∧ nextHops.drop (start + 1) = hops := by
  rw [← List.head?_drop, ← List.tail_drop, drop]
  exact ⟨rfl, rfl⟩

/-- The layers for the nodes from index `start` on peel to their hop ids and the payload. -/
theorem peel_wrapped (lawful : crypto.Lawful) {random : Nat → Key × Nonce} (payload : List UInt8)
    {nextHops hops : List String} {secrets : List Key} {start : Nat}
    (drop : nextHops.drop start = hops) (length : hops.length = secrets.length)
    (ids : ∀ hop ∈ hops, IsHopId hop) :
    ∃ wrapped layers,
      ((secrets.map crypto.publicKey).zipIdx start).reverse.foldlM
        (wrapLayer crypto random nextHops) payload = .ok wrapped ∧
      wrapped.length = payload.length + 92 * secrets.length ∧
      peelAll crypto (secrets.map (new crypto)) wrapped = .ok (layers, payload) ∧
      layers.map PeeledLayer.nextHop = hops ∧
      layers.map PeeledLayer.isExit = hops.map fun hop => decide (hop = exitId) := by
  induction secrets generalizing start hops with
  | nil =>
    obtain rfl := List.eq_nil_of_length_eq_zero length
    exact ⟨payload, [], rfl, rfl, rfl, rfl, rfl⟩
  | cons secret secrets ih =>
    cases hops with
    | nil => cases length
    | cons hop hops =>
      obtain ⟨found, rest⟩ := hop_of_drop drop
      obtain ⟨inner, layers, wraps, size, peels, names, exits⟩ := ih rest (Nat.succ.inj length)
        fun hop member => ids hop (List.mem_cons_of_mem _ member)
      obtain ⟨outer, wrapsOuter, sizeOuter, peelsOuter⟩ := peel_wrapLayer lawful random
        found (ids hop List.mem_cons_self) inner secret
      refine ⟨outer, ⟨hop, inner, hop = exitId⟩ :: layers, ?_, ?_, ?_, ?_, ?_⟩
      · rw [List.map_cons, List.zipIdx_cons, List.reverse_cons, List.foldlM_append]
        refine bind_ok_iff.mpr ⟨inner, wraps, ?_⟩
        rw [List.foldlM_cons]
        exact bind_ok_iff.mpr ⟨outer, wrapsOuter, rfl⟩
      · rw [sizeOuter, size, List.length_cons]
        omega
      · rw [List.map_cons, peelAll]
        exact bind_ok_iff.mpr ⟨_, peelsOuter, bind_ok_iff.mpr ⟨_, peels, rfl⟩⟩
      · rw [List.map_cons, names]
      · rw [List.map_cons, List.map_cons, exits]

/-- Wrapping for any nodes succeeds, and peeling with their keys in order gives back the ids
in order and the payload. -/
theorem onion_round_trip (crypto : OnionCrypto) (lawful : crypto.Lawful)
    (random : Nat → Key × Nonce) (payload : List UInt8) (secrets : List Key)
    (nextHops : List String) (length : nextHops.length = secrets.length)
    (ids : ∀ hop ∈ nextHops, IsHopId hop) :
    ∃ wrapped layers,
      wrapRequest crypto random payload (secrets.map crypto.publicKey) nextHops = .ok wrapped ∧
      wrapped.length = payload.length + 92 * secrets.length ∧
      peelAll crypto (secrets.map (new crypto)) wrapped = .ok (layers, payload) ∧
      layers.map PeeledLayer.nextHop = nextHops ∧
      layers.map PeeledLayer.isExit = nextHops.map fun hop => decide (hop = exitId) :=
  peel_wrapped lawful payload rfl length ids

/-! Two layers around `ping`, and one that names another hop, with the values that X25519 and
AES-256-GCM have for them. -/

def nodeSecret : Key := .fill 32 1
def ephemeralSecret : Key := .fill 32 2
def pingNonce : Nonce := .fill 12 3
def relaySecret : Key := .fill 32 4

def nodePublic : Key :=
  ⟨[0xa4, 0xe0, 0x92, 0x92, 0xb6, 0x51, 0xc2, 0x78, 0xb9, 0x77, 0x2c, 0x56, 0x9f, 0x5f,
    0xa9, 0xbb, 0x13, 0xd9, 0x06, 0xb4, 0x6a, 0xb6, 0x8c, 0x9d, 0xf9, 0xdc, 0x2b, 0x44,
    0x09, 0xf8, 0xa2, 0x09], rfl⟩

def ephemeralPublic : Key :=
  ⟨[0xce, 0x8d, 0x3a, 0xd1, 0xcc, 0xb6, 0x33, 0xec, 0x7b, 0x70, 0xc1, 0x78, 0x14, 0xa5,
    0xc7, 0x6e, 0xcd, 0x02, 0x96, 0x85, 0x05, 0x0d, 0x34, 0x47, 0x45, 0xba, 0x05, 0x87,
    0x0e, 0x58, 0x7d, 0x59], rfl⟩

def relayPublic : Key :=
  ⟨[0xac, 0x01, 0xb2, 0x20, 0x9e, 0x86, 0x35, 0x4f, 0xb8, 0x53, 0x23, 0x7b, 0x5d, 0xe0,
    0xf4, 0xfa, 0xb1, 0x3c, 0x7f, 0xcb, 0xf4, 0x33, 0xa6, 0x1c, 0x01, 0x93, 0x69, 0x61,
    0x7f, 0xec, 0xf1, 0x0b], rfl⟩

def pingShared : Key :=
  ⟨[0x2e, 0xd7, 0x6a, 0xb5, 0x49, 0xb1, 0xe7, 0x3c, 0x03, 0x1e, 0xb4, 0x9c, 0x94, 0x48,
    0xf0, 0x79, 0x8a, 0xea, 0x81, 0xb6, 0x98, 0x27, 0x9a, 0x0c, 0x3d, 0xc3, 0xe4, 0x9f,
    0xbf, 0xc4, 0xb9, 0x53], rfl⟩

def relayShared : Key :=
  ⟨[0x09, 0xbb, 0x97, 0x4c, 0xe3, 0x79, 0x99, 0x59, 0x09, 0x66, 0x60, 0xbd, 0xec, 0xe3,
    0xbb, 0x89, 0xca, 0x10, 0x6e, 0x6d, 0xf3, 0x1c, 0x2f, 0x70, 0x1b, 0x7b, 0x8b, 0x99,
    0x77, 0x04, 0x7c, 0x34], rfl⟩

/-- A message, and what it is sealed to under a key and `pingNonce`. -/
structure Sealing where
  key : Key
  plain : List UInt8
  sealed : List UInt8
  deriving DecidableEq

/-- `ping` for the exit. -/
def pingSealing : Sealing where
  key := pingShared
  plain := List.replicate 32 0 ++ ofString "ping"
  sealed :=
    [0x9c, 0x65, 0xa6, 0x15, 0xbf, 0xe4, 0x98, 0x23, 0xb0, 0x9d, 0x55, 0x5d, 0x9b, 0x14,
      0x37, 0x95, 0x88, 0xfc, 0x29, 0x07, 0xb8, 0x45, 0x68, 0x12, 0x05, 0x0c, 0x71, 0xa1,
      0x8a, 0xa9, 0xca, 0xe8, 0x64, 0x1e, 0x12, 0x5d, 0xf2, 0x4a, 0x9e, 0xda, 0x65, 0x65,
      0x44, 0x5c, 0x33, 0x71, 0x2c, 0x64, 0xb6, 0xc0, 0xa0, 0xb1]

/-- The layer of the exit, inside that of the relay before it. -/
def relaySealing : Sealing where
  key := relayShared
  plain := nodePublic.bytes ++ (ephemeralPublic.bytes ++ pingNonce.bytes ++ pingSealing.sealed)
  sealed :=
    [0x0d, 0x4e, 0x1b, 0x28, 0xc4, 0x7b, 0xb4, 0x56, 0x71, 0x57, 0x16, 0xab, 0x0d, 0x99,
      0xcf, 0x5b, 0x2e, 0x48, 0xf0, 0x5c, 0x8a, 0xc3, 0x76, 0x2d, 0xdb, 0x9c, 0x49, 0x59,
      0xed, 0x93, 0x39, 0x7f, 0x25, 0x0e, 0x0c, 0x5a, 0xac, 0xc9, 0x20, 0xcd, 0x92, 0xf0,
      0x7f, 0xbb, 0xf7, 0x6c, 0xfa, 0x63, 0x1d, 0x17, 0x40, 0x05, 0x47, 0x43, 0x43, 0xef,
      0x60, 0x5e, 0xb0, 0x95, 0xcc, 0x71, 0x12, 0xb1, 0x2d, 0x44, 0xd3, 0x23, 0x79, 0x45,
      0x51, 0xbc, 0x08, 0x0c, 0xe7, 0x30, 0xcb, 0x2e, 0x95, 0x69, 0xde, 0x0e, 0xcc, 0x9e,
      0x78, 0xf6, 0x59, 0x62, 0x09, 0xb8, 0xcf, 0x02, 0xcd, 0xab, 0x7d, 0x36, 0xf3, 0x62,
      0xbf, 0x4a, 0xef, 0x6c, 0x96, 0xb4, 0x8e, 0xf9, 0x5d, 0x18, 0x12, 0x9f, 0xd7, 0x3c,
      0x1a, 0xf6, 0xaa, 0xbd, 0x7a, 0x8b, 0xe0, 0x8b, 0x27, 0x8d, 0x14, 0xef, 0xe1, 0xf3,
      0x5a, 0x1a, 0x04, 0x38, 0x52, 0xd0, 0x18, 0x66, 0xd9, 0xe4, 0x09, 0xd8, 0x80, 0x36,
      0x26, 0x1c, 0x71, 0xa9]

/-- `ping` for a hop whose key is of bytes 6. -/
def hopSealing : Sealing where
  key := pingShared
  plain := List.replicate 32 6 ++ ofString "ping"
  sealed :=
    [0x9a, 0x63, 0xa0, 0x13, 0xb9, 0xe2, 0x9e, 0x25, 0xb6, 0x9b, 0x53, 0x5b, 0x9d, 0x12,
      0x31, 0x93, 0x8e, 0xfa, 0x2f, 0x01, 0xbe, 0x43, 0x6e, 0x14, 0x03, 0x0a, 0x77, 0xa7,
      0x8c, 0xaf, 0xcc, 0xee, 0x64, 0x1e, 0x12, 0x5d, 0x1a, 0x48, 0x9b, 0xa4, 0x0f, 0x17,
      0x25, 0x0b, 0x07, 0xf3, 0x6c, 0x93, 0x8a, 0x62, 0x46, 0xda]

def knownSealings : List Sealing := [pingSealing, relaySealing, hopSealing]

def Sealing.seals (key : Key) (nonce : Nonce) (data : List UInt8) (s : Sealing) : Bool :=
  s.key = key ∧ pingNonce = nonce ∧ s.plain = data

def Sealing.opens (key : Key) (nonce : Nonce) (sealed : List UInt8) (s : Sealing) : Bool :=
  s.key = key ∧ pingNonce = nonce ∧ s.sealed = sealed

/-- The public keys above; other keys stand for themselves. -/
def pingPublicKey (key : Key) : Key :=
  if key = nodeSecret then nodePublic
  else if key = nodePublic then nodeSecret
  else if key = ephemeralSecret then ephemeralPublic
  else if key = ephemeralPublic then ephemeralSecret
  else if key = relaySecret then relayPublic
  else if key = relayPublic then relaySecret
  else key

/-- The keys that two secrets agree on, in either order. -/
def knownAgreement (secret other : Key) : Key × Key × Key → Bool
  | (first, second, _) => first = secret ∧ second = other ∨ first = other ∧ second = secret

def pingCrypto : OnionCrypto where
  publicKey := pingPublicKey
  diffieHellman secret theirs :=
    match [(nodeSecret, ephemeralSecret, pingShared),
        (relaySecret, ephemeralSecret, relayShared)].find?
        (knownAgreement secret (pingPublicKey theirs)) with
    | some (_, _, shared) => shared
    | none => .zero 32
  encrypt key nonce data :=
    match knownSealings.find? (·.seals key nonce data) with
    | some s => some s.sealed
    | none => some (data ++ List.replicate 16 0)
  decrypt key nonce sealed :=
    match knownSealings.find? (·.opens key nonce sealed) with
    | some s => some s.plain
    | none =>
      let data := sealed.take (sealed.length - 16)
      if sealed.drop (sealed.length - 16) = List.replicate 16 0 ∧
          knownSealings.find? (·.seals key nonce data) = none
      then some data else none

theorem pingPublicKey_twice (key : Key) : pingPublicKey (pingPublicKey key) = key := by
  let keys := [nodeSecret, nodePublic, ephemeralSecret, ephemeralPublic, relaySecret, relayPublic]
  by_cases known : key ∈ keys
  · have all : ∀ k ∈ keys, pingPublicKey (pingPublicKey k) = k := by decide
    exact all key known
  · simp only [keys, List.mem_cons, List.not_mem_nil, or_false, not_or] at known
    simp only [pingPublicKey, known, if_false]

/-- Each known message is found by its key and text, and by what it is sealed to. -/
theorem knownSealings_found : ∀ s ∈ knownSealings,
    knownSealings.find? (·.seals s.key pingNonce s.plain) = some s ∧
      knownSealings.find? (·.opens s.key pingNonce s.sealed) = some s ∧
        s.sealed.length = s.plain.length + 16 ∧
          s.sealed.drop (s.sealed.length - 16) ≠ List.replicate 16 0 := by
  decide +kernel

theorem Sealing.seals_spec {key : Key} {nonce : Nonce} {data : List UInt8} {s : Sealing}
    (found : knownSealings.find? (·.seals key nonce data) = some s) :
    s ∈ knownSealings ∧ s.key = key ∧ pingNonce = nonce ∧ s.plain = data :=
  have fits : s.seals key nonce data = true := List.find?_some found
  ⟨List.mem_of_find?_eq_some found, of_decide_eq_true fits⟩

theorem Sealing.opens_spec {key : Key} {nonce : Nonce} {sealed : List UInt8} {s : Sealing}
    (found : knownSealings.find? (·.opens key nonce sealed) = some s) :
    s ∈ knownSealings ∧ s.key = key ∧ pingNonce = nonce ∧ s.sealed = sealed :=
  have fits : s.opens key nonce sealed = true := List.find?_some found
  ⟨List.mem_of_find?_eq_some found, of_decide_eq_true fits⟩

theorem pingCrypto_lawful : pingCrypto.Lawful where
  agreement a b := by
    have symmetric : knownAgreement a b = knownAgreement b a := by
      funext ⟨first, second, shared⟩
      exact decide_eq_decide.mpr or_comm
    simp only [pingCrypto, pingPublicKey_twice, symmetric]
  opens key nonce data := by
    cases known : knownSealings.find? (·.seals key nonce data) with
    | some s =>
      obtain ⟨member, rfl, rfl, rfl⟩ := Sealing.seals_spec known
      obtain ⟨_, opened, size, _⟩ := knownSealings_found s member
      refine ⟨s.sealed, ?_, size, ?_⟩
      · simp only [pingCrypto, known]
      · simp only [pingCrypto, opened]
    | none =>
      let sealed := data ++ List.replicate 16 (0 : UInt8)
      have tail : sealed.drop (sealed.length - 16) = List.replicate 16 0 := by
        simp [sealed]
      have head : sealed.take (sealed.length - 16) = data := by
        simp [sealed]
      have other : knownSealings.find? (·.opens key nonce sealed) = none := by
        by_contra found
        obtain ⟨s, found⟩ := Option.ne_none_iff_exists'.mp found
        obtain ⟨member, _, _, same⟩ := Sealing.opens_spec found
        have untagged := (knownSealings_found s member).2.2.2
        rw [same] at untagged
        exact untagged tail
      refine ⟨sealed, ?_, ?_, ?_⟩
      · simp only [pingCrypto, known, sealed]
      · simp [sealed]
      · simp only [pingCrypto, other, tail, head, known, and_self, if_true]

theorem pingCrypto_authentic : pingCrypto.Authentic := by
  intro key nonce sealed data opened
  cases known : knownSealings.find? (·.opens key nonce sealed) with
  | some s =>
    obtain ⟨member, rfl, rfl, rfl⟩ := Sealing.opens_spec known
    simp only [pingCrypto, known] at opened ⊢
    obtain rfl := Option.some.inj opened
    simp only [(knownSealings_found s member).1]
  | none =>
    simp only [pingCrypto, known] at opened ⊢
    split at opened
    · rename_i tagged
      obtain rfl := Option.some.inj opened
      rw [tagged.2, ← tagged.1, List.take_append_drop]
    · cases opened

theorem exitId_isHopId : IsHopId exitId where
  size := by decide
  lower := by
    have all : exitId.toList.all (· ∈ Hex.lowerDigits) = true := by decide
    exact fun c member => of_decide_eq_true (List.all_eq_true.mp all c member)

/-- `ping` goes by a relay to the exit. -/
theorem ping_round_trip :
    let nextHops := [Hex.encode nodePublic.bytes, exitId]
    ∃ wrapped layers,
      wrapRequest pingCrypto (fun _ => (ephemeralSecret, pingNonce)) (ofString "ping")
        [relayPublic, nodePublic] nextHops = .ok wrapped ∧
      wrapped = ephemeralPublic.bytes ++ pingNonce.bytes ++ relaySealing.sealed ∧
      peelAll pingCrypto [new pingCrypto relaySecret, new pingCrypto nodeSecret] wrapped =
        .ok (layers, ofString "ping") ∧
      layers.map PeeledLayer.nextHop = nextHops ∧
      layers.map PeeledLayer.isExit = [false, true] := by
  intro nextHops
  have ids : ∀ hop ∈ nextHops, IsHopId hop :=
    List.forall_mem_cons.mpr ⟨⟨by decide, fun _ => Hex.encode_lower⟩,
      List.forall_mem_singleton.mpr exitId_isHopId⟩
  obtain ⟨wrapped, layers, wraps, _, peels, hops, exits⟩ := onion_round_trip pingCrypto
    pingCrypto_lawful (fun _ => (ephemeralSecret, pingNonce)) (ofString "ping")
    [relaySecret, nodeSecret] nextHops rfl ids
  have computed : wrapRequest pingCrypto (fun _ => (ephemeralSecret, pingNonce)) (ofString "ping")
      [relayPublic, nodePublic] nextHops =
        .ok (ephemeralPublic.bytes ++ pingNonce.bytes ++ relaySealing.sealed) := by
    decide +kernel
  exact ⟨wrapped, layers, wraps, Except.ok.inj (wraps.symm.trans computed), peels, hops, exits⟩

/-! Ids that are not hop ids. -/

def DecodesTo32 (hop : String) : Prop := ∃ bytes, Hex.decode hop = some bytes ∧ bytes.length = 32

/-- What is asked of the ids for a wrapped request to peel. -/
def Peelable (nodeKeys : List Key) (nextHops : List String) : Prop :=
  nodeKeys.length ≤ nextHops.length ∧ ∀ hop ∈ nextHops.take nodeKeys.length, DecodesTo32 hop

/-- Wrapping does not panic, and succeeds only for ids that can be peeled. -/
def RejectsUnpeelable (crypto : OnionCrypto) (random : Nat → Key × Nonce) (payload : List UInt8)
    (nodeKeys : List Key) (nextHops : List String) : Prop :=
  wrapRequest crypto random payload nodeKeys nextHops ≠ .error .indexOutOfBounds ∧
    ∀ wrapped, wrapRequest crypto random payload nodeKeys nextHops = .ok wrapped →
      Peelable nodeKeys nextHops

variable {nodeKeys : List Key} {nextHops : List String}

theorem encryptLayer_ok (lawful : crypto.Lawful) (draw : Key × Nonce) (data : List UInt8)
    (recipientKey : Key) : ∃ sealed, encryptLayer crypto draw data recipientKey = .ok sealed := by
  obtain ⟨ciphertext, encrypted, _⟩ :=
    lawful.opens (crypto.diffieHellman draw.1 recipientKey) draw.2 data
  exact ⟨_, by rw [encryptLayer, encrypted]⟩

/-- With an id for each node, the layers are built exactly when each id is hexadecimal. -/
theorem wrap_hops (lawful : crypto.Lawful) (random : Nat → Key × Nonce) (payload : List UInt8)
    {start : Nat} {hops : List String} (drop : nextHops.drop start = hops)
    (enough : nodeKeys.length ≤ hops.length) :
    (∃ wrapped, (nodeKeys.zipIdx start).reverse.foldlM (wrapLayer crypto random nextHops)
        payload = .ok wrapped ∧ ∀ hop ∈ hops.take nodeKeys.length, Hex.decode hop ≠ none) ∨
      (nodeKeys.zipIdx start).reverse.foldlM (wrapLayer crypto random nextHops) payload =
        .error .hex ∧ ∃ hop ∈ hops.take nodeKeys.length, Hex.decode hop = none := by
  induction nodeKeys generalizing start hops with
  | nil => exact .inl ⟨payload, rfl, nofun⟩
  | cons nodeKey nodeKeys ih =>
    cases hops with
    | nil => cases enough
    | cons hop hops =>
      obtain ⟨found, rest⟩ := hop_of_drop drop
      rw [List.zipIdx_cons, List.reverse_cons, List.foldlM_append, List.length_cons,
        List.take_succ_cons]
      rcases ih rest (Nat.le_of_succ_le_succ enough) with ⟨inner, wraps, read⟩ | ⟨fails, bad⟩
      · rw [wraps, bind_of_ok, List.foldlM_cons]
        cases decoded : Hex.decode hop with
        | none =>
          right
          refine ⟨?_, hop, List.mem_cons_self, decoded⟩
          rw [wrapLayer, found]
          simp only [decoded]
          rfl
        | some hopBytes =>
          obtain ⟨sealed, encrypted⟩ :=
            encryptLayer_ok lawful (random start) (hopBytes ++ inner) nodeKey
          refine .inl ⟨sealed, ?_, List.forall_mem_cons.mpr ⟨by simp [decoded], read⟩⟩
          rw [wrapLayer, found]
          simp only [decoded, encrypted]
          rfl
      · right
        rw [fails]
        obtain ⟨bad, member, unread⟩ := bad
        exact ⟨rfl, bad, List.mem_cons_of_mem hop member, unread⟩

/-- The last node comes first, and finds no id. -/
theorem wrap_short (crypto : OnionCrypto) (random : Nat → Key × Nonce) (payload : List UInt8)
    (nonempty : nodeKeys ≠ []) (short : nextHops.length < nodeKeys.length) :
    wrapRequest crypto random payload nodeKeys nextHops = .error .indexOutOfBounds := by
  obtain ⟨init, last, rfl⟩ := List.eq_nil_or_concat nodeKeys |>.resolve_left nonempty
  rw [List.concat_eq_append, List.length_append, List.length_singleton] at short
  have missing : nextHops[init.length]? = none := List.getElem?_eq_none (by omega)
  rw [wrapRequest, List.concat_eq_append, List.zipIdx_append, List.reverse_append]
  simp only [List.zipIdx_cons, List.zipIdx_nil, List.reverse_singleton, List.singleton_append,
    List.foldlM_cons, Nat.zero_add, wrapLayer, missing]
  rfl

/-- For at least one node, wrapping rejects what cannot be peeled exactly when there is an id for
each node, and one of these ids is not hexadecimal or all are of 32 bytes. -/
theorem rejectsUnpeelable_iff (lawful : crypto.Lawful) (random : Nat → Key × Nonce)
    (payload : List UInt8) {nodeKeys : List Key} (nonempty : nodeKeys ≠ [])
    (nextHops : List String) :
    RejectsUnpeelable crypto random payload nodeKeys nextHops ↔
      nodeKeys.length ≤ nextHops.length ∧
        ((∃ hop ∈ nextHops.take nodeKeys.length, Hex.decode hop = none) ∨
          ∀ hop ∈ nextHops.take nodeKeys.length, DecodesTo32 hop) := by
  by_cases enough : nodeKeys.length ≤ nextHops.length
  · rw [and_iff_right enough]
    have whole : nextHops.drop 0 = nextHops := rfl
    rcases wrap_hops lawful random payload whole enough with ⟨wrapped, wraps, read⟩ | ⟨fails, bad⟩
    · constructor
      · rintro ⟨_, sound⟩
        exact .inr (sound wrapped wraps).2
      · rintro (⟨hop, member, unread⟩ | decodes)
        · exact absurd unread (read hop member)
        · refine ⟨?_, fun _ _ => ⟨enough, decodes⟩⟩
          rw [wrapRequest, wraps]
          nofun
    · refine iff_of_true ⟨?_, ?_⟩ (.inl bad)
      · rw [wrapRequest, fails]
        nofun
      · intro wrapped wraps
        cases fails.symm.trans wraps
  · have panics := wrap_short crypto random payload nonempty (Nat.lt_of_not_le enough)
    exact iff_of_false (fun rejects => rejects.1 panics) fun condition => enough condition.1

/-- One node: the id of the exit and an id that is no hexadecimal text are dealt with, no id is
not. -/
theorem rejects_no_hops :
    let rejects := RejectsUnpeelable pingCrypto (fun _ => (ephemeralSecret, pingNonce))
      (ofString "ping") [nodePublic]
    rejects [exitId] ∧ rejects ["entry"] ∧ ¬ rejects [] := by
  intro rejects
  have exact_when := rejectsUnpeelable_iff pingCrypto_lawful
    (fun _ => (ephemeralSecret, pingNonce)) (ofString "ping") (List.cons_ne_nil nodePublic [])
  refine ⟨(exact_when [exitId]).mpr ⟨by decide, .inr ?_⟩,
    (exact_when ["entry"]).mpr ⟨by decide, .inl ?_⟩, ?_⟩
  · obtain ⟨bytes, decoded, size, _⟩ :=
      Hex.decode_lower (n := 32) exitId_isHopId.size exitId_isHopId.lower
    exact List.forall_mem_singleton.mpr ⟨bytes, decoded, size⟩
  · exact ⟨"entry", List.mem_singleton_self _, by decide⟩
  · exact fun none_given => absurd ((exact_when []).mp none_given).1 (by decide)

theorem wrap_panics : ¬ ∀ (crypto : OnionCrypto) (random : Nat → Key × Nonce)
    (payload : List UInt8) (nodeKeys : List Key) (nextHops : List String), crypto.Lawful →
    nodeKeys ≠ [] → RejectsUnpeelable crypto random payload nodeKeys nextHops := by
  intro rejects
  have short : ([] : List String).length < [nodePublic].length := by decide
  have panics := wrap_short pingCrypto (fun _ => (ephemeralSecret, pingNonce)) (ofString "ping")
    (List.cons_ne_nil nodePublic []) short
  exact (rejects pingCrypto _ _ [nodePublic] [] pingCrypto_lawful (List.cons_ne_nil _ _)).1 panics

end OnionRouter

end Solnet.Daemon
