import Solnet.Lib.Base58
import Solnet.Native.Ffi

/-! The wallet of the app and the relay it starts. The native core writes a key pair in
hexadecimal, the app shows its public key in base 58, and both the bridge of the app and the
native core ask for an address of 32 to 44 characters. -/
namespace Solnet.Mobile
open Solnet.Daemon Solnet.Native Bytes

/-- The JSON of the JavaScript runtime. -/
structure JsonRuntime where
  parse : String → Option Value
  stringify : Value → String

structure Wallet where
  publicKey : String
  secretKey : String
  deriving DecidableEq, Repr

/-- The members of the key pair that the app reads. -/
def Wallet.ofJson (json : Value) : Option Wallet := do
  let publicKey ← (json.index "publicKey").asStr
  let secretKey ← (json.index "secretKey").asStr
  return ⟨publicKey, secretKey⟩

/-- What `loadWallet` keeps of a new key pair. -/
def loadWallet (js : JsonRuntime) (keypairJson : String) : Option Wallet :=
  (js.parse keypairJson).bind Wallet.ofJson

/-- `Buffer.from(text, 'hex')` stops at the first pair that is not hexadecimal. -/
def bufferFromHex : List Char → List UInt8
  | hi :: lo :: rest =>
    match Hex.digitValue hi, Hex.digitValue lo with
    | some h, some l => UInt8.ofNat (16 * h + l) :: bufferFromHex rest
    | _, _ => []
  | _ => []

/-- The number of UTF-16 code units, the `length` of a JavaScript string. -/
def jsLength (text : String) : Nat :=
  (text.toList.map fun c => if c.toNat < 0x10000 then 1 else 2).sum

def Wallet.address (wallet : Wallet) : String :=
  if wallet.publicKey = "" then ""
  else if jsLength wallet.publicKey = 64 then
    Base58.encode (bufferFromHex wallet.publicKey.toList)
  else wallet.publicKey

/-- An integer that a JavaScript number has exactly. -/
abbrev SafeInteger := Fin (2 ^ 53)

/-- The configuration that the app passes to its bridge. -/
structure RelayOptions where
  relayUrl : String
  walletPubkey : String
  nodeName : Option String
  maxConcurrent : Option SafeInteger
  lamportsPerRequest : Option SafeInteger

/-- `given || fallback`. -/
def orNumber (given : Option SafeInteger) (fallback : Nat) : Nat :=
  match given with
  | some n => if n.val = 0 then fallback else n.val
  | none => fallback

def orText (given : Option String) (fallback : String) : String :=
  match given with
  | some text => if text = "" then fallback else text
  | none => fallback

def rigidPayload (config : RelayOptions) : Value :=
  .object [("relay_url", .string config.relayUrl), ("wallet_pubkey", .string config.walletPubkey),
    ("node_name", .string (orText config.nodeName "solnet-node")),
    ("max_concurrent", .number (.int (orNumber config.maxConcurrent 32))),
    ("lamports_per_request", .number (.int (orNumber config.lamportsPerRequest 5))),
    ("version", .string "1.0.0")]

/-- The text that `DaemonBridge.start` hands to the native module, if it hands one over. -/
def DaemonBridge.start (js : JsonRuntime) (config : RelayOptions) : Option String :=
  if config.relayUrl = "" ∨ config.walletPubkey = "" then none
  else if jsLength config.walletPubkey < 32 ∨ 44 < jsLength config.walletPubkey then none
  else some (js.stringify (rigidPayload config))

/-- `CString::new`: a text with a zero character is refused. -/
def newCString (text : String) : Option (List UInt8) :=
  if '\x00' ∈ text.toList then none else some (ofString text)

variable {js : JsonRuntime} {lib : Platform}

/-- The text of a key pair is read as the object that it writes. -/
def ReadsKeypair (js : JsonRuntime) (publicKey secretKey : List UInt8) : Prop :=
  js.parse ("\x7b\"publicKey\":\"" ++ Hex.encode publicKey ++ "\",\"secretKey\":\"" ++
    Hex.encode secretKey ++ "\"\x7d") =
    some (.object [("publicKey", .string (Hex.encode publicKey)),
      ("secretKey", .string (Hex.encode secretKey))])

/-- The native core reads the members of what the app writes, in whatever order it keeps them. -/
def ReadsPayload (js : JsonRuntime) (lib : Platform) (config : RelayOptions) : Prop :=
  ∃ v, lib.fromStr (js.stringify (rigidPayload config)) = .ok v ∧
    ∀ key, v.index key = (rigidPayload config).index key

theorem bufferFromHex_pairs (bytes : List UInt8) :
    bufferFromHex (bytes.flatMap Hex.pair) = bytes := by
  induction bytes with
  | nil => rfl
  | cons b bytes ih =>
    have bound : b.toNat < 256 := b.toNat_lt
    have high : b.toNat / 16 < 16 := by omega
    have low : b.toNat % 16 < 16 := Nat.mod_lt _ (by decide)
    have joined : 16 * (b.toNat / 16) + b.toNat % 16 = b.toNat := Nat.div_add_mod _ _
    rw [List.flatMap_cons, Hex.pair, List.cons_append, List.cons_append, List.nil_append,
      bufferFromHex, Hex.digitValue_digitChar high, Hex.digitValue_digitChar low]
    simp only [ih, joined, UInt8.ofNat_toNat]

theorem jsLength_ascii {text : String} (ascii : ∀ c ∈ text.toList, c.toNat < 128) :
    jsLength text = text.length := by
  have units : text.toList.map (fun c => if c.toNat < 0x10000 then 1 else 2) =
      text.toList.map fun _ => 1 :=
    List.map_congr_left fun c member => if_pos ((ascii c member).trans (by decide))
  rw [jsLength, units, List.map_const', List.sum_replicate_nat, Nat.mul_one, String.length_toList]

theorem hex_ascii {bytes : List UInt8} {c : Char} (member : c ∈ (Hex.encode bytes).toList) :
    0 < c.toNat ∧ c.toNat < 128 := by
  have all : Hex.lowerDigits.all (fun c => 0 < c.toNat && c.toNat < 128) = true := by decide
  simpa using List.all_eq_true.mp all c (Hex.encode_lower member)

theorem base58_ascii {bytes : List UInt8} {c : Char}
    (member : c ∈ (Base58.encode bytes).toList) : c.toNat < 128 := by
  have all : Base58.alphabet.all (fun c => c.toNat < 128) = true := by decide
  simpa using List.all_eq_true.mp all c (Base58.encode_alphabet member)

/-- The address of a key of 32 bytes, written in hexadecimal. -/
theorem address_hex (key : Block 32) (secretKey : String) :
    Wallet.address ⟨Hex.encode key.bytes, secretKey⟩ = Base58.encode key.bytes := by
  have full : key.bytes.length = 32 := key.full
  have length : (Hex.encode key.bytes).length = 64 := by rw [Hex.length_encode, full]
  have units : jsLength (Hex.encode key.bytes) = 64 :=
    (jsLength_ascii fun c member => (hex_ascii member).2).trans length
  have written : Hex.encode key.bytes ≠ "" := by
    intro empty
    rw [empty] at length
    cases length
  rw [Wallet.address, if_neg written, if_pos units, Hex.encode, String.toList_ofList,
    bufferFromHex_pairs]

theorem address_length (key : Block 32) :
    32 ≤ (Base58.encode key.bytes).length ∧ (Base58.encode key.bytes).length ≤ 44 := by
  have full : key.bytes.length = 32 := key.full
  have enough := Base58.length_le_encode key.bytes
  have room : 256 ^ key.bytes.length ≤ 58 ^ 44 := by
    rw [full]
    norm_num
  exact ⟨full.symm.trans_le enough, Base58.length_encode_le_of_pow room⟩

theorem cStr_newCString {text : String} (plain : '\x00' ∉ text.toList) :
    cStr (newCString text) = some text := by
  rw [newCString, if_neg plain]
  exact fromUTF8?_toUTF8 text

theorem asU64_int {n : Nat} (small : n < 2 ^ 64) : asU64 (.number (.int n)) = some n := by
  rw [asU64, if_pos ⟨Int.natCast_nonneg n, by exact_mod_cast small⟩, Int.toNat_natCast]

theorem orNumber_lt {given : Option SafeInteger} {fallback : Nat} (small : fallback < 2 ^ 53) :
    orNumber given fallback < 2 ^ 53 := by
  unfold orNumber
  split
  · split
    · exact small
    · exact Fin.isLt _
  · exact small

/-- What the native core makes of a payload that the bridge lets through. -/
theorem fromJson_payload {config : RelayOptions} (payload : ReadsPayload js lib config)
    (https : "https://".toList <+: config.relayUrl.toList)
    (long : 32 ≤ config.walletPubkey.utf8ByteSize)
    (short : config.walletPubkey.utf8ByteSize ≤ 44) :
    RelayConfig.fromJson lib (js.stringify (rigidPayload config)) = .ok
      ⟨config.relayUrl, config.walletPubkey, some (orText config.nodeName "solnet-node"),
        min (orNumber config.maxConcurrent 32) 8, orNumber config.lamportsPerRequest 5⟩ := by
  obtain ⟨v, read, members⟩ := payload
  have url : v.index "relay_url" = .string config.relayUrl := members "relay_url"
  have pubkey : v.index "wallet_pubkey" = .string config.walletPubkey := members "wallet_pubkey"
  have name : v.index "node_name" = .string (orText config.nodeName "solnet-node") :=
    members "node_name"
  have concurrent : v.index "max_concurrent" =
      .number (.int (orNumber config.maxConcurrent 32)) := members "max_concurrent"
  have lamports : v.index "lamports_per_request" =
      .number (.int (orNumber config.lamportsPerRequest 5)) := members "lamports_per_request"
  have small : orNumber config.maxConcurrent 32 < 2 ^ 64 :=
    (orNumber_lt (by decide)).trans (by decide)
  have small' : orNumber config.lamportsPerRequest 5 < 2 ^ 64 :=
    (orNumber_lt (by decide)).trans (by decide)
  have first : (some config.relayUrl).or (v.index "rpc_url").asStr = some config.relayUrl := rfl
  have asked : (v.index "relay_url").asStr = some config.relayUrl := by rw [url]; rfl
  have paid : (v.index "wallet_pubkey").asStr = some config.walletPubkey := by rw [pubkey]; rfl
  have named : (v.index "node_name").asStr = some (orText config.nodeName "solnet-node") := by
    rw [name]; rfl
  simp only [RelayConfig.fromJson, read, asked, first, paid, named, concurrent, lamports,
    asU64_int small, asU64_int small', Option.map_some, Option.getD_some]
  rw [if_neg (not_not_intro https), if_neg (by omega)]

/-- The bridge passes an address of the app on to the native core, which takes it. -/
theorem start_accepted {key : Block 32} {config : RelayOptions}
    (address : config.walletPubkey = Base58.encode key.bytes)
    (https : "https://".toList <+: config.relayUrl.toList)
    (payload : ReadsPayload js lib config) :
    ∃ json, DaemonBridge.start js config = some json ∧ RelayConfig.fromJson lib json = .ok
      ⟨config.relayUrl, config.walletPubkey, some (orText config.nodeName "solnet-node"),
        min (orNumber config.maxConcurrent 32) 8, orNumber config.lamportsPerRequest 5⟩ := by
  obtain ⟨long, short⟩ := address_length key
  have ascii : ∀ c ∈ config.walletPubkey.toList, c.toNat < 128 := fun c member =>
    base58_ascii (address ▸ member)
  have units := jsLength_ascii ascii
  have bytes := utf8ByteSize_ascii ascii
  rw [← address] at long short
  have given : ¬ (config.relayUrl = "" ∨ config.walletPubkey = "") := by
    rintro (empty | empty)
    · rw [empty] at https
      exact absurd https (by decide)
    · rw [empty] at long
      exact absurd long (by decide)
  refine ⟨_, ?_, fromJson_payload payload https (by omega) (by omega)⟩
  rw [DaemonBridge.start, if_neg given, if_neg (by omega)]

/-- A wallet that the native core makes serves the app: its address is the base 58 of its public
key, the bridge and the native core take it for the relay, and the core signs with its secret
key. -/
theorem generated_wallet_serves (js : JsonRuntime) (lib : Platform) (p : Native.Process)
    (token : Token) (session : checkAuth p.governorToken token = true) (seed : Block 32)
    (keypair : ReadsKeypair js (lib.verifyingKey seed).bytes seed.bytes) (config : RelayOptions)
    (address : config.walletPubkey = Base58.encode (lib.verifyingKey seed).bytes)
    (https : "https://".toList <+: config.relayUrl.toList)
    (payload : ReadsPayload js lib config) :
    ∃ text wallet, p.generateKeypair lib seed token = some text ∧
      loadWallet js text = some wallet ∧ wallet.address = config.walletPubkey ∧
      (∃ json, DaemonBridge.start js config = some json ∧ RelayConfig.fromJson lib json = .ok
        ⟨config.relayUrl, wallet.address, some (orText config.nodeName "solnet-node"),
          min (orNumber config.maxConcurrent 32) 8, orNumber config.lamportsPerRequest 5⟩) ∧
      ∀ message : String, '\x00' ∉ message.toList →
        p.signTransaction lib (newCString wallet.secretKey) (newCString message) token =
          some (Hex.encode (lib.sign seed (ofString message)).bytes) := by
  have own := (address_hex (lib.verifyingKey seed) (Hex.encode seed.bytes)).trans address.symm
  refine ⟨_, ⟨Hex.encode (lib.verifyingKey seed).bytes, Hex.encode seed.bytes⟩,
    if_neg (by rw [session]; decide), ?_, own, ?_, ?_⟩
  · rw [loadWallet, keypair]
    rfl
  · rw [own]
    exact start_accepted address https payload
  · intro message plain
    have plain' : '\x00' ∉ (Hex.encode seed.bytes).toList := fun member =>
      absurd (hex_ascii member).1 (by decide)
    simp only [Native.Process.signTransaction, session, Bool.not_true, Bool.false_eq_true, if_false,
      cStr_newCString plain, cStr_newCString plain', Hex.decode_encode, bind, Option.bind,
      dif_pos seed.full]

/-! The wallet of the zero seed, with a toy of the signature scheme. -/

def zeroOptions : RelayOptions :=
  ⟨"https://solnet-production.up.railway.app", Base58.encode (List.replicate 32 0), none, none,
    none⟩

def zeroRuntime : JsonRuntime where
  parse _ := some (.object [("publicKey", .string (Hex.encode (List.replicate 32 0))),
    ("secretKey", .string (Hex.encode (List.replicate 32 0)))])
  stringify _ := "\x7b\"relay_url\":\"https://solnet-production.up.railway.app\"," ++
    "\"wallet_pubkey\":\"11111111111111111111111111111111\",\"node_name\":\"solnet-node\"," ++
    "\"max_concurrent\":32,\"lamports_per_request\":5,\"version\":\"1.0.0\"\x7d"

def zeroPlatform : Platform :=
  { bare with fromStr := fun _ => .ok (rigidPayload zeroOptions) }

theorem generated_wallet_serves_zero :
    ∃ text wallet,
      initialised.generateKeypair zeroPlatform (.zero 32) Native.session = some text ∧
      loadWallet zeroRuntime text = some wallet ∧
      wallet.address = zeroOptions.walletPubkey := by
  obtain ⟨text, wallet, generated, loaded, address, _⟩ :=
    generated_wallet_serves zeroRuntime zeroPlatform initialised Native.session (by decide)
      (.zero 32) rfl zeroOptions rfl (by decide) ⟨_, rfl, fun _ => rfl⟩
  exact ⟨text, wallet, generated, loaded, address⟩

end Solnet.Mobile
