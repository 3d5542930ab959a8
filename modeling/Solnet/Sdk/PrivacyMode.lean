import Solnet.Daemon.Onion

/-! The privacy mode of the SDK: the request goes to the onion endpoint of the entry node,
in Base64 and without a layer of encryption. -/
namespace Solnet.Sdk
open Fallible Bytes Solnet.Daemon

def allowedMethods : List String :=
  ["getAccountInfo", "getBalance", "getBlock", "getBlockHeight", "getBlockProduction",
    "getBlockCommitment", "getBlocks", "getBlockTime", "getClusterNodes", "getEpochInfo",
    "getEpochSchedule", "getFeeForMessage", "getFirstAvailableBlock", "getGenesisHash", "getHealth",
    "getIdentity", "getInflationGovernor", "getInflationRate", "getInflationReward",
    "getLargestAccounts", "getLatestBlockhash", "getLeaderSchedule",
    "getMinimumBalanceForRentExemption", "getMultipleAccounts", "getProgramAccounts",
    "getRecentPerformanceSamples", "getRecentPrioritizationFees", "getSignaturesForAddress",
    "getSignatureStatuses", "getSlot", "getSlotLeader", "getSlotLeaders", "getSupply",
    "getTokenAccountBalance", "getTokenAccountsByDelegate", "getTokenAccountsByOwner",
    "getTokenLargestAccounts", "getTokenSupply", "getTransaction", "getTransactionCount",
    "getVersion", "getVoteAccounts", "isBlockhashValid", "minimumLedgerSlot", "requestAirdrop",
    "sendTransaction", "simulateTransaction"]

def utf16Length (text : String) : Nat :=
  (text.toList.map fun c => if c.toNat < 0x10000 then 1 else 2).sum

def validateRpcMethod (method : String) : Except String Unit := do
  require (utf16Length method ≤ 100) "RPC method name too long"
  require (method ∈ allowedMethods) ("RPC method not allowed: " ++ method)
  require (method.toList.all (· ∉ ";&|`$<>\\".toList)) "Invalid characters in method name"

/-- `JSON.stringify` of the request. No allowed method has a character to escape. -/
def requestText (id : Nat) (method params : String) : String :=
  "\x7b\"jsonrpc\":\"2.0\",\"id\":" ++ id.repr ++ ",\"method\":\"" ++ method ++
    "\",\"params\":" ++ params ++ "\x7d"

def IsLatin1 (text : String) : Prop := ∀ c ∈ text.toList, c.toNat < 256

instance (text : String) : Decidable (IsLatin1 text) :=
  decidable_of_iff (text.toList.all (·.toNat < 256) = true)
    (by simp only [IsLatin1, List.all_eq_true, decide_eq_true_eq])

def latin1Bytes (text : String) : List UInt8 := text.toList.map fun c => UInt8.ofNat c.toNat

def btoa (text : String) : Except String String :=
  if IsLatin1 text then .ok (Base64.encode (latin1Bytes text)) else .error "InvalidCharacterError"

/-- The body that `_rpcRequest` posts to `/onion` in privacy mode, when the clock reads `id`
and `params` is the JSON text of the arguments. -/
def privacyRequest (id : Nat) (method params : String) : Except String OnionRequest := do
  validateRpcMethod method
  let encodedLayer ← btoa (requestText id method params)
  return ⟨encodedLayer, exitId⟩

/-- The entry node takes the request: its layer peels as that of an exit, and the text
inside is that of the request, in UTF-8 or in Latin-1. -/
def Accepts (crypto : OnionCrypto) (router : OnionRouter) (request : OnionRequest)
    (text : String) : Prop :=
  ∃ wrapped peeled, Base64.decode request.layer = some wrapped ∧
    router.peelLayer crypto wrapped = .ok peeled ∧ peeled.isExit = true ∧
    (peeled.innerPayload = ofString text ∨ peeled.innerPayload = latin1Bytes text)

/-- An accepted request goes on to the RPC handler. -/
theorem Accepts.answered {crypto : OnionCrypto} {router : OnionRouter} {request : OnionRequest}
    {text : String} (accepts : Accepts crypto router request text)
    (peerRegistry : String → Option String) :
    ∃ body, (body = ofString text ∨ body = latin1Bytes text) ∧
      onionHandler crypto router peerRegistry request = .rpc "anon-routed" body := by
  obtain ⟨wrapped, peeled, decodes, peels, exits, reads⟩ := accepts
  refine ⟨peeled.innerPayload, reads, ?_⟩
  simp only [onionHandler, decodes, peels, exits, if_true]

theorem validateRpcMethod_allowed {method : String} (valid : validateRpcMethod method = .ok ()) :
    method ∈ allowedMethods := by
  simp only [validateRpcMethod, bind_ok_iff, require_ok_iff] at valid
  obtain ⟨_, _, _, allowed, _⟩ := valid
  exact allowed

theorem IsLatin1.append {s t : String} (left : IsLatin1 s) (right : IsLatin1 t) :
    IsLatin1 (s ++ t) := by
  intro c member
  rw [String.toList_append] at member
  rcases List.mem_append.mp member with member | member
  · exact left c member
  · exact right c member

theorem allowed_isLatin1 {method : String} (allowed : method ∈ allowedMethods) :
    IsLatin1 method := by
  have all : ∀ method ∈ allowedMethods, IsLatin1 method := by decide
  exact all method allowed

theorem repr_isLatin1 (n : Nat) : IsLatin1 n.repr := by
  intro c member
  rw [Nat.toList_repr] at member
  have digit := Nat.isDigit_of_mem_toDigits (by decide) (by decide) member
  have bounds := Char.isDigit_iff_toNat.mp digit
  have nine : '9'.toNat = 57 := rfl
  omega

theorem requestText_isLatin1 {id : Nat} {method params : String}
    (allowed : method ∈ allowedMethods) (latin1 : IsLatin1 params) :
    IsLatin1 (requestText id method params) := by
  unfold requestText
  refine .append (.append (.append (.append (.append (.append ?_ (repr_isLatin1 id)) ?_)
    (allowed_isLatin1 allowed)) ?_) latin1) ?_
  all_goals decide

theorem length_latin1Bytes (text : String) : (latin1Bytes text).length = text.length := by
  rw [latin1Bytes, List.length_map, String.length_toList]

theorem peelLayer_shorter {crypto : OnionCrypto} (lawful : crypto.Lawful)
    (authentic : crypto.Authentic) {router : OnionRouter} {wrapped : List UInt8}
    {peeled : PeeledLayer} (peels : router.peelLayer crypto wrapped = .ok peeled) :
    peeled.innerPayload.length + 92 = wrapped.length := by
  obtain ⟨decrypted, opened, peels⟩ := bind_ok_iff.mp peels
  split at peels
  · cases peels
  rename_i long
  obtain rfl := Except.ok.inj peels
  unfold OnionRouter.decryptLayer at opened
  split at opened
  · cases opened
  rename_i header
  dsimp only at opened
  split at opened
  · rename_i data decrypts
    obtain rfl := Except.ok.inj opened
    have encrypts := authentic _ _ _ _ decrypts
    obtain ⟨sealed, encrypts', length, _⟩ := lawful.opens _ _ data
    rw [encrypts] at encrypts'
    obtain rfl := Option.some.inj encrypts'
    rw [List.length_drop] at length
    rw [List.length_drop]
    omega
  · cases opened

theorem plain_layer_not_accepted {crypto : OnionCrypto} (lawful : crypto.Lawful)
    (authentic : crypto.Authentic) (router : OnionRouter) (text nextHop : String) :
    ¬ Accepts crypto router ⟨Base64.encode (latin1Bytes text), nextHop⟩ text := by
  rintro ⟨wrapped, peeled, decoded, peels, _, inner⟩
  rw [Base64.decode_encode] at decoded
  obtain rfl := Option.some.inj decoded
  have shorter := peelLayer_shorter lawful authentic peels
  rw [length_latin1Bytes] at shorter
  have longer : text.length ≤ peeled.innerPayload.length := by
    rcases inner with inner | inner
    · rw [inner]
      exact length_le_ofString text
    · rw [inner]
      exact Nat.le_of_eq (length_latin1Bytes text).symm
  omega

theorem privacyRequest_sent {id : Nat} {method params : String}
    (valid : validateRpcMethod method = .ok ()) (latin1 : IsLatin1 params) :
    privacyRequest id method params =
      .ok ⟨Base64.encode (latin1Bytes (requestText id method params)), exitId⟩ :=
  bind_ok_iff.mpr ⟨_, valid, bind_ok_iff.mpr
    ⟨_, if_pos (requestText_isLatin1 (validateRpcMethod_allowed valid) latin1), rfl⟩⟩

/-- The request of every allowed method and all Latin-1 arguments is sent, and no entry node
accepts it. -/
theorem privacy_request_never_accepted (crypto : OnionCrypto) (lawful : crypto.Lawful)
    (authentic : crypto.Authentic) (router : OnionRouter) (id : Nat) (method params : String)
    (valid : validateRpcMethod method = .ok ()) (latin1 : IsLatin1 params) :
    ∃ request, privacyRequest id method params = .ok request ∧
      ¬ Accepts crypto router request (requestText id method params) :=
  ⟨_, privacyRequest_sent valid latin1, plain_layer_not_accepted lawful authentic router _ exitId⟩

theorem getSlot_valid : validateRpcMethod "getSlot" = .ok () := by
  simp only [validateRpcMethod, bind_ok_iff, require_ok_iff, exists_const]
  decide

theorem getSlot_never_accepted :
    ∃ request, privacyRequest 1700000000000 "getSlot" "[]" = .ok request ∧
      ¬ Accepts OnionRouter.pingCrypto (.new OnionRouter.pingCrypto OnionRouter.nodeSecret) request
        (requestText 1700000000000 "getSlot" "[]") :=
  privacy_request_never_accepted _ OnionRouter.pingCrypto_lawful OnionRouter.pingCrypto_authentic
    _ _ _ _ getSlot_valid (by decide)

/-- The two ends do not agree on a plain `getSlot`. -/
theorem privacy_request_not_accepted :
    ¬ ∀ (crypto : OnionCrypto), crypto.Lawful → crypto.Authentic →
      ∀ (key : Key) (id : Nat) (method params : String), validateRpcMethod method = .ok () →
        IsLatin1 params → ∃ request, privacyRequest id method params = .ok request ∧
          Accepts crypto (.new crypto key) request (requestText id method params) := by
  intro agree
  have lawful := OnionRouter.pingCrypto_lawful
  have authentic := OnionRouter.pingCrypto_authentic
  obtain ⟨request, sent, accepts⟩ := agree _ lawful authentic OnionRouter.nodeSecret 1700000000000
    "getSlot" "[]" getSlot_valid (by decide)
  rw [privacyRequest_sent getSlot_valid (by decide)] at sent
  obtain rfl := Except.ok.inj sent
  exact plain_layer_not_accepted lawful authentic _ _ _ accepts

end Solnet.Sdk
