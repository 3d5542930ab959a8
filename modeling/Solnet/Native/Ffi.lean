import Mathlib.Algebra.Ring.Int.Defs
import Solnet.Daemon.Json
import Solnet.Lib.Bytes
import Solnet.Lib.Hex
import Solnet.Native.P2pNode

/-! The C API of the native core. Logs, the strings handed to the caller to free, and the
calls without a token are left out. JSON, Ed25519 and multiaddresses come from outside. -/
namespace Solnet.Native
open Runs Bytes Solnet.Daemon

structure Platform where
  fromStr : String → Except String Value
  verifyingKey : Block 32 → Block 32
  sign : Block 32 → List UInt8 → Block 64
  isMultiaddr : String → Bool

/-- A token as the caller passes it: null, or a pointer to at least `len` bytes. -/
structure Token where
  buffer : Option (List UInt8)
  len : Nat
  readable : ∀ bytes ∈ buffer, len ≤ bytes.length

/-- The token as an array: none if it is null or not 32 bytes long. -/
def Token.arr (token : Token) : Option (Block 32) :=
  match given : token.buffer with
  | none => none
  | some buffer =>
    if full : token.len = 32 then
      some ⟨buffer.take token.len, by
        have readable := token.readable buffer given
        rw [List.length_take]
        omega⟩
    else none

inductive ThrottleState where
  | fullPower
  | conserve
  | standby
  deriving DecidableEq, Repr

def ThrottleState.fromU8 : Nat → ThrottleState
  | 0 => .fullPower
  | 1 => .conserve
  | _ => .standby

structure MobileGovernor where
  state : ThrottleState
  deriving DecidableEq, Repr

def MobileGovernor.new : MobileGovernor := ⟨.standby⟩

def MobileGovernor.setState (_ : MobileGovernor) (newState : ThrottleState) : MobileGovernor :=
  ⟨newState⟩

structure RelayConfig where
  relayUrl : String
  walletPubkey : String
  nodeName : Option String
  maxConcurrent : Nat
  lamportsPerRequest : Nat

def asU64 : Value → Option Nat
  | .number (.int n) => if 0 ≤ n ∧ n < 2 ^ 64 then some n.toNat else none
  | _ => none

def RelayConfig.fromJson (lib : Platform) (json : String) : Except String RelayConfig :=
  match lib.fromStr json with
  | .error e => .error ("JSON error: " ++ e)
  | .ok v =>
    match (v.index "relay_url").asStr.or (v.index "rpc_url").asStr with
    | none => .error "relay_url required"
    | some relayUrl =>
      if ¬ "https://".toList <+: relayUrl.toList then .error "relay_url must use HTTPS"
      else
        match (v.index "wallet_pubkey").asStr with
        | none => .error "wallet_pubkey required"
        | some walletPubkey =>
          if walletPubkey.utf8ByteSize < 32 ∨ 44 < walletPubkey.utf8ByteSize then
            .error "wallet_pubkey invalid length"
          else .ok {
            relayUrl
            walletPubkey
            nodeName := (v.index "node_name").asStr
            maxConcurrent := ((asU64 (v.index "max_concurrent")).map (min · 8)).getD 4
            lamportsPerRequest := (asU64 (v.index "lamports_per_request")).getD 100 }

/-- The statics of the process. -/
structure Process where
  governorToken : Option (Block 32)
  governorState : Nat
  governor : Option MobileGovernor
  globalGovernorState : Nat
  relay : RelayClient.World
  p2p : P2pNode

def Process.new : Process := ⟨none, 2, none, 2, .new, .new⟩

/-- A null pointer is no text, and so are bytes that are not UTF-8. -/
def cStr (pointer : Option (List UInt8)) : Option String :=
  pointer.bind fun bytes => String.fromUTF8? ⟨bytes.toArray⟩

def checkAuth (governorToken : Option (Block 32)) (token : Token) : Bool :=
  match token.buffer with
  | none => false
  | some buffer =>
    if token.len ≠ 32 then false
    else
      match governorToken with
      | none => false
      | some expected =>
        let provided := buffer.take token.len
        diff provided expected.bytes = 0

inductive Result where
  | bool (value : Bool)
  | text (value : Option String)
  deriving DecidableEq, Repr

/-- The refusals: false, or a null pointer. -/
def Result.refused : Result → Bool
  | .bool value => !value
  | .text value => value.isNone

/-- The pointers of a call are null or C strings. What it draws or reads from outside comes
with it: a seed, the id of a new key pair, the time. -/
inductive Call where
  | initGovernor (token : Token)
  | setThrottleState (state : UInt8) (token : Token)
  | startRelay (configJson : Option (List UInt8)) (now : Nat) (token : Token)
  | stopRelay (token : Token)
  | initP2pNode (enableMdns : Bool) (localPeerId : String) (token : Token)
  | connectPeer (multiaddr : Option (List UInt8)) (token : Token)
  | generateKeypair (seed : Block 32) (token : Token)
  | signTransaction (secretKeyHex message : Option (List UInt8)) (token : Token)

/-- The points of a start, one after the other; the loops run between the calls. -/
def finishStart : Nat → RelayClient.World → RelayClient.World
  | 0, w => w
  | n + 1, w =>
    match w.call with
    | none => w
    | some (i, point) => finishStart n (w.proceed i point)

def started : Option Reply → Bool
  | some (.start (.ok _)) => true
  | _ => false

namespace Process

def initGovernor (p : Process) (token : Token) : Process × Bool :=
  match token.arr with
  | none => (p, false)
  | some arr =>
    match setOnce p.governorToken arr with
    | .ok governorToken => ({ p with governorToken := governorToken }, true)
    | .error _ => (p, false)

def setThrottleState (p : Process) (state : UInt8) (token : Token) : Process × Bool :=
  if !checkAuth p.governorToken token then (p, false)
  else
    let clamped := min state.toNat 2
    let governor := (p.governor.getD .new).setState (.fromU8 clamped)
    ({ p with governorState := clamped, governor := some governor, globalGovernorState := clamped },
      true)

def startRelay (lib : Platform) (p : Process) (configJson : Option (List UInt8)) (now : Nat)
    (token : Token) : Process × Bool :=
  if !checkAuth p.governorToken token then (p, false)
  else
    match cStr configJson with
    | none => (p, false)
    | some json =>
      match RelayConfig.fromJson lib json with
      | .error _ => (p, false)
      | .ok _ =>
        let relay := finishStart 3 (p.relay.start now)
        ({ p with relay := relay }, started relay.returned)

def stopRelay (p : Process) (token : Token) : Process × Bool :=
  if !checkAuth p.governorToken token then (p, false)
  else ({ p with relay := p.relay.stop }, true)

def initP2pNode (p : Process) (localPeerId : String) (token : Token) :
    Process × Option String :=
  if !checkAuth p.governorToken token then (p, none)
  else
    match p.p2p.initNode p.relay.relayRt localPeerId with
    | (p2p, .ok peerId) => ({ p with p2p := p2p },
      some ("\x7b\"peer_id\":\"" ++ peerId ++ "\",\"status\":\"running\"\x7d"))
    | (p2p, .error e) => ({ p with p2p := p2p },
      some ("\x7b\"message\":\"" ++ e ++ "\",\"status\":\"error\"\x7d"))

def connectPeer (lib : Platform) (p : Process) (multiaddr : Option (List UInt8)) (token : Token) :
    Process × Bool :=
  if !checkAuth p.governorToken token || multiaddr.isNone then (p, false)
  else
    let (p2p, sent) := p.p2p.dialPeer lib.isMultiaddr ((cStr multiaddr).getD "")
    ({ p with p2p := p2p }, sent)

def generateKeypair (lib : Platform) (p : Process) (seed : Block 32) (token : Token) :
    Option String :=
  if !checkAuth p.governorToken token then none
  else some ("\x7b\"publicKey\":\"" ++ Hex.encode (lib.verifyingKey seed).bytes ++
    "\",\"secretKey\":\"" ++ Hex.encode seed.bytes ++ "\"\x7d")

def signTransaction (lib : Platform) (p : Process) (secretKeyHex message : Option (List UInt8))
    (token : Token) : Option String :=
  if !checkAuth p.governorToken token then none
  else do
    let secretStr ← cStr secretKeyHex
    let msg ← cStr message
    let secretBytes ← Hex.decode secretStr
    if full : secretBytes.length = 32 then
      some (Hex.encode (lib.sign ⟨secretBytes, full⟩ (ofString msg)).bytes)
    else none

def perform (lib : Platform) (p : Process) : Call → Process × Result
  | .initGovernor token => (p.initGovernor token).map id .bool
  | .setThrottleState state token => (p.setThrottleState state token).map id .bool
  | .startRelay configJson now token => (p.startRelay lib configJson now token).map id .bool
  | .stopRelay token => (p.stopRelay token).map id .bool
  | .initP2pNode _ localPeerId token => (p.initP2pNode localPeerId token).map id .text
  | .connectPeer multiaddr token => (p.connectPeer lib multiaddr token).map id .bool
  | .generateKeypair seed token => (p, .text (p.generateKeypair lib seed token))
  | .signTransaction secretKeyHex message token =>
    (p, .text (p.signTransaction lib secretKeyHex message token))

end Process

/-- The token that guards a call. -/
def Call.guard : Call → Option Token
  | .initGovernor _ => none
  | .setThrottleState _ token => some token
  | .startRelay _ _ token => some token
  | .stopRelay token => some token
  | .initP2pNode _ _ token => some token
  | .connectPeer _ token => some token
  | .generateKeypair _ token => some token
  | .signTransaction _ _ token => some token

/-- The calls with their results, and what the relay loops and the swarms do in between. -/
inductive Event where
  | call (call : Call) (result : Result)
  | relayLoop (i : Nat) (event : LoopEvent)
  | swarm (i : Nat) (event : SwarmEvent)

def Step (lib : Platform) (p : Process) (event : Event) (p' : Process) : Prop :=
  match event with
  | .call call result => p.perform lib call = (p', result)
  | .relayLoop i event =>
    ∃ relay, RelayClient.advance p.relay (.loop i event) = some relay ∧ { p with relay } = p'
  | .swarm i event => ∃ p2p, p.p2p.run i event = some p2p ∧ { p with p2p } = p'

def Event.initialises : Event → Option (Block 32)
  | .call (.initGovernor token) (.bool true) => token.arr
  | _ => none

/-- The token of the first initialisation that succeeded. -/
def firstToken (events : List Event) : Option (Block 32) := events.findSome? Event.initialises

variable {lib : Platform} {p p' : Process} {token : Token} {call : Call} {result : Result}

theorem checkAuth_iff {governorToken : Option (Block 32)} :
    checkAuth governorToken token = true ↔
      ∃ arr, governorToken = some arr ∧ token.arr = some arr := by
  obtain ⟨buffer, len, readable⟩ := token
  cases buffer with
  | none => simp [checkAuth, Token.arr]
  | some buffer =>
    by_cases full : len = 32
    · subst full
      have length : (buffer.take 32).length = 32 := by
        have enough := readable buffer rfl
        rw [List.length_take]
        omega
      cases governorToken with
      | none => simp [checkAuth]
      | some expected =>
        have compared := diff_eq_zero_iff (length.trans expected.full.symm)
        simp only [checkAuth, Token.arr, ne_eq, not_true_eq_false, if_false, dif_pos,
          decide_eq_true_eq, compared, Option.some.injEq, exists_eq_left']
        constructor
        · intro same
          exact Block.eq same
        · intro same
          exact congrArg Block.bytes same
    · simp [checkAuth, Token.arr, full]

theorem perform_refused (guarded : call.guard = some token)
    (unauthorised : checkAuth p.governorToken token = false) :
    ∃ result, p.perform lib call = (p, result) ∧ result.refused = true := by
  cases call with
  | initGovernor token => cases guarded
  | setThrottleState state token =>
    obtain rfl := Option.some.inj guarded
    exact ⟨.bool false, by simp [Process.perform, Process.setThrottleState, unauthorised], rfl⟩
  | startRelay configJson now token =>
    obtain rfl := Option.some.inj guarded
    exact ⟨.bool false, by simp [Process.perform, Process.startRelay, unauthorised], rfl⟩
  | stopRelay token =>
    obtain rfl := Option.some.inj guarded
    exact ⟨.bool false, by simp [Process.perform, Process.stopRelay, unauthorised], rfl⟩
  | initP2pNode enableMdns localPeerId token =>
    obtain rfl := Option.some.inj guarded
    exact ⟨.text none, by simp [Process.perform, Process.initP2pNode, unauthorised], rfl⟩
  | connectPeer multiaddr token =>
    obtain rfl := Option.some.inj guarded
    exact ⟨.bool false, by simp [Process.perform, Process.connectPeer, unauthorised], rfl⟩
  | generateKeypair seed token =>
    obtain rfl := Option.some.inj guarded
    exact ⟨.text none, by simp [Process.perform, Process.generateKeypair, unauthorised], rfl⟩
  | signTransaction secretKeyHex message token =>
    obtain rfl := Option.some.inj guarded
    exact ⟨.text none, by simp [Process.perform, Process.signTransaction, unauthorised], rfl⟩

/-- No guarded call touches the token. -/
theorem perform_governorToken (guarded : call.guard = some token) :
    (p.perform lib call).1.governorToken = p.governorToken := by
  cases call with
  | initGovernor token => cases guarded
  | setThrottleState state token =>
    simp only [Process.perform, Process.setThrottleState, Prod.map_fst, id_eq]
    split <;> rfl
  | startRelay configJson now token =>
    simp only [Process.perform, Process.startRelay, Prod.map_fst, id_eq]
    split
    · rfl
    · split
      · rfl
      · split <;> rfl
  | stopRelay token =>
    simp only [Process.perform, Process.stopRelay, Prod.map_fst, id_eq]
    split <;> rfl
  | initP2pNode enableMdns localPeerId token =>
    simp only [Process.perform, Process.initP2pNode, Prod.map_fst, id_eq]
    split
    · rfl
    · split <;> rfl
  | connectPeer multiaddr token =>
    simp only [Process.perform, Process.connectPeer, Prod.map_fst, id_eq]
    split <;> rfl
  | generateKeypair seed token => rfl
  | signTransaction secretKeyHex message token => rfl

theorem initGovernor_taken {arr : Block 32} (taken : p.governorToken = some arr) :
    p.initGovernor token = (p, false) := by
  unfold Process.initGovernor
  split
  · rfl
  · rw [taken]
    rfl

theorem initGovernor_free (free : p.governorToken = none) :
    p.initGovernor token = ({ p with governorToken := token.arr }, token.arr.isSome) := by
  unfold Process.initGovernor
  split
  · rename_i invalid
    rw [invalid]
    simp only [Option.isSome_none, Prod.mk.injEq, and_true]
    exact free ▸ rfl
  · rename_i arr valid
    rw [valid, free]
    rfl

/-- The cell holds the token of the first initialisation that succeeded. -/
theorem step_firstToken (done : List Event) (p : Process) (event : Event) (p' : Process)
    (stored : p.governorToken = firstToken done) (step : Step lib p event p') :
    p'.governorToken = firstToken (done ++ [event]) := by
  rw [firstToken, List.findSome?_append, List.findSome?_singleton, ← firstToken, ← stored]
  cases event with
  | call call result =>
    cases guarded : call.guard with
    | some token =>
      have kept : p'.governorToken = p.governorToken := by
        have same : (p.perform lib call).1.governorToken = p.governorToken :=
          perform_governorToken guarded
        have performed : p.perform lib call = (p', result) := step
        rw [← same, performed]
      have idle : (Event.call call result).initialises = none := by
        cases call with
        | initGovernor token => cases guarded
        | _ => rfl
      rw [kept, idle, Option.or_none]
    | none =>
      cases call with
      | initGovernor token =>
        cases taken : p.governorToken with
        | some arr =>
          simp only [Step, Process.perform, initGovernor_taken taken, Prod.map_apply, id_eq,
            Prod.mk.injEq] at step
          rw [← step.1, taken]
          rfl
        | none =>
          simp only [Step, Process.perform, initGovernor_free taken, Prod.map_apply, id_eq,
            Prod.mk.injEq] at step
          obtain ⟨rfl, rfl⟩ := step
          cases valid : token.arr with
          | none => rfl
          | some arr => exact valid.symm
      | _ => cases guarded
  | relayLoop i event =>
    obtain ⟨relay, _, rfl⟩ := step
    exact (Option.or_none).symm
  | swarm i event =>
    obtain ⟨p2p, _, rfl⟩ := step
    exact (Option.or_none).symm

/-- A guarded call changes the process, or hands out a key or a signature, only with the token
of the first initialisation that succeeded, and an initialisation stores a token at most. -/
theorem calls_are_authorised (lib : Platform) (done : List Event) (p : Process)
    (run : Run (Step lib) .new done p) (call : Call) (result : Result) (p' : Process)
    (step : Step lib p (.call call result) p') :
    (∀ token, call.guard = some token → p' ≠ p ∨ result.refused = false →
      ∃ arr, token.arr = some arr ∧ firstToken done = some arr) ∧
    (firstToken done = none → ∀ token, call.guard = some token →
      p' = p ∧ result.refused = true) ∧
    (∀ token, call = .initGovernor token → p' = { p with governorToken := p'.governorToken }) ∧
    ∀ arr, firstToken done = some arr → ∀ token, call = .initGovernor token →
      p' = p ∧ result = .bool false := by
  have start : Process.new.governorToken = firstToken [] := rfl
  have stored : p.governorToken = firstToken done := run.history step_firstToken start
  have performed : p.perform lib call = (p', result) := step
  have refuses (token : Token) (guarded : call.guard = some token)
      (unauthorised : checkAuth p.governorToken token = false) :
      p' = p ∧ result.refused = true := by
    obtain ⟨refusal, refused, isRefusal⟩ :
        ∃ refusal, p.perform lib call = (p, refusal) ∧ refusal.refused = true :=
      perform_refused guarded unauthorised
    obtain ⟨rfl, rfl⟩ := Prod.mk.inj (performed.symm.trans refused)
    exact ⟨rfl, isRefusal⟩
  refine ⟨?_, ?_, ?_, ?_⟩
  · intro token guarded acts
    cases authorised : checkAuth p.governorToken token with
    | true =>
      obtain ⟨arr, expected, provided⟩ := checkAuth_iff.mp authorised
      exact ⟨arr, provided, stored.symm.trans expected⟩
    | false =>
      obtain ⟨same, refused⟩ := refuses token guarded authorised
      rcases acts with changed | produced
      · exact absurd same changed
      · cases refused.symm.trans produced
  · intro never token guarded
    refine refuses token guarded (Bool.eq_false_iff.mpr fun authorised => ?_)
    obtain ⟨arr, expected, _⟩ := checkAuth_iff.mp authorised
    cases never.symm.trans (stored.symm.trans expected)
  · rintro token rfl
    cases taken : p.governorToken with
    | some arr =>
      simp only [Process.perform, initGovernor_taken taken, Prod.map_apply, id_eq,
        Prod.mk.injEq] at performed
      rw [← performed.1]
    | none =>
      simp only [Process.perform, initGovernor_free taken, Prod.map_apply, id_eq,
        Prod.mk.injEq] at performed
      rw [← performed.1]
  · rintro arr first token rfl
    simp only [Process.perform, initGovernor_taken (stored.trans first), Prod.map_apply, id_eq,
      Prod.mk.injEq] at performed
    exact ⟨performed.1.symm, performed.2.symm⟩

/-! A throttle state that is set with the token of the first initialisation. -/

def session : Token := ⟨some (List.replicate 32 7), 32, by simp⟩

def bare : Platform := ⟨fun _ => .error "", id, fun _ _ => .zero 64, fun _ => false⟩

def initialised : Process := { Process.new with governorToken := session.arr }

theorem throttle_is_authorised :
    ∃ p', Run (Step bare) .new [.call (.initGovernor session) (.bool true)] initialised ∧
      Step bare initialised (.call (.setThrottleState 0 session) (.bool true)) p' ∧
      ∃ arr, session.arr = some arr ∧
        firstToken [.call (.initGovernor session) (.bool true)] = some arr := by
  have first : Run (Step bare) .new [.call (.initGovernor session) (.bool true)] initialised :=
    .cons rfl (.nil _)
  have second : Step bare initialised (.call (.setThrottleState 0 session) (.bool true))
      (initialised.setThrottleState 0 session).1 := rfl
  exact ⟨_, first, second, (calls_are_authorised bare _ _ first _ _ _ second).1 session rfl
    (.inr rfl)⟩

end Solnet.Native
