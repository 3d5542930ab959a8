import Solnet.Native.Ffi

/-! What the mobile relay earns. The counters wrap; the bytes of a request go upstream as they
are and are left out. -/
namespace Solnet.Native
open Runs Solnet.Daemon

inductive RelayResponse where
  | success (bytes : List UInt8)
  | error (message : String)
  deriving DecidableEq, Repr

/-- The client with its counters. -/
structure Relay where
  client : RelayClient.World
  requestsServed : Nat
  earningsLamports : Nat

namespace Relay

def new : Relay := ⟨.new, 0, 0⟩

/-- The loop that holds the receiver of the channel has not exited. -/
def sends (r : Relay) (i : Nat) : Bool :=
  match r.client.loops[i]? with
  | none | some .exited => false
  | some _ => true

/-- `response` is what comes back if the request is sent: nothing if it is dropped. -/
def forwardRpc (r : Relay) (response : Option RelayResponse) : Relay × Option (List UInt8) :=
  match r.client.relayRt, r.client.relayTx with
  | some _, some i =>
    if !r.client.relayRunning then (r, none)
    else
      match r.sends i, response with
      | true, some (.success bytes) =>
        ({ r with
          requestsServed := (r.requestsServed + 1) % 2 ^ 64
          earningsLamports := (r.earningsLamports + 100) % 2 ^ 64 }, some bytes)
      | _, _ => (r, none)
  | _, _ => (r, none)

/-- The request reaches a running loop and gets a response of success. -/
def serves (r : Relay) (response : Option RelayResponse) : Bool :=
  match r.client.relayRt, r.client.relayTx, response with
  | some _, some i, some (.success _) =>
    r.client.relayRunning && r.sends i
  | _, _, _ => false

end Relay

inductive RelayEvent where
  | start (config : RelayConfig) (now : Nat)
  | stop
  | proceed
  | loop (i : Nat) (event : LoopEvent)
  | forwardRpc (response : Option RelayResponse)

namespace Relay

def moveClient (r : Relay) (event : RelayClient.Event) : Option Relay :=
  (RelayClient.advance r.client event).map fun client => { r with client }

def advance (r : Relay) : RelayEvent → Option Relay
  -- the loop gets the configuration, but nothing reads its rate
  | .start _ now => r.moveClient (.start now)
  | .stop => r.moveClient .stop
  | .proceed => r.moveClient .proceed
  | .loop i event => r.moveClient (.loop i event)
  | .forwardRpc response => some (r.forwardRpc response).1

def answers (r : Relay) : RelayEvent → Nat
  | .forwardRpc response => if (r.forwardRpc response).2.isSome then 1 else 0
  | _ => 0

/-- The relay beside the number of requests that were answered with bytes. -/
def Counts : Relay × Nat → RelayEvent → Relay × Nat → Prop :=
  Traced (fun r event r' => r.advance event = some r') fun r event answered =>
    answered + r.answers event

/-- The counters are right at the rate of the configuration. -/
def Earned (config : RelayConfig) (x : Relay × Nat) : Prop :=
  x.1.earningsLamports = x.1.requestsServed * config.lamportsPerRequest ∧ x.1.requestsServed = x.2

/-- A request that is served earns 100 lamports at that rate, and they fit in the counter. -/
def PaysRate (config : RelayConfig) (x : Relay × Nat) : RelayEvent → Prop
  | .forwardRpc response => x.1.serves response = true →
    config.lamportsPerRequest = 100 ∧ x.1.earningsLamports + 100 < 2 ^ 64
  | _ => True

variable {r r' : Relay} {config : RelayConfig} {event : RelayEvent}
  {response : Option RelayResponse}

/-- A request is answered with bytes, and moves the counters, exactly when it is served. -/
theorem forwardRpc_serves (r : Relay) (response : Option RelayResponse) :
    (r.forwardRpc response).2.isSome = r.serves response ∧ (r.forwardRpc response).1 =
      if r.serves response then { r with
        requestsServed := (r.requestsServed + 1) % 2 ^ 64
        earningsLamports := (r.earningsLamports + 100) % 2 ^ 64 }
      else r := by
  unfold forwardRpc serves
  cases r.client.relayRt with
  | none => exact ⟨rfl, rfl⟩
  | some n =>
    cases r.client.relayTx with
    | none => exact ⟨rfl, rfl⟩
    | some i =>
      rcases response with _ | ⟨bytes | message⟩
      · simp
      · by_cases running : r.client.relayRunning = true <;> by_cases sent : r.sends i = true <;>
          simp [running, sent]
      · simp

theorem moveClient_counters {event : RelayClient.Event} (moves : r.moveClient event = some r') :
    r'.requestsServed = r.requestsServed ∧ r'.earningsLamports = r.earningsLamports := by
  obtain ⟨client, _, rfl⟩ := Option.map_eq_some_iff.mp moves
  exact ⟨rfl, rfl⟩

/-- Only a request that is served moves the counters. -/
theorem advance_counters (step : r.advance event = some r') :
    (∃ response, event = .forwardRpc response ∧ r.serves response = true ∧ r.answers event = 1 ∧
      r'.requestsServed = (r.requestsServed + 1) % 2 ^ 64 ∧
      r'.earningsLamports = (r.earningsLamports + 100) % 2 ^ 64) ∨
    (∀ response, event = .forwardRpc response → r.serves response = false) ∧
      r.answers event = 0 ∧ r'.requestsServed = r.requestsServed ∧
      r'.earningsLamports = r.earningsLamports := by
  cases event with
  | start config now => exact .inr ⟨nofun, rfl, moveClient_counters step⟩
  | stop => exact .inr ⟨nofun, rfl, moveClient_counters step⟩
  | proceed => exact .inr ⟨nofun, rfl, moveClient_counters step⟩
  | loop i event => exact .inr ⟨nofun, rfl, moveClient_counters step⟩
  | forwardRpc response =>
    obtain rfl := Option.some.inj step
    obtain ⟨answered, after⟩ := forwardRpc_serves r response
    rw [answers, answered, after]
    cases served : r.serves response with
    | true => exact .inl ⟨response, rfl, served, rfl, rfl, rfl⟩
    | false => exact .inr ⟨fun _ same => RelayEvent.forwardRpc.inj same ▸ served, rfl, rfl, rfl⟩

theorem counts_deterministic : Deterministic Counts :=
  (deterministic_of_option advance).traced

theorem advance_bounded (bounded : r.earningsLamports < 2 ^ 64)
    (step : r.advance event = some r') : r'.earningsLamports < 2 ^ 64 := by
  rcases advance_counters step with ⟨_, _, _, _, _, earned⟩ | ⟨_, _, _, same⟩
  · rw [earned]
    exact Nat.mod_lt _ (Nat.two_pow_pos 64)
  · rwa [same]

theorem earned_iff {answered : Nat} (bounded : r.earningsLamports < 2 ^ 64)
    (earned : Earned config (r, answered)) (step : r.advance event = some r') :
    Earned config (r', answered + r.answers event) ↔ PaysRate config (r, answered) event := by
  obtain ⟨rate, count⟩ := earned
  dsimp only at rate count
  rcases advance_counters step with ⟨response, rfl, serves, one, served, earns⟩ |
    ⟨refuses, none, served, same⟩
  · simp only [Earned, PaysRate, served, earns, one, serves, true_imp_iff]
    constructor
    · rintro ⟨next, counted⟩
      rw [counted, ← count, Nat.succ_mul, ← rate] at next
      omega
    · rintro ⟨hundred, fits⟩
      rw [hundred] at rate ⊢
      omega
  · have unpaid : PaysRate config (r, answered) event := by
      cases event with
      | forwardRpc response =>
        intro serves
        cases serves.symm.trans (refuses response rfl)
      | _ => trivial
    rw [iff_true_right unpaid]
    simp only [Earned, served, same, none]
    exact ⟨rate, count⟩

/-- The text that the app sends when nothing else is set, and what it says. -/
def configText : String :=
  "\x7b\"relay_url\":\"https://solnet-production.up.railway.app\"," ++
  "\"wallet_pubkey\":\"7xKXtg2CW87d97TXJSDpbD5jBkheTqA83TZRuJosgAsU\"," ++
  "\"node_name\":\"solnet-node\",\"max_concurrent\":32,\"lamports_per_request\":5," ++
  "\"version\":\"1.0.0\"\x7d"

def configValue : Value := .object [
  ("lamports_per_request", .number (.int 5)),
  ("max_concurrent", .number (.int 32)),
  ("node_name", .string "solnet-node"),
  ("relay_url", .string "https://solnet-production.up.railway.app"),
  ("version", .string "1.0.0"),
  ("wallet_pubkey", .string "7xKXtg2CW87d97TXJSDpbD5jBkheTqA83TZRuJosgAsU")]

def reader : Platform := { bare with
  fromStr := fun text => if text = configText then .ok configValue else .error "" }

def configOf (lamportsPerRequest : Nat) : RelayConfig :=
  ⟨"https://solnet-production.up.railway.app", "7xKXtg2CW87d97TXJSDpbD5jBkheTqA83TZRuJosgAsU",
    some "solnet-node", 8, lamportsPerRequest⟩

theorem configText_accepted : RelayConfig.fromJson reader configText = .ok (configOf 5) := by
  have parsed : reader.fromStr configText = .ok configValue := by
    simp [reader]
  rw [RelayConfig.fromJson, parsed]
  rfl

/-- The counters are right all along a run of a relay with this configuration exactly when its
rate is 100 or no request is served, and the earnings do not wrap. -/
theorem earnings_match_iff (config : RelayConfig) {now answered : Nat} {events : List RelayEvent}
    (run : Run Counts (.new, 0) (.start config now :: events) (r, answered)) :
    Always Counts (Earned config) (.new, 0) (.start config now :: events) ↔
      Run (Guarded Counts (PaysRate config)) (.new, 0) (.start config now :: events)
        (r, answered) := by
  apply always_iff_guarded (I := fun x => x.1.earningsLamports < 2 ^ 64) counts_deterministic _ _
    run (Nat.two_pow_pos 64)
  · exact ⟨(Nat.zero_mul _).symm, rfl⟩
  · rintro ⟨r, answered⟩ event ⟨r', _⟩ bounded ⟨step, rfl⟩
    exact advance_bounded bounded step
  · rintro ⟨r, answered⟩ event ⟨r', _⟩ bounded earned ⟨step, rfl⟩
    exact earned_iff bounded earned step

/-- One request, served when the relay is up. -/
def oneServed (config : RelayConfig) : List RelayEvent :=
  [.start config 1700000000, .proceed, .proceed, .proceed, .loop 0 (.build true),
    .loop 0 .check, .forwardRpc (some (.success []))]

theorem earnings_match_default :
    Always Counts (Earned (configOf 100)) (.new, 0) (oneServed (configOf 100)) := by
  have run : ∃ r answered, Run (Guarded Counts (PaysRate (configOf 100))) (.new, 0)
      (oneServed (configOf 100)) (r, answered) :=
    ⟨_, _, .cons ⟨traced_of rfl 0, trivial⟩ (.cons ⟨traced_of rfl _, trivial⟩
      (.cons ⟨traced_of rfl _, trivial⟩ (.cons ⟨traced_of rfl _, trivial⟩
        (.cons ⟨traced_of rfl _, trivial⟩ (.cons ⟨traced_of rfl _, trivial⟩
          (.cons ⟨traced_of rfl _, fun _ => ⟨rfl, by decide⟩⟩ (.nil _)))))))⟩
  obtain ⟨r, answered, run⟩ := run
  exact (earnings_match_iff (configOf 100) run.unguarded).mpr run

/-- The app asks for 5 lamports a request, and the counter gets 100. -/
theorem earnings_ignore_rate :
    ¬ ∀ (lib : Platform) (json : String) (config : RelayConfig) (now : Nat)
      (events : List RelayEvent) (r : Relay) (answered : Nat),
      RelayConfig.fromJson lib json = .ok config →
      Run Counts (.new, 0) (.start config now :: events) (r, answered) →
      Always Counts (Earned config) (.new, 0) (.start config now :: events) := by
  intro earned
  have run : ∃ r answered, Run Counts (.new, 0) (oneServed (configOf 5)) (r, answered) ∧
      r.earningsLamports = 100 ∧ r.requestsServed = 1 :=
    ⟨_, _, .cons (traced_of rfl 0) (.cons (traced_of rfl _) (.cons (traced_of rfl _)
      (.cons (traced_of rfl _) (.cons (traced_of rfl _) (.cons (traced_of rfl _)
        (.cons (traced_of rfl _) (.nil _))))))), rfl, rfl⟩
  obtain ⟨r, answered, run, earnings, served⟩ := run
  obtain ⟨rate, _⟩ := earned reader configText (configOf 5) _ _ r answered configText_accepted run
    _ _ (List.prefix_refl _) run
  dsimp only at rate
  rw [earnings, served] at rate
  exact absurd rate (by decide)

end Relay

end Solnet.Native
