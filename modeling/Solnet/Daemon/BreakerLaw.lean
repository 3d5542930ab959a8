import Solnet.Daemon.Verdicts

/-! When the circuit breaker is open, from the history of its calls, and what an open breaker
does to a request. -/
namespace Solnet.Daemon
open Fallible

/-- A call on the breaker with the clock reading it makes. -/
inductive BreakerCall where
  | recordFailure (now : Nat)
  | recordSuccess
  | isOpen (now : Nat)
  deriving DecidableEq, Repr

namespace BreakerCall

def apply (s : CircuitBreaker) : BreakerCall → CircuitBreaker
  | recordFailure now => s.recordFailure now
  | recordSuccess => s.recordSuccess
  | isOpen _ => s

def failedAt : BreakerCall → Option Nat
  | recordFailure now => some now
  | _ => none

end BreakerCall

namespace CircuitBreaker

/-- The breaker after calls that follow one another. -/
def after (calls : List BreakerCall) : CircuitBreaker := calls.foldl BreakerCall.apply .new

/-- The times of the failures since the last success, the latest one first. -/
def failuresSince (calls : List BreakerCall) : List Nat :=
  (calls.reverse.takeWhile fun call => call ≠ .recordSuccess).filterMap BreakerCall.failedAt

/-- Five failures or more since the last success, the latest of them less than 30 seconds ago. -/
def Trips (calls : List BreakerCall) (now : Nat) : Prop :=
  5 ≤ (failuresSince calls).length ∧
    ∃ latest, (failuresSince calls).head? = some latest ∧ now - latest < 30

variable {calls : List BreakerCall} {now : Nat}

theorem failuresSince_concat (calls : List BreakerCall) (call : BreakerCall) :
    failuresSince (calls ++ [call]) =
      match call with
      | .recordFailure now => now :: failuresSince calls
      | .recordSuccess => []
      | .isOpen _ => failuresSince calls := by
  unfold failuresSince
  rw [List.reverse_append, List.reverse_singleton, List.singleton_append, List.takeWhile_cons]
  cases call with
  | recordFailure now => rfl
  | recordSuccess => rfl
  | isOpen now => rfl

/-- The counter and the timestamp agree with the failures since the last success. -/
structure Tracks (s : CircuitBreaker) (times : List Nat) : Prop where
  failures : s.failures = times.length % 2 ^ 32
  lastFailure : ∀ latest, times.head? = some latest → s.lastFailure = latest
  threshold : s.threshold = 5
  recoverySecs : s.recoverySecs = 30

theorem after_tracks (calls : List BreakerCall) : Tracks (after calls) (failuresSince calls) := by
  induction calls using List.reverseRecOn with
  | nil => exact ⟨rfl, nofun, rfl, rfl⟩
  | append_singleton calls call ih =>
    obtain ⟨failures, lastFailure, threshold, recoverySecs⟩ := ih
    rw [after, List.foldl_append, failuresSince_concat]
    cases call with
    | recordFailure now =>
      refine ⟨?_, fun latest first => Option.some.inj first, threshold, recoverySecs⟩
      rw [List.length_cons, ← Nat.mod_add_mod, ← failures]
      rfl
    | recordSuccess => exact ⟨rfl, nofun, threshold, recoverySecs⟩
    | isOpen now => exact ⟨failures, lastFailure, threshold, recoverySecs⟩

theorem isOpen_iff_trips (few : (failuresSince calls).length < 2 ^ 32) :
    (after calls).isOpen now = true ↔ Trips calls now := by
  obtain ⟨failures, lastFailure, threshold, recoverySecs⟩ := after_tracks calls
  rw [Nat.mod_eq_of_lt few] at failures
  unfold isOpen Trips
  rw [failures, threshold, recoverySecs]
  cases times : failuresSince calls with
  | nil => simp
  | cons latest earlier =>
    rw [lastFailure latest (by rw [times]; rfl)]
    by_cases enough : 5 ≤ (latest :: earlier).length
    · rw [if_neg (Nat.not_lt.mpr enough), decide_eq_true_eq]
      constructor
      · intro soon
        exact ⟨enough, latest, rfl, soon⟩
      · rintro ⟨_, _, first, soon⟩
        obtain rfl := Option.some.inj first
        exact soon
    · rw [if_pos (Nat.not_le.mp enough)]
      exact iff_of_false Bool.noConfusion fun trips => enough trips.1

end CircuitBreaker

/-! A request that finds the breaker open. -/

variable {lib : Serde} {env : Env} {s : SharedState} {req : Request} {h : Handled}
  {bodyStr method : String} {params rpcReq : Value} {effects : List Effect}

theorem forwardUpstream_open (tripped : s.circuitBreaker.isOpen env.breakerSecs = true) :
    forwardUpstream lib env s bodyStr method params effects =
      .ok ⟨s, .of 503 .empty, .refused, effects⟩ := by
  rw [forwardUpstream, if_pos tripped]

theorem processRequest_open
    (ok : processRequest lib env s bodyStr method params rpcReq effects = .ok h)
    (tripped : s.circuitBreaker.isOpen env.breakerSecs = true) : h.effects = effects := by
  unfold processRequest at ok
  split at ok
  · obtain ⟨_, _, effects, _⟩ := interceptGetSlot_ok ok
    exact effects
  · cases forwardUpstream_steps ok with
    | refused _ => rfl
    | blocked closed _ _ => cases tripped.symm.trans closed
    | posts closed _ _ _ => cases tripped.symm.trans closed

theorem handleUncached_open (ok : handleUncached lib env s req bodyStr rpcReq = .ok h)
    (tripped : s.circuitBreaker.isOpen env.breakerSecs = true) : h.posted = false := by
  cases handleUncached_steps ok with
  | delivered found delivered => rfl
  | stays stays meshed processed =>
    rw [Handled.posted, processRequest_open processed tripped]
    refine List.any_eq_false.mpr fun effect member => ?_
    obtain ⟨endpoint, rfl⟩ := meshed effect member
    exact Bool.noConfusion

theorem rpcHandler_open (ok : rpcHandler lib env s req = .ok h)
    (tripped : s.circuitBreaker.isOpen env.breakerSecs = true) : h.posted = false := by
  cases rpcHandler_steps ok with
  | screened screening => rfl
  | unread screening unread => rfl
  | cached screening parsed lookup serves =>
    obtain ⟨_, _, effects, _⟩ := serveCached_ok serves
    rw [Handled.posted, effects]
    rfl
  | uncached screening parsed lookup handles => exact handleUncached_open handles tripped

/-- The breaker is open exactly while it is tripped, and a request that checks it then is not
posted upstream: neither a whole one that begins then, nor the rest of one from its check on. -/
theorem circuit_breaker_law {calls : List BreakerCall}
    (few : (CircuitBreaker.failuresSince calls).length < 2 ^ 32) :
    (∀ now, (CircuitBreaker.after calls).isOpen now = true ↔ CircuitBreaker.Trips calls now) ∧
    ∀ (lib : Serde) (env : Env) (s : SharedState),
      s.circuitBreaker = .after calls → CircuitBreaker.Trips calls env.breakerSecs →
        (∀ req h, rpcHandler lib env s req = .ok h → h.posted = false) ∧
        ∀ bodyStr method params effects,
          forwardUpstream lib env s bodyStr method params effects =
            .ok ⟨s, .of 503 .empty, .refused, effects⟩ := by
  refine ⟨fun now => CircuitBreaker.isOpen_iff_trips few, fun lib env s breaker trips => ?_⟩
  have tripped : s.circuitBreaker.isOpen env.breakerSecs = true := by
    rw [breaker]
    exact (CircuitBreaker.isOpen_iff_trips few).mpr trips
  exact ⟨fun req h ok => rpcHandler_open ok tripped, fun _ _ _ _ => forwardUpstream_open tripped⟩

def fiveFailures : List BreakerCall :=
  [.recordFailure 90, .recordSuccess, .recordFailure 100, .recordFailure 100, .isOpen 101,
    .recordFailure 102, .recordFailure 103, .recordFailure 110]

theorem fiveFailures_open : (CircuitBreaker.after fiveFailures).isOpen 139 = true ∧
    (CircuitBreaker.after fiveFailures).isOpen 140 = false := by
  have few : (CircuitBreaker.failuresSince fiveFailures).length < 2 ^ 32 := by decide
  obtain ⟨law, _⟩ := circuit_breaker_law few
  refine ⟨(law 139).mpr ⟨by decide, 110, rfl, by decide⟩, Bool.eq_false_iff.mpr fun opens => ?_⟩
  obtain ⟨_, latest, first, late⟩ := (law 140).mp opens
  obtain rfl : 110 = latest := Option.some.inj first
  omega

end Solnet.Daemon
