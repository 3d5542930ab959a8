import Mathlib.Data.List.Flatten
import Solnet.Daemon.Replies
import Solnet.Lib.Runs

/-! The daemon that `main` starts: requests, one after another, and between them the rounds
of the tasks that clean the limiter, evict the caches and fetch the slot. -/
namespace Solnet.Daemon
open Runs Fallible

structure SlotCache where
  currentSlot : Nat
  deriving DecidableEq, Repr

def SlotCache.new : SlotCache := ⟨0⟩

/-- `as_u64`. -/
def Value.asU64 : Value → Option Nat
  | .number (.int n) => if 0 ≤ n ∧ n < 2 ^ 64 then some n.toNat else none
  | _ => none

/-- The slot task with what its post is answered, if that is JSON. -/
def SlotCache.refresh (s : SlotCache) (reply : Option Value) : SlotCache :=
  match reply.bind fun json => (json.index "result").asU64 with
  | some slot => ⟨slot⟩
  | none => s

structure Process where
  shared : SharedState
  slotCache : SlotCache

/-- A request with what its handling reads from outside, and the rounds of the tasks. The slot
that a request reads is that of the cache. -/
inductive ProcessCall where
  | request (env : Env) (req : Request)
  | cleanup (now : Nat)
  | evictExpired (now : Nat)
  | slotReply (reply : Option Value)

/-- What others see of the handling of a request. -/
structure ProcessAnswer where
  response : Response
  origin : Origin
  effects : List Effect

def Handled.answer (h : Handled) : ProcessAnswer := ⟨h.response, h.origin, h.effects⟩

structure ProcessEvent where
  call : ProcessCall
  answer : Option ProcessAnswer

namespace ProcessCall

/-- The readings of the system clock, in seconds. -/
def readings : ProcessCall → List Nat
  | .request env _ => [env.banCheckSecs, env.rateSecs, env.banSecs, env.breakerSecs,
      env.failureSecs]
  | .cleanup now => [now]
  | _ => []

/-- The readings of the monotonic clock, in nanoseconds. -/
def instants : ProcessCall → List Nat
  | .request env _ => [env.cacheInstant, env.storeInstant]
  | .evictExpired now => [now]
  | _ => []

def isHousekeeping : ProcessCall → Bool
  | .cleanup _ => true
  | .evictExpired _ => true
  | _ => false

/-- Neither clock goes back. -/
structure InOrder (calls : List ProcessCall) : Prop where
  readings : (calls.flatMap readings).Pairwise (· ≤ ·)
  instants : (calls.flatMap instants).Pairwise (· ≤ ·)

end ProcessCall

namespace Process

def start (config : Config) (walletTracker : Option WalletRewardTracker) (batteryMode : Bool) :
    Process :=
  ⟨.new config walletTracker batteryMode, .new⟩

def perform (lib : Serde) (p : Process) : ProcessCall → Checked (Process × Option ProcessAnswer)
  | .request env req => do
    let h ← rpcHandler lib { env with currentSlot := p.slotCache.currentSlot } p.shared req
    return ({ p with shared := h.state }, some h.answer)
  | .cleanup now => do
    let prevention ← p.shared.attackPrevention.cleanup now
    return ({ p with shared := { p.shared with attackPrevention := prevention } }, none)
  | .evictExpired now => do
    let engine ← p.shared.latencyEngine.evictExpired now
    return ({ p with shared := { p.shared with latencyEngine := engine } }, none)
  | .slotReply reply => .ok ({ p with slotCache := p.slotCache.refresh reply }, none)

def Performs (lib : Serde) (p : Process) (event : ProcessEvent) (p' : Process) : Prop :=
  p.perform lib event.call = .ok (p', event.answer)

/-- The events of the calls, up to a halt. -/
def observe (lib : Serde) : Process → List ProcessCall → List ProcessEvent
  | _, [] => []
  | p, call :: calls =>
    match p.perform lib call with
    | .ok (p, answer) => ⟨call, answer⟩ :: observe lib p calls
    | .error _ => []

/-- The answers to the requests among the calls, unless the daemon halts. -/
def serve (lib : Serde) : Process → List ProcessCall → Checked (Process × List ProcessAnswer)
  | p, [] => .ok (p, [])
  | p, call :: calls => do
    let (p, answer) ← p.perform lib call
    let (p, answers) ← serve lib p calls
    return (p, answer.toList ++ answers)

def answers (lib : Serde) (p : Process) (calls : List ProcessCall) :
    Checked (List ProcessAnswer) :=
  (p.serve lib calls).map Prod.snd

/-- What each call does. -/
inductive Took (lib : Serde) (p : Process) : ProcessEvent → Process → Prop where
  | request {env : Env} {req : Request} {h : Handled}
      (handled : rpcHandler lib { env with currentSlot := p.slotCache.currentSlot } p.shared req =
        .ok h) : Took lib p ⟨.request env req, some h.answer⟩ { p with shared := h.state }
  | cleanup {now : Nat} {prevention : AttackPrevention}
      (cleaned : p.shared.attackPrevention.cleanup now = .ok prevention) :
      Took lib p ⟨.cleanup now, none⟩
        { p with shared := { p.shared with attackPrevention := prevention } }
  | evictExpired {now : Nat} {engine : LatencyEngine}
      (evicted : p.shared.latencyEngine.evictExpired now = .ok engine) :
      Took lib p ⟨.evictExpired now, none⟩
        { p with shared := { p.shared with latencyEngine := engine } }
  | slotReply {reply : Option Value} :
      Took lib p ⟨.slotReply reply, none⟩ { p with slotCache := p.slotCache.refresh reply }

theorem Performs.took {lib : Serde} {p p' : Process} {event : ProcessEvent}
    (step : p.Performs lib event p') : p.Took lib event p' := by
  obtain ⟨call, answer⟩ := event
  unfold Performs at step
  cases call with
  | request env req =>
    obtain ⟨h, handled, same⟩ := bind_ok_iff.mp step
    obtain ⟨rfl, rfl⟩ := Prod.mk.inj (Except.ok.inj same)
    exact .request handled
  | cleanup now =>
    obtain ⟨prevention, cleaned, same⟩ := bind_ok_iff.mp step
    obtain ⟨rfl, rfl⟩ := Prod.mk.inj (Except.ok.inj same)
    exact .cleanup cleaned
  | evictExpired now =>
    obtain ⟨engine, evicted, same⟩ := bind_ok_iff.mp step
    obtain ⟨rfl, rfl⟩ := Prod.mk.inj (Except.ok.inj same)
    exact .evictExpired evicted
  | slotReply reply =>
    obtain ⟨rfl, rfl⟩ := Prod.mk.inj (Except.ok.inj step)
    exact .slotReply

theorem observe_run (lib : Serde) (p : Process) (calls : List ProcessCall) :
    (∃ p', Run (Performs lib) p (p.observe lib calls) p') ∧
      (p.observe lib calls).map ProcessEvent.call <+: calls := by
  induction calls generalizing p with
  | nil => exact ⟨⟨p, .nil p⟩, List.nil_prefix⟩
  | cons call calls ih =>
    unfold observe
    split
    · rename_i p' answer performed
      obtain ⟨⟨u, run⟩, sub⟩ := ih p'
      exact ⟨⟨u, .cons performed run⟩, (List.prefix_cons_inj call).mpr sub⟩
    · exact ⟨⟨p, .nil p⟩, List.nil_prefix⟩

theorem observe_request {lib : Serde} {p : Process} {env : Env} {req : Request} {h : Handled}
    (handled : rpcHandler lib { env with currentSlot := p.slotCache.currentSlot } p.shared req =
      .ok h) (calls : List ProcessCall) : p.observe lib (.request env req :: calls) =
      ⟨.request env req, some h.answer⟩ ::
        Process.observe lib { p with shared := h.state } calls := by
  have performed : p.perform lib (.request env req) =
      .ok ({ p with shared := h.state }, some h.answer) :=
    bind_ok_iff.mpr ⟨h, handled, rfl⟩
  rw [observe, performed]

theorem observed_sublist {α : Type} (lib : Serde) (p : Process) (calls : List ProcessCall)
    (reads : ProcessCall → List α) :
    (((p.observe lib calls).map ProcessEvent.call).flatMap reads).Sublist
      (calls.flatMap reads) :=
  (observe_run lib p calls).2.sublist.flatMap reads

/-- A reading of the first call or the last one before it comes before those of the others. -/
theorem readings_after {clock later : Nat} {call : ProcessCall} {calls : List ProcessCall}
    (read : later ∈ clock :: call.readings)
    (ordered : (clock :: (call :: calls).flatMap ProcessCall.readings).Pairwise (· ≤ ·)) :
    (later :: calls.flatMap ProcessCall.readings).Pairwise (· ≤ ·) := by
  rw [List.flatMap_cons, ← List.cons_append] at ordered
  exact ordered.sublist ((List.singleton_sublist.mpr read).append (List.Sublist.refl _))

/-! A daemon on the devnet, and a request for a balance. -/

def devnetConfig : Config :=
  ⟨"https://api.devnet.solana.com", 8080, .general, .asiaSouth, 100, "production", ""⟩

def balanceAt (secs : Nat) : ProcessCall :=
  .request { envAt (secs * 10 ^ 9) (.unreachable "") .sendError with
      banCheckSecs := secs, rateSecs := secs, banSecs := secs, breakerSecs := secs,
      failureSecs := secs }
    ⟨none, some "10.0.0.1", (balanceBody "1").toUTF8⟩

end Process

end Solnet.Daemon
