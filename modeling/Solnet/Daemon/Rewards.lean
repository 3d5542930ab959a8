import Mathlib.Data.Multiset.AddSub
import Solnet.Daemon.Upstream
import Solnet.Lib.Runs

/-! Rewards under concurrent calls. A request is counted before its reward is added under the
lock of the pending rewards, and a settlement holds that lock while it waits for the lock of
the lifetime earnings. -/
namespace Solnet.Daemon
open Runs Fallible

namespace WalletRewardTracker

def countRequest (s : WalletRewardTracker) : WalletRewardTracker :=
  { s with sessionRequests := (s.sessionRequests + 1) % 2 ^ 64 }

def addReward (s : WalletRewardTracker) : Checked WalletRewardTracker := do
  let pending ← checkedAdd 64 s.pendingLamports 100
  return { s with pendingLamports := pending }

def recordSettlement (s : WalletRewardTracker) : Checked WalletRewardTracker := do
  let lifetime ← checkedAdd 64 s.lifetimeEarnings s.pendingLamports
  return { s with lifetimeEarnings := lifetime, pendingLamports := 0 }

theorem recordRequest_eq (s : WalletRewardTracker) : s.recordRequest = s.countRequest.addReward :=
  rfl

end WalletRewardTracker

/-- Where a call stands before its next step. A settlement that `settles` holds the lock of
the pending rewards. -/
inductive RewardPoint where
  | counts | adds | locks | settles
  deriving DecidableEq, Repr

namespace RewardPoint

def act (s : WalletRewardTracker) : RewardPoint → Checked WalletRewardTracker
  | .counts => .ok s.countRequest
  | .adds => s.addReward
  | .locks => .ok s
  | .settles => s.recordSettlement

def next : RewardPoint → Multiset RewardPoint
  | .counts => {.adds}
  | .locks => {.settles}
  | .adds | .settles => 0

/-- The step takes the lock of the pending rewards. -/
def needsLock : RewardPoint → Bool
  | .adds | .locks => true
  | .counts | .settles => false

end RewardPoint

/-- The tracker, where each call in progress stands, and the panic that ended the daemon, if
one did. -/
structure RewardWorld where
  tracker : WalletRewardTracker
  calls : Multiset RewardPoint
  halted : Option Halt

inductive RewardEvent where
  | recordRequest
  | recordSettlement (amount : Nat)
  | advance (point : RewardPoint)
  deriving DecidableEq, Repr

/-- The requests that a run counts. -/
def requestsCounted (events : List RewardEvent) : Nat := events.count (.advance .counts)

namespace RewardWorld

def new : RewardWorld := ⟨.new, 0, none⟩

def free (w : RewardWorld) (point : RewardPoint) : Bool :=
  !(point.needsLock && decide (RewardPoint.settles ∈ w.calls))

def step (w : RewardWorld) (event : RewardEvent) : Option RewardWorld :=
  if w.halted.isSome then none
  else
    match event with
    | .recordRequest => some { w with calls := .counts ::ₘ w.calls }
    | .recordSettlement _ => some { w with calls := .locks ::ₘ w.calls }
    | .advance point =>
      if point ∈ w.calls ∧ w.free point then
        match point.act w.tracker with
        | .error halt => some { w with halted := some halt }
        | .ok tracker => some { w with tracker, calls := w.calls.erase point + point.next }
      else none

def Steps (w : RewardWorld) (event : RewardEvent) (w' : RewardWorld) : Prop :=
  w.step event = some w'

inductive Took (w : RewardWorld) : RewardEvent → RewardWorld → Prop where
  | recordRequest : Took w .recordRequest { w with calls := .counts ::ₘ w.calls }
  | recordSettlement {amount : Nat} :
      Took w (.recordSettlement amount) { w with calls := .locks ::ₘ w.calls }
  | advance {point : RewardPoint} {rest : Multiset RewardPoint} {tracker : WalletRewardTracker}
      (stands : w.calls = point ::ₘ rest) (ok : point.act w.tracker = .ok tracker) :
      Took w (.advance point) { w with tracker, calls := rest + point.next }
  | panics {point : RewardPoint} {rest : Multiset RewardPoint} {halt : Halt}
      (stands : w.calls = point ::ₘ rest) (error : point.act w.tracker = .error halt) :
      Took w (.advance point) { w with halted := some halt }

variable {w w' : RewardWorld} {event : RewardEvent} {events : List RewardEvent} {counted : Nat}

theorem Steps.took (step : w.Steps event w') : w.Took event w' := by
  unfold Steps RewardWorld.step at step
  split at step
  · cases step
  cases event with
  | recordRequest =>
    cases step
    exact .recordRequest
  | recordSettlement amount =>
    cases step
    exact .recordSettlement
  | advance point =>
    dsimp only at step
    split at step
    · rename_i enabled
      obtain ⟨rest, stands⟩ := Multiset.exists_cons_of_mem enabled.1
      cases outcome : point.act w.tracker with
      | error halt =>
        rw [outcome] at step
        cases step
        exact .panics stands outcome
      | ok tracker =>
        rw [outcome, stands, Multiset.erase_cons_head] at step
        cases step
        exact .advance stands outcome
    · cases step

/-- Each counted request has its 100 lamports in one of the two sums, or its call has yet to
add them. -/
structure Conserved (counted : Nat) (w : RewardWorld) : Prop where
  running : w.halted = none
  session : w.tracker.sessionRequests = counted
  balance : w.tracker.pendingLamports + w.tracker.lifetimeEarnings +
    100 * w.calls.count .adds = 100 * counted

theorem conserved_new : Conserved 0 .new := ⟨rfl, rfl, rfl⟩

/-- A step of a call keeps the balance, and it does not overflow. -/
theorem Conserved.act {point : RewardPoint} {rest : Multiset RewardPoint}
    (conserved : Conserved counted w) (stands : w.calls = point ::ₘ rest)
    (bounded : 100 * (counted + if point = .counts then 1 else 0) < 2 ^ 64) :
    ∃ tracker, point.act w.tracker = .ok tracker ∧
      Conserved (counted + if point = .counts then 1 else 0)
        { w with tracker, calls := rest + point.next } := by
  obtain ⟨running, session, balance⟩ := conserved
  rw [stands] at balance
  cases point with
  | counts =>
    rw [if_pos rfl] at bounded ⊢
    rw [Multiset.count_cons_of_ne (by decide)] at balance
    refine ⟨w.tracker.countRequest, rfl, running, ?_, ?_⟩
    · simp only [WalletRewardTracker.countRequest, session]
      omega
    · simp only [WalletRewardTracker.countRequest, RewardPoint.next, Multiset.count_add,
        Multiset.count_singleton_self]
      omega
  | adds =>
    rw [if_neg (by decide)] at bounded ⊢
    rw [Multiset.count_cons_self] at balance
    have fits : w.tracker.pendingLamports + 100 < 2 ^ 64 := by omega
    refine ⟨_, bind_ok_iff.mpr ⟨_, addWithin_ok_iff.mpr ⟨fits, rfl⟩, rfl⟩, running, session, ?_⟩
    simp only [RewardPoint.next, Multiset.count_add, Multiset.count_zero]
    omega
  | locks =>
    rw [if_neg (by decide)] at bounded ⊢
    rw [Multiset.count_cons_of_ne (by decide)] at balance
    refine ⟨w.tracker, rfl, running, session, ?_⟩
    rw [RewardPoint.next, Multiset.count_add, Multiset.count_singleton, if_neg (by decide)]
    exact balance
  | settles =>
    rw [if_neg (by decide)] at bounded ⊢
    rw [Multiset.count_cons_of_ne (by decide)] at balance
    have fits : w.tracker.lifetimeEarnings + w.tracker.pendingLamports < 2 ^ 64 := by omega
    refine ⟨_, bind_ok_iff.mpr ⟨_, addWithin_ok_iff.mpr ⟨fits, rfl⟩, rfl⟩, running, session, ?_⟩
    simp only [RewardPoint.next, Multiset.count_add, Multiset.count_zero]
    omega

theorem requestsCounted_advance (point : RewardPoint) :
    requestsCounted [.advance point] = if point = .counts then 1 else 0 := by
  cases point <;> rfl

theorem Conserved.step (conserved : Conserved counted w) (step : w.Steps event w')
    (bounded : 100 * (counted + requestsCounted [event]) < 2 ^ 64) :
    Conserved (counted + requestsCounted [event]) w' := by
  cases step.took with
  | recordRequest =>
    obtain ⟨running, session, balance⟩ := conserved
    exact ⟨running, session, by rwa [Multiset.count_cons_of_ne (by decide)]⟩
  | recordSettlement =>
    obtain ⟨running, session, balance⟩ := conserved
    exact ⟨running, session, by rwa [Multiset.count_cons_of_ne (by decide)]⟩
  | @advance point rest tracker stands ok =>
    rw [requestsCounted_advance] at bounded ⊢
    obtain ⟨tracker', ok', kept⟩ := conserved.act stands bounded
    obtain rfl : tracker' = tracker := Except.ok.inj (ok'.symm.trans ok)
    exact kept
  | @panics point rest halt stands error =>
    rw [requestsCounted_advance] at bounded
    obtain ⟨_, ok, _⟩ := conserved.act stands bounded
    exact absurd (ok.symm.trans error) nofun

theorem conserved_run (run : Run Steps .new events w)
    (bounded : 100 * requestsCounted events < 2 ^ 64) :
    Conserved (requestsCounted events) w := by
  have kept : 100 * requestsCounted ([] ++ events) < 2 ^ 64 →
      Conserved (requestsCounted ([] ++ events)) w := by
    refine run.history (J := fun done w => 100 * requestsCounted done < 2 ^ 64 →
      Conserved (requestsCounted done) w) ?_ fun _ => conserved_new
    intro done w event w' conserved step bounded
    have joined : requestsCounted (done ++ [event]) =
        requestsCounted done + requestsCounted [event] := List.count_append
    rw [joined] at bounded ⊢
    have earlier : 100 * requestsCounted done < 2 ^ 64 := by omega
    exact (conserved earlier).step step bounded
  exact kept bounded

/-- Under every schedule the two sums hold at most 100 lamports for each counted request, and
exactly that when no call is in progress. -/
theorem rewards_conserved (run : Run Steps .new events w)
    (bounded : 100 * requestsCounted events < 2 ^ 64) :
    w.halted = none ∧
      w.tracker.pendingLamports + w.tracker.lifetimeEarnings ≤ 100 * w.tracker.sessionRequests ∧
      (w.calls = 0 →
        w.tracker.pendingLamports + w.tracker.lifetimeEarnings =
          100 * w.tracker.sessionRequests) := by
  obtain ⟨running, session, balance⟩ := conserved_run run bounded
  rw [session]
  refine ⟨running, by omega, ?_⟩
  intro none
  rw [none, Multiset.count_zero] at balance
  exact balance

/-- A settlement gets the lock between the two steps of a request. -/
def settledBetween : List RewardEvent :=
  [.recordRequest, .advance .counts, .recordRequest, .advance .adds, .recordSettlement 100,
    .advance .counts, .advance .locks, .advance .settles, .advance .adds]

theorem settledBetween_conserved :
    ∃ w, Run Steps .new settledBetween w ∧ w.calls = 0 ∧ w.tracker.pendingLamports = 100 ∧
      w.tracker.lifetimeEarnings = 100 ∧
      w.tracker.pendingLamports + w.tracker.lifetimeEarnings =
        100 * w.tracker.sessionRequests := by
  have run : Run Steps .new settledBetween _ :=
    .cons rfl <| .cons rfl <| .cons rfl <| .cons rfl <| .cons rfl <| .cons rfl <| .cons rfl <|
      .cons rfl <| .cons rfl <| .nil _
  obtain ⟨_, _, exactly⟩ := rewards_conserved run (by decide)
  exact ⟨_, run, rfl, rfl, rfl, exactly rfl⟩

/-- The steps that the calls in progress have left. -/
def stepsLeft (calls : Multiset RewardPoint) : Nat :=
  2 * calls.count .counts + calls.count .adds + 2 * calls.count .locks + calls.count .settles

/-- The balance is kept, and the sums stay within their bound when the calls finish. -/
def Finishable (w : RewardWorld) : Prop :=
  ∃ counted, Conserved counted w ∧ 100 * (counted + w.calls.count .counts) < 2 ^ 64

/-- Whoever holds the lock can go on, and when nobody does every call can. -/
theorem exists_free (busy : w.calls ≠ 0) : ∃ point, point ∈ w.calls ∧ w.free point = true := by
  by_cases held : RewardPoint.settles ∈ w.calls
  · exact ⟨.settles, held, rfl⟩
  · obtain ⟨point, member⟩ := Multiset.exists_mem_of_ne_zero busy
    exact ⟨point, member, by simp [free, held]⟩

theorem stepsLeft_next (point : RewardPoint) (rest : Multiset RewardPoint) :
    stepsLeft (rest + point.next) < stepsLeft (point ::ₘ rest) := by
  cases point with
  | counts =>
    simp [stepsLeft, RewardPoint.next]
    omega
  | adds => simp [stepsLeft, RewardPoint.next]
  | locks =>
    simp [stepsLeft, RewardPoint.next]
    omega
  | settles => simp [stepsLeft, RewardPoint.next]

theorem waiting_next (point : RewardPoint) (rest : Multiset RewardPoint) :
    (if point = .counts then 1 else 0) + (rest + point.next).count .counts =
      (point ::ₘ rest).count .counts := by
  cases point with
  | counts => simp [RewardPoint.next, Nat.add_comm]
  | _ => simp [RewardPoint.next]

theorem steps_advance {point : RewardPoint} {tracker : WalletRewardTracker}
    (running : w.halted = none) (member : point ∈ w.calls) (free : w.free point = true)
    (ok : point.act w.tracker = .ok tracker) :
    w.Steps (.advance point) { w with tracker, calls := w.calls.erase point + point.next } := by
  simp only [Steps, RewardWorld.step, running, Option.isSome_none, Bool.false_eq_true, if_false,
    member, free, and_self, if_true, ok]

theorem Finishable.advance (finishable : Finishable w) (busy : w.calls ≠ 0) :
    ∃ event w', w.Steps event w' ∧ Finishable w' ∧ stepsLeft w'.calls < stepsLeft w.calls := by
  obtain ⟨counted, conserved, bounded⟩ := finishable
  obtain ⟨point, member, free⟩ := exists_free busy
  obtain ⟨rest, stands⟩ := Multiset.exists_cons_of_mem member
  have waiting := waiting_next point rest
  rw [← stands] at waiting
  obtain ⟨tracker, ok, kept⟩ := conserved.act stands (by omega)
  have step := steps_advance conserved.running member free ok
  rw [stands, Multiset.erase_cons_head] at step
  refine ⟨.advance point, _, step, ⟨_, kept, ?_⟩, ?_⟩
  · dsimp only
    omega
  · rw [stands]
    exact stepsLeft_next point rest

/-- No schedule blocks the calls: they can finish, and then the balance is exact. -/
theorem calls_finish (run : Run Steps .new events w)
    (bounded : 100 * (requestsCounted events + w.calls.count .counts) < 2 ^ 64) :
    ∃ rest w', Run Steps w rest w' ∧ w'.calls = 0 ∧
      w'.tracker.pendingLamports + w'.tracker.lifetimeEarnings =
        100 * w'.tracker.sessionRequests := by
  have start : Finishable w := ⟨_, conserved_run run (by omega), bounded⟩
  obtain ⟨rest, w', finish, idle, counted, ⟨_, session, balance⟩, _⟩ := exists_run_of_measure
    (P := fun w => w.calls = 0 ∧ Finishable w) (stepsLeft ·.calls) (fun w finishable unfinished =>
      finishable.advance fun idle => unfinished ⟨idle, finishable⟩) start
  rw [idle, Multiset.count_zero] at balance
  exact ⟨rest, w', finish, idle, session.symm ▸ balance⟩

end RewardWorld

end Solnet.Daemon
