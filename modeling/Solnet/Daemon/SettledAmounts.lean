import Solnet.Daemon.Rewards

/-! The amounts that settlements name. A settlement moves the whole pending balance, whatever
amount it is called with. -/
namespace Solnet.Daemon
open Runs Fallible

inductive RewardCall where
  | recordRequest
  | recordSettlement (amount : Nat)
  deriving DecidableEq, Repr

/-- The amount that the call says has been settled. -/
def RewardCall.amount : RewardCall → Nat
  | .recordRequest => 0
  | .recordSettlement amount => amount

namespace WalletRewardTracker

def perform (s : WalletRewardTracker) : RewardCall → Checked WalletRewardTracker
  | .recordRequest => s.recordRequest
  -- the amount is only logged
  | .recordSettlement _ => s.recordSettlement

/-- No more than what is pending is said to be settled. -/
def Calls (s : WalletRewardTracker) (call : RewardCall) (s' : WalletRewardTracker) : Prop :=
  s.perform call = .ok s' ∧ call.amount ≤ s.pendingLamports

/-- The tracker beside the sum of the amounts settled so far. -/
def Ledger : WalletRewardTracker × Nat → RewardCall → WalletRewardTracker × Nat → Prop :=
  Traced Calls fun _ call settled => settled + call.amount

/-- What was settled has moved to the lifetime earnings, and the rest is pending. -/
def MovesSettled (ledger : WalletRewardTracker × Nat) : Prop :=
  ledger.1.lifetimeEarnings = ledger.2 ∧
    ledger.1.pendingLamports + ledger.2 = 100 * ledger.1.sessionRequests

/-- A settlement names the whole pending balance. -/
def SettlesAll (ledger : WalletRewardTracker × Nat) (call : RewardCall) : Prop :=
  ∀ amount, call = .recordSettlement amount → amount = ledger.1.pendingLamports

/-- Each request has its 100 lamports in one of the sums, which fit in 64 bits, and so the count
of the requests does not wrap. -/
structure Balanced (s : WalletRewardTracker) : Prop where
  pending : s.pendingLamports < 2 ^ 64
  lifetime : s.lifetimeEarnings < 2 ^ 64
  balance : s.pendingLamports + s.lifetimeEarnings = 100 * s.sessionRequests

variable {s s' : WalletRewardTracker} {call : RewardCall}

theorem recordRequest_ok (balanced : s.Balanced) (ok : s.recordRequest = .ok s') :
    s'.pendingLamports = s.pendingLamports + 100 ∧ s'.lifetimeEarnings = s.lifetimeEarnings ∧
      s'.sessionRequests = s.sessionRequests + 1 ∧ s'.Balanced := by
  obtain ⟨pending, lifetime, balance⟩ := balanced
  obtain ⟨added, add, ok⟩ := bind_ok_iff.mp ok
  obtain ⟨fits, rfl⟩ := addWithin_ok_iff.mp add
  obtain rfl := Except.ok.inj ok
  have counts : (s.sessionRequests + 1) % 2 ^ 64 = s.sessionRequests + 1 := by
    apply Nat.mod_eq_of_lt
    omega
  refine ⟨rfl, rfl, counts, fits, lifetime, ?_⟩
  dsimp only
  rw [counts]
  omega

theorem recordSettlement_ok (balanced : s.Balanced) (ok : s.recordSettlement = .ok s') :
    s'.pendingLamports = 0 ∧ s'.lifetimeEarnings = s.lifetimeEarnings + s.pendingLamports ∧
      s'.sessionRequests = s.sessionRequests ∧ s'.Balanced := by
  obtain ⟨pending, lifetime, balance⟩ := balanced
  obtain ⟨moved, add, ok⟩ := bind_ok_iff.mp ok
  obtain ⟨fits, rfl⟩ := addWithin_ok_iff.mp add
  obtain rfl := Except.ok.inj ok
  refine ⟨rfl, rfl, rfl, Nat.two_pow_pos 64, fits, ?_⟩
  dsimp only
  omega

theorem Calls.balanced (balanced : s.Balanced) (step : s.Calls call s') : s'.Balanced := by
  obtain ⟨ok, _⟩ := step
  cases call with
  | recordRequest =>
    obtain ⟨_, _, _, kept⟩ := recordRequest_ok balanced ok
    exact kept
  | recordSettlement amount =>
    obtain ⟨_, _, _, kept⟩ := recordSettlement_ok balanced ok
    exact kept

theorem ledger_deterministic : Deterministic Ledger := by
  apply Deterministic.traced
  rintro s call t u ⟨left, _⟩ ⟨right, _⟩
  exact Except.ok.inj (left.symm.trans right)

theorem Calls.moves_iff {settled : Nat} (balanced : s.Balanced) (moves : MovesSettled (s, settled))
    (step : s.Calls call s') :
    MovesSettled (s', settled + call.amount) ↔ SettlesAll (s, settled) call := by
  obtain ⟨lifetime, pending⟩ := moves
  obtain ⟨ok, _⟩ := step
  dsimp only at lifetime pending
  cases call with
  | recordRequest =>
    obtain ⟨pending', lifetime', session', _⟩ := recordRequest_ok balanced ok
    simp only [MovesSettled, SettlesAll, RewardCall.amount, pending', lifetime', session',
      reduceCtorEq, false_imp_iff, implies_true, iff_true]
    omega
  | recordSettlement amount =>
    obtain ⟨pending', lifetime', session', _⟩ := recordSettlement_ok balanced ok
    simp only [MovesSettled, SettlesAll, RewardCall.amount, pending', lifetime', session',
      RewardCall.recordSettlement.injEq, forall_eq']
    omega

/-- All along a run the settlements move what was settled exactly when each of them names the
whole pending balance. -/
theorem moves_settled_iff {calls : List RewardCall} {settled : Nat}
    (run : Run Ledger (.new, 0) calls (s, settled)) :
    Always Ledger MovesSettled (.new, 0) calls ↔
      Run (Guarded Ledger SettlesAll) (.new, 0) calls (s, settled) := by
  apply always_iff_guarded (I := fun ledger => Balanced ledger.1) ledger_deterministic _ _ run
  · exact ⟨Nat.two_pow_pos 64, Nat.two_pow_pos 64, rfl⟩
  · exact ⟨rfl, rfl⟩
  · rintro ⟨s, settled⟩ call ⟨s', _⟩ balanced ⟨step, rfl⟩
    exact step.balanced balanced
  · rintro ⟨s, settled⟩ call ⟨s', _⟩ balanced moves ⟨step, rfl⟩
    exact step.moves_iff balanced moves

/-- Two requests, settled as one batch before the next one comes. -/
def settledAtOnce : List RewardCall :=
  [.recordRequest, .recordRequest, .recordSettlement 200, .recordRequest]

theorem settledAtOnce_moves : Always Ledger MovesSettled (.new, 0) settledAtOnce := by
  have run : ∃ s settled, Run (Guarded Ledger SettlesAll) (.new, 0) settledAtOnce (s, settled) :=
    ⟨⟨100, 0, 0, 200, 3⟩, 200,
      .cons (t := (⟨100, 0, 0, 0, 1⟩, 0)) ⟨⟨⟨rfl, by decide⟩, rfl⟩, nofun⟩ <|
      .cons (t := (⟨200, 0, 0, 0, 2⟩, 0)) ⟨⟨⟨rfl, by decide⟩, rfl⟩, nofun⟩ <|
      .cons (t := (⟨0, 0, 0, 200, 2⟩, 200)) ⟨⟨⟨rfl, by decide⟩, rfl⟩,
        fun _ same => (RewardCall.recordSettlement.inj same).symm⟩ <|
      .cons ⟨⟨⟨rfl, by decide⟩, rfl⟩, nofun⟩ (.nil _)⟩
  obtain ⟨s, settled, run⟩ := run
  exact (moves_settled_iff run.unguarded).mpr run

/-- The second request comes when the first has been sent to be settled. -/
theorem late_request_is_moved :
    ¬ ∀ (calls : List RewardCall) (s : WalletRewardTracker) (settled : Nat),
      Run Ledger (.new, 0) calls (s, settled) → Always Ledger MovesSettled (.new, 0) calls := by
  intro moves
  have run : Run Ledger (.new, 0)
      [.recordRequest, .recordRequest, .recordSettlement 100] (⟨0, 0, 0, 200, 2⟩, 100) :=
    .cons (t := (⟨100, 0, 0, 0, 1⟩, 0)) ⟨⟨rfl, by decide⟩, rfl⟩ <|
    .cons (t := (⟨200, 0, 0, 0, 2⟩, 0)) ⟨⟨rfl, by decide⟩, rfl⟩ <|
    .cons ⟨⟨rfl, by decide⟩, rfl⟩ (.nil _)
  obtain ⟨lifetime, _⟩ := moves _ _ _ run _ _ (List.prefix_refl _) run
  exact absurd lifetime (by decide)

end WalletRewardTracker

end Solnet.Daemon
