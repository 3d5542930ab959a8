import Mathlib.Algebra.BigOperators.Group.Multiset.Basic
import Solnet.Daemon.Rewards

/-! The wallet endpoint beside the calls that earn and settle. A status call reads the sums one
after another, and while it asks the node for the balance it holds the lock of the last fetch. -/
namespace Solnet.Daemon
open Runs Fallible

structure RewardStatus where
  pendingLamports : Nat
  confirmedWalletBalanceLamports : Nat
  lifetimeEarnedLamports : Nat
  sessionRequests : Nat
  lamportsPerRequest : Nat
  nextSettlementInSecs : Nat
  deriving DecidableEq, Repr

def secsUntilNextSettlement (now : Nat) : Nat := 3600 - now % 3600

/-- Where a status call stands, with what it has read so far. -/
inductive StatusPoint where
  | readsPending
  | readsClock (pending : Nat)
  | wantsFetch (pending now : Nat)
  | posts (pending now : Nat)
  | stores (pending now balance : Nat)
  | stamps (pending now balance : Nat)
  | readsConfirmed (pending now : Nat)
  | tries (pending : Nat)
  | readsLifetime (pending confirmed : Nat)
  | readsSession (pending confirmed lifetime : Nat)
  | readsSettlement (pending confirmed lifetime requests : Nat)
  | reported (status : RewardStatus)
  deriving DecidableEq, Repr

/-- What a step reads from outside: the clock, the balance that the node answers, if it answers
one, and whether another call holds the lock that the step tries. -/
structure StatusReads where
  now : Nat
  reply : Option Nat
  contended : Bool
  deriving DecidableEq, Repr

namespace StatusPoint

def act (s : WalletRewardTracker) (reads : StatusReads) :
    StatusPoint → Checked (WalletRewardTracker × StatusPoint)
  | .readsPending => .ok (s, .readsClock s.pendingLamports)
  | .readsClock pending => .ok (s, .wantsFetch pending reads.now)
  | .wantsFetch pending now => do
    let age ← checkedSub now s.lastBalanceFetch
    return (s, if age < 30 then .readsConfirmed pending now else .posts pending now)
  | .posts pending now =>
    match reads.reply with
    | none => .ok (s, .tries pending)
    | some balance => .ok (s, .stores pending now balance)
  | .stores pending now balance =>
    .ok ({ s with confirmedBalance := balance }, .stamps pending now balance)
  | .stamps pending now balance =>
    .ok ({ s with lastBalanceFetch := now }, .readsLifetime pending balance)
  | .readsConfirmed pending _ => .ok (s, .readsLifetime pending s.confirmedBalance)
  | .tries pending =>
    .ok (s, .readsLifetime pending (if reads.contended then 0 else s.confirmedBalance))
  | .readsLifetime pending confirmed => .ok (s, .readsSession pending confirmed s.lifetimeEarnings)
  | .readsSession pending confirmed lifetime =>
    .ok (s, .readsSettlement pending confirmed lifetime s.sessionRequests)
  | .readsSettlement pending confirmed lifetime requests =>
    .ok (s, .reported ⟨pending, confirmed, lifetime, requests, 100,
      secsUntilNextSettlement reads.now⟩)
  | .reported status => .ok (s, .reported status)

/-- The call holds the lock of the last fetch. -/
def holdsFetch : StatusPoint → Bool
  | .posts _ _ | .stores _ _ _ | .stamps _ _ _ | .readsConfirmed _ _ => true
  | _ => false

def stepsLeft : StatusPoint → Nat
  | .readsPending => 9
  | .readsClock _ => 8
  | .wantsFetch _ _ => 7
  | .posts _ _ => 6
  | .stores _ _ _ => 5
  | .stamps _ _ _ => 4
  | .readsConfirmed _ _ => 4
  | .tries _ => 4
  | .readsLifetime _ _ => 3
  | .readsSession _ _ _ => 2
  | .readsSettlement _ _ _ _ => 1
  | .reported _ => 0

end StatusPoint

/-- The calls that hold the lock of the last fetch. -/
def holders (statuses : Multiset StatusPoint) : Nat :=
  statuses.countP fun point => point.holdsFetch = true

@[simp]
theorem holders_cons (point : StatusPoint) (rest : Multiset StatusPoint) :
    holders (point ::ₘ rest) = holders rest + if point.holdsFetch = true then 1 else 0 :=
  Multiset.countP_cons _ point rest

/-- The tracker with the calls that earn and settle, and the status calls. -/
structure WalletWorld where
  rewards : RewardWorld
  statuses : Multiset StatusPoint

inductive WalletEvent where
  | rewards (event : RewardEvent)
  | getRewardStatus
  | advance (point : StatusPoint) (reads : StatusReads)

def WalletEvent.rewardEvent : WalletEvent → Option RewardEvent
  | .rewards event => some event
  | _ => none

/-- The event is a step of a call in progress. -/
def WalletEvent.isStep : WalletEvent → Bool
  | .rewards (.advance _) => true
  | .advance _ _ => true
  | _ => false

/-- A balance that the node answered, and the reading of the call that asked. -/
structure Fetch where
  now : Nat
  balance : Nat
  deriving DecidableEq, Repr

namespace WalletWorld

def new : WalletWorld := ⟨.new, 0⟩

def free (w : WalletWorld) : StatusPoint → Bool
  | .readsPending => decide (RewardPoint.settles ∉ w.rewards.calls)
  | .wantsFetch _ _ => decide (holders w.statuses = 0)
  | .reported _ => false
  | _ => true

def step (w : WalletWorld) (event : WalletEvent) : Option WalletWorld :=
  if w.rewards.halted.isSome then none
  else
    match event with
    | .rewards event => (w.rewards.step event).map fun rewards => { w with rewards }
    | .getRewardStatus => some { w with statuses := .readsPending ::ₘ w.statuses }
    | .advance point reads =>
      if point ∈ w.statuses ∧ w.free point then
        match point.act w.rewards.tracker reads with
        | .error halt => some { w with rewards := { w.rewards with halted := some halt } }
        | .ok (tracker, next) =>
          some ⟨{ w.rewards with tracker }, next ::ₘ w.statuses.erase point⟩
      else none

def Steps (w : WalletWorld) (event : WalletEvent) (w' : WalletWorld) : Prop :=
  w.step event = some w'

/-- The fetches so far, the latest first. -/
def note (_ : WalletWorld) (event : WalletEvent) (fetches : List Fetch) : List Fetch :=
  match event with
  | .advance (.stores _ now balance) _ => ⟨now, balance⟩ :: fetches
  | _ => fetches

abbrev FetchSteps : WalletWorld × List Fetch → WalletEvent → WalletWorld × List Fetch → Prop :=
  Runs.Traced WalletWorld.Steps WalletWorld.note

inductive Took (w : WalletWorld) : WalletEvent → WalletWorld → Prop where
  | rewards {event : RewardEvent} {rewards : RewardWorld} (step : w.rewards.Steps event rewards) :
      Took w (.rewards event) { w with rewards }
  | getRewardStatus : Took w .getRewardStatus { w with statuses := .readsPending ::ₘ w.statuses }
  | advance {point next : StatusPoint} {reads : StatusReads} {rest : Multiset StatusPoint}
      {tracker : WalletRewardTracker} (stands : w.statuses = point ::ₘ rest)
      (free : w.free point = true)
      (ok : point.act w.rewards.tracker reads = .ok (tracker, next)) :
      Took w (.advance point reads) ⟨{ w.rewards with tracker }, next ::ₘ rest⟩
  | panics {point : StatusPoint} {reads : StatusReads} {halt : Halt} (free : w.free point = true)
      (error : point.act w.rewards.tracker reads = .error halt) :
      Took w (.advance point reads) { w with rewards := { w.rewards with halted := some halt } }

variable {w w' : WalletWorld} {event : WalletEvent} {events : List WalletEvent}
  {fetches fetches' : List Fetch} {counted : Nat}

theorem Steps.took (step : w.Steps event w') : w.rewards.halted = none ∧ w.Took event w' := by
  unfold Steps WalletWorld.step at step
  split at step
  · cases step
  rename_i running
  refine ⟨by simpa using running, ?_⟩
  cases event with
  | rewards event =>
    obtain ⟨rewards, earned, rfl⟩ := Option.map_eq_some_iff.mp step
    exact .rewards earned
  | getRewardStatus =>
    cases step
    exact .getRewardStatus
  | advance point reads =>
    dsimp only at step
    split at step
    · rename_i enabled
      obtain ⟨rest, stands⟩ := Multiset.exists_cons_of_mem enabled.1
      cases outcome : point.act w.rewards.tracker reads with
      | error halt =>
        rw [outcome] at step
        cases step
        exact .panics enabled.2 outcome
      | ok after =>
        obtain ⟨tracker, next⟩ := after
        rw [outcome, stands, Multiset.erase_cons_head] at step
        cases step
        exact .advance stands enabled.2 outcome
    · cases step

/-! What holds under every schedule. -/

def lastTime (fetches : List Fetch) : Nat := (fetches.head?.map Fetch.now).getD 0

def lastBalance (fetches : List Fetch) : Nat := (fetches.head?.map Fetch.balance).getD 0

/-- Zero, or a balance that the node answered. -/
def Answered (fetches : List Fetch) (balance : Nat) : Prop :=
  balance = 0 ∨ ∃ fetch ∈ fetches, fetch.balance = balance

/-- No sum read so far exceeds the rewards of the requests, and a call that holds the lock knows
how long ago the latest fetch was. -/
def Fits (requests : Nat) (fetches : List Fetch) : StatusPoint → Prop
  | .readsPending => True
  | .readsClock pending | .wantsFetch pending _ | .tries pending => pending ≤ 100 * requests
  | .posts pending now | .stores pending now _ =>
    pending ≤ 100 * requests ∧ lastTime fetches + 30 ≤ now
  | .stamps pending now balance =>
    pending ≤ 100 * requests ∧ fetches.head? = some ⟨now, balance⟩
  | .readsConfirmed pending now =>
    pending ≤ 100 * requests ∧ lastTime fetches ≤ now ∧ now < lastTime fetches + 30
  | .readsLifetime pending confirmed => pending ≤ 100 * requests ∧ Answered fetches confirmed
  | .readsSession pending confirmed lifetime =>
    pending ≤ 100 * requests ∧ lifetime ≤ 100 * requests ∧ Answered fetches confirmed
  | .readsSettlement pending confirmed lifetime served =>
    pending ≤ 100 * served ∧ lifetime ≤ 100 * served ∧ Answered fetches confirmed
  | .reported status => status.pendingLamports ≤ 100 * status.sessionRequests ∧
      status.lifetimeEarnedLamports ≤ 100 * status.sessionRequests ∧
      Answered fetches status.confirmedWalletBalanceLamports

structure Kept (counted : Nat) (x : WalletWorld × List Fetch) : Prop where
  conserved : RewardWorld.Conserved counted { x.1.rewards with halted := none }
  alone : holders x.1.statuses ≤ 1
  latest : x.1.rewards.tracker.confirmedBalance = lastBalance x.2
  stamped : x.1.rewards.tracker.lastBalanceFetch = lastTime x.2 ∨
    ∃ pending now balance, .stamps pending now balance ∈ x.1.statuses
  apart : x.2.Pairwise fun later earlier => earlier.now + 30 ≤ later.now
  fits : ∀ point ∈ x.1.statuses, Fits counted x.2 point

theorem kept_new : Kept 0 (.new, []) where
  conserved := RewardWorld.conserved_new
  alone := Nat.zero_le 1
  latest := rfl
  stamped := .inl rfl
  apart := .nil
  fits := nofun

theorem Answered.mono {balance : Nat} (sub : fetches ⊆ fetches')
    (answered : Answered fetches balance) : Answered fetches' balance :=
  answered.imp_right fun ⟨fetch, member, same⟩ => ⟨fetch, sub member, same⟩

theorem answered_last (fetches : List Fetch) : Answered fetches (lastBalance fetches) := by
  cases fetches with
  | nil => exact .inl rfl
  | cons fetch fetches => exact .inr ⟨fetch, List.mem_cons_self, rfl⟩

theorem Fits.mono {requests requests' : Nat} {point : StatusPoint}
    (fits : Fits requests fetches point) (more : requests ≤ requests') (sub : fetches ⊆ fetches')
    (same : point.holdsFetch = true → fetches' = fetches) : Fits requests' fetches' point := by
  have grows {n : Nat} (within : n ≤ 100 * requests) : n ≤ 100 * requests' :=
    within.trans (Nat.mul_le_mul_left 100 more)
  cases point with
  | readsPending => trivial
  | readsClock pending => exact grows fits
  | wantsFetch pending now => exact grows fits
  | tries pending => exact grows fits
  | posts pending now =>
    rw [same rfl]
    exact ⟨grows fits.1, fits.2⟩
  | stores pending now balance =>
    rw [same rfl]
    exact ⟨grows fits.1, fits.2⟩
  | stamps pending now balance =>
    rw [same rfl]
    exact ⟨grows fits.1, fits.2⟩
  | readsConfirmed pending now =>
    rw [same rfl]
    exact ⟨grows fits.1, fits.2⟩
  | readsLifetime pending confirmed => exact ⟨grows fits.1, fits.2.mono sub⟩
  | readsSession pending confirmed lifetime =>
    exact ⟨grows fits.1, grows fits.2.1, fits.2.2.mono sub⟩
  | readsSettlement pending confirmed lifetime served => exact ⟨fits.1, fits.2.1, fits.2.2.mono sub⟩
  | reported status => exact ⟨fits.1, fits.2.1, fits.2.2.mono sub⟩

section Steps

variable {point next : StatusPoint} {rest : Multiset StatusPoint} {reads : StatusReads}
  {tracker : WalletRewardTracker}

/-- Nobody else holds the lock while one does. -/
theorem Kept.others (kept : Kept counted (w, fetches)) (stands : w.statuses = point ::ₘ rest)
    (holds : point.holdsFetch = true) : holders rest = 0 := by
  have alone : holders w.statuses ≤ 1 := kept.alone
  rw [stands, holders_cons, if_pos holds] at alone
  omega

theorem not_stamps_of_free {pending now balance : Nat} (none : holders rest = 0) :
    .stamps pending now balance ∉ rest := fun member =>
  Multiset.countP_eq_zero.mp none _ member rfl

theorem stamps_elsewhere (stands : w.statuses = point ::ₘ rest)
    (other : ∀ pending now balance, point ≠ .stamps pending now balance)
    {pending now balance : Nat} (member : .stamps pending now balance ∈ w.statuses) :
    .stamps pending now balance ∈ rest := by
  rw [stands, Multiset.mem_cons] at member
  exact member.resolve_left fun own => other pending now balance own.symm

/-- The latest fetch is on record while its call does not stamp it. -/
theorem Kept.onRecord (kept : Kept counted (w, fetches)) (stands : w.statuses = point ::ₘ rest)
    (none : holders rest = 0)
    (other : ∀ pending now balance, point ≠ .stamps pending now balance) :
    w.rewards.tracker.lastBalanceFetch = lastTime fetches := by
  rcases kept.stamped with same | ⟨pending, now, balance, member⟩
  · exact same
  · exact absurd (stamps_elsewhere stands other member) (not_stamps_of_free none)

theorem Kept.alone_next (kept : Kept counted (w, fetches)) (stands : w.statuses = point ::ₘ rest)
    (others : next.holdsFetch = true → holders rest = 0) : holders (next ::ₘ rest) ≤ 1 := by
  have alone : holders w.statuses ≤ 1 := kept.alone
  rw [stands, holders_cons] at alone
  rw [holders_cons]
  by_cases holds : next.holdsFetch = true
  · rw [others holds, if_pos holds]
  · rw [if_neg holds]
    omega

theorem Kept.fits_rest (kept : Kept counted (w, fetches)) (stands : w.statuses = point ::ₘ rest) :
    ∀ other ∈ rest, Fits counted fetches other := fun other member =>
  kept.fits other (stands ▸ Multiset.mem_cons_of_mem member)

theorem Kept.fits_own (kept : Kept counted (w, fetches)) (stands : w.statuses = point ::ₘ rest) :
    Fits counted fetches point :=
  kept.fits point (stands ▸ Multiset.mem_cons_self point rest)

/-- A step that only reads. -/
theorem Kept.looks (kept : Kept counted (w, fetches)) (stands : w.statuses = point ::ₘ rest)
    (other : ∀ pending now balance, point ≠ .stamps pending now balance)
    (holds : next.holdsFetch = true → holders rest = 0) (fits : Fits counted fetches next) :
    Kept counted (⟨w.rewards, next ::ₘ rest⟩, fetches) where
  conserved := kept.conserved
  alone := kept.alone_next stands holds
  latest := kept.latest
  stamped := kept.stamped.imp_right fun ⟨pending, now, balance, member⟩ =>
    ⟨pending, now, balance, Multiset.mem_cons_of_mem (stamps_elsewhere stands other member)⟩
  apart := kept.apart
  fits := Multiset.forall_mem_cons.mpr ⟨fits, kept.fits_rest stands⟩

theorem lastTime_le_head {fetch : Fetch}
    (apart : fetches.Pairwise fun later earlier => earlier.now + 30 ≤ later.now)
    (late : lastTime fetches + 30 ≤ fetch.now) :
    (fetch :: fetches).Pairwise fun later earlier => earlier.now + 30 ≤ later.now := by
  refine List.pairwise_cons.mpr ⟨fun earlier member => ?_, apart⟩
  cases fetches with
  | nil => cases member
  | cons last before =>
    have late : last.now + 30 ≤ fetch.now := late
    rcases List.mem_cons.mp member with rfl | old
    · exact late
    · have between := (List.pairwise_cons.mp apart).1 earlier old
      omega

/-- The balance is stored. The fetch counts from here on. -/
theorem Kept.stores {pending now balance : Nat} (kept : Kept counted (w, fetches))
    (stands : w.statuses = .stores pending now balance ::ₘ rest) :
    Kept counted (⟨{ w.rewards with
        tracker := { w.rewards.tracker with confirmedBalance := balance } },
      .stamps pending now balance ::ₘ rest⟩, ⟨now, balance⟩ :: fetches) := by
  have none := kept.others stands rfl
  obtain ⟨within, late⟩ := kept.fits_own stands
  refine ⟨?_, ?_, rfl, .inr ⟨pending, now, balance, Multiset.mem_cons_self _ rest⟩, ?_, ?_⟩
  · exact ⟨rfl, kept.conserved.session, kept.conserved.balance⟩
  · exact kept.alone_next stands fun _ => none
  · exact lastTime_le_head kept.apart late
  · refine Multiset.forall_mem_cons.mpr ⟨⟨within, rfl⟩, fun other member => ?_⟩
    refine (kept.fits_rest stands other member).mono (Nat.le_refl _) (List.subset_cons_self _ _) ?_
    exact fun holds => absurd holds (Multiset.countP_eq_zero.mp none other member)

theorem Kept.stamps {pending now balance : Nat} (kept : Kept counted (w, fetches))
    (stands : w.statuses = .stamps pending now balance ::ₘ rest) :
    Kept counted (⟨{ w.rewards with tracker := { w.rewards.tracker with lastBalanceFetch := now } },
      .readsLifetime pending balance ::ₘ rest⟩, fetches) := by
  obtain ⟨within, latest⟩ := kept.fits_own stands
  refine ⟨?_, ?_, kept.latest, .inl ?_, kept.apart, ?_⟩
  · exact ⟨rfl, kept.conserved.session, kept.conserved.balance⟩
  · exact kept.alone_next stands nofun
  · rw [lastTime, latest]
    rfl
  · refine Multiset.forall_mem_cons.mpr ⟨⟨within, .inr ⟨⟨now, balance⟩, ?_, rfl⟩⟩, ?_⟩
    · exact List.mem_of_head? latest
    · exact kept.fits_rest stands

theorem Kept.advance (kept : Kept counted (w, fetches)) (stands : w.statuses = point ::ₘ rest)
    (free : w.free point = true) (ok : point.act w.rewards.tracker reads = .ok (tracker, next)) :
    Kept counted (⟨{ w.rewards with tracker }, next ::ₘ rest⟩,
      note w (.advance point reads) fetches) := by
  have own := kept.fits_own stands
  have session : w.rewards.tracker.sessionRequests = counted := kept.conserved.session
  have balance : w.rewards.tracker.pendingLamports + w.rewards.tracker.lifetimeEarnings +
    100 * w.rewards.calls.count .adds = 100 * counted := kept.conserved.balance
  have latest : w.rewards.tracker.confirmedBalance = lastBalance fetches := kept.latest
  cases point with
  | readsPending =>
    obtain ⟨rfl, rfl⟩ := Prod.mk.inj (Except.ok.inj ok)
    refine kept.looks stands nofun nofun ?_
    change w.rewards.tracker.pendingLamports ≤ 100 * counted
    omega
  | readsClock pending =>
    obtain ⟨rfl, rfl⟩ := Prod.mk.inj (Except.ok.inj ok)
    exact kept.looks stands nofun nofun own
  | wantsFetch pending now =>
    obtain ⟨age, subtracted, same⟩ := bind_ok_iff.mp ok
    obtain ⟨ordered, rfl⟩ := subWithin_ok_iff.mp subtracted
    obtain ⟨rfl, rfl⟩ := Prod.mk.inj (Except.ok.inj same)
    have idle : holders w.statuses = 0 := of_decide_eq_true free
    have none : holders rest = 0 := by simpa [stands, StatusPoint.holdsFetch] using idle
    have onRecord := kept.onRecord stands none nofun
    refine kept.looks stands nofun (fun _ => none) ?_
    split
    · rename_i young
      refine ⟨own, ?_, ?_⟩
      · omega
      · omega
    · rename_i old
      exact ⟨own, by omega⟩
  | posts pending now =>
    unfold StatusPoint.act at ok
    cases replied : reads.reply with
    | none =>
      rw [replied] at ok
      obtain ⟨rfl, rfl⟩ := Prod.mk.inj (Except.ok.inj ok)
      exact kept.looks stands nofun nofun own.1
    | some balance =>
      rw [replied] at ok
      obtain ⟨rfl, rfl⟩ := Prod.mk.inj (Except.ok.inj ok)
      exact kept.looks stands nofun (fun _ => kept.others stands rfl) own
  | stores pending now balance =>
    obtain ⟨rfl, rfl⟩ := Prod.mk.inj (Except.ok.inj ok)
    exact kept.stores stands
  | stamps pending now balance =>
    obtain ⟨rfl, rfl⟩ := Prod.mk.inj (Except.ok.inj ok)
    exact kept.stamps stands
  | readsConfirmed pending now =>
    obtain ⟨rfl, rfl⟩ := Prod.mk.inj (Except.ok.inj ok)
    exact kept.looks stands nofun nofun ⟨own.1, latest ▸ answered_last fetches⟩
  | tries pending =>
    obtain ⟨rfl, rfl⟩ := Prod.mk.inj (Except.ok.inj ok)
    refine kept.looks stands nofun nofun ⟨own, ?_⟩
    split
    · exact .inl rfl
    · exact latest ▸ answered_last fetches
  | readsLifetime pending confirmed =>
    obtain ⟨rfl, rfl⟩ := Prod.mk.inj (Except.ok.inj ok)
    refine kept.looks stands nofun nofun ⟨own.1, ?_, own.2⟩
    omega
  | readsSession pending confirmed lifetime =>
    obtain ⟨rfl, rfl⟩ := Prod.mk.inj (Except.ok.inj ok)
    exact kept.looks stands nofun nofun (session.symm ▸ own)
  | readsSettlement pending confirmed lifetime requests =>
    obtain ⟨rfl, rfl⟩ := Prod.mk.inj (Except.ok.inj ok)
    exact kept.looks stands nofun nofun own
  | reported status => cases free

/-- A call that earns or settles leaves the balance alone. -/
theorem balance_kept {v v' : RewardWorld} {event : RewardEvent} (step : v.Steps event v') :
    v'.tracker.confirmedBalance = v.tracker.confirmedBalance ∧
      v'.tracker.lastBalanceFetch = v.tracker.lastBalanceFetch := by
  cases step.took with
  | recordRequest => exact ⟨rfl, rfl⟩
  | recordSettlement => exact ⟨rfl, rfl⟩
  | @advance point rest tracker stands ok =>
    cases point with
    | counts =>
      obtain rfl := Except.ok.inj ok
      exact ⟨rfl, rfl⟩
    | adds =>
      obtain ⟨_, _, same⟩ := bind_ok_iff.mp ok
      obtain rfl := Except.ok.inj same
      exact ⟨rfl, rfl⟩
    | locks =>
      obtain rfl := Except.ok.inj ok
      exact ⟨rfl, rfl⟩
    | settles =>
      obtain ⟨_, _, same⟩ := bind_ok_iff.mp ok
      obtain rfl := Except.ok.inj same
      exact ⟨rfl, rfl⟩
  | panics stands error => exact ⟨rfl, rfl⟩

def rewardEvents (events : List WalletEvent) : List RewardEvent :=
  events.filterMap WalletEvent.rewardEvent

theorem Kept.rewards {event : RewardEvent} {rewards : RewardWorld}
    (kept : Kept counted (w, fetches)) (running : w.rewards.halted = none)
    (step : w.rewards.Steps event rewards)
    (bounded : 100 * (counted + requestsCounted [event]) < 2 ^ 64) :
    Kept (counted + requestsCounted [event]) ({ w with rewards }, fetches) := by
  have before : RewardWorld.Conserved counted w.rewards := by
    have conserved := kept.conserved
    exact ⟨running, conserved.session, conserved.balance⟩
  obtain ⟨_, session, balance⟩ := before.step step bounded
  obtain ⟨confirmed, last⟩ := balance_kept step
  refine ⟨⟨rfl, session, balance⟩, kept.alone, confirmed.trans kept.latest, ?_, kept.apart, ?_⟩
  · exact kept.stamped.imp_left last.trans
  · intro point member
    exact (kept.fits point member).mono (Nat.le_add_right _ _) (List.Subset.refl _) fun _ => rfl

end Steps

theorem Kept.step (kept : Kept counted (w, fetches))
    (step : FetchSteps (w, fetches) event (w', fetches'))
    (bounded : 100 * (counted + requestsCounted (rewardEvents [event])) < 2 ^ 64) :
    Kept (counted + requestsCounted (rewardEvents [event])) (w', fetches') := by
  obtain ⟨steps, rfl⟩ := step
  obtain ⟨running, took⟩ := Steps.took steps
  cases took with
  | rewards earned => exact kept.rewards running earned bounded
  | getRewardStatus =>
    refine ⟨kept.conserved, ?_, kept.latest, ?_, kept.apart, ?_⟩
    · simpa [StatusPoint.holdsFetch] using kept.alone
    · exact kept.stamped.imp_right fun ⟨pending, now, balance, member⟩ =>
        ⟨pending, now, balance, Multiset.mem_cons_of_mem member⟩
    · exact Multiset.forall_mem_cons.mpr ⟨trivial, kept.fits⟩
  | advance stands free ok => exact kept.advance stands free ok
  | @panics point reads halt free error =>
    have same : note w (.advance point reads) fetches = fetches := by
      cases point with
      | stores pending now balance => cases error
      | _ => rfl
    rw [same]
    exact ⟨kept.conserved, kept.alone, kept.latest, kept.stamped, kept.apart, kept.fits⟩

theorem kept_run {x : WalletWorld × List Fetch} (run : Run FetchSteps (.new, []) events x)
    (bounded : 100 * requestsCounted (rewardEvents events) < 2 ^ 64) :
    Kept (requestsCounted (rewardEvents events)) x := by
  let J (done : List WalletEvent) (x : WalletWorld × List Fetch) : Prop :=
    100 * requestsCounted (rewardEvents done) < 2 ^ 64 →
      Kept (requestsCounted (rewardEvents done)) x
  have keeps (done : List WalletEvent) (x : WalletWorld × List Fetch) (event : WalletEvent)
      (x' : WalletWorld × List Fetch) (before : J done x) (step : FetchSteps x event x') :
      J (done ++ [event]) x' := by
    intro bounded
    have joined : requestsCounted (rewardEvents (done ++ [event])) =
        requestsCounted (rewardEvents done) + requestsCounted (rewardEvents [event]) := by
      rw [rewardEvents, List.filterMap_append]
      exact List.count_append
    rw [joined] at bounded ⊢
    have earlier : 100 * requestsCounted (rewardEvents done) < 2 ^ 64 := by omega
    exact (before earlier).step step bounded
  have start : J [] (.new, []) := fun _ => kept_new
  exact run.history keeps start bounded

/-- Under every schedule the fetches of the balance are thirty seconds apart, by the readings of
the calls that make them, and at most one call has a fetch under way. A call that finds the last
fetch young takes the balance of that fetch. -/
theorem balance_fetches_apart (events : List WalletEvent) (w : WalletWorld) (fetches : List Fetch)
    (run : Run FetchSteps (.new, []) events (w, fetches))
    (bounded : 100 * requestsCounted (rewardEvents events) < 2 ^ 64) :
    fetches.Pairwise (fun later earlier => earlier.now + 30 ≤ later.now) ∧
      holders w.statuses ≤ 1 ∧
      ∀ pending now, .readsConfirmed pending now ∈ w.statuses →
        w.rewards.tracker.confirmedBalance = lastBalance fetches ∧
          lastTime fetches ≤ now ∧ now < lastTime fetches + 30 := by
  have kept := kept_run run bounded
  refine ⟨kept.apart, kept.alone, fun pending now member => ?_⟩
  obtain ⟨_, passed, young⟩ := kept.fits _ member
  exact ⟨kept.latest, passed, young⟩

/-- Under every schedule a status that is reported has no more pending lamports, and no more
earned ones, than its requests are worth, and a balance that the node answered, or zero. -/
theorem reports_are_backed (events : List WalletEvent) (w : WalletWorld) (fetches : List Fetch)
    (run : Run FetchSteps (.new, []) events (w, fetches))
    (bounded : 100 * requestsCounted (rewardEvents events) < 2 ^ 64) (status : RewardStatus)
    (reported : .reported status ∈ w.statuses) :
    status.pendingLamports ≤ 100 * status.sessionRequests ∧
      status.lifetimeEarnedLamports ≤ 100 * status.sessionRequests ∧
      Answered fetches status.confirmedWalletBalanceLamports :=
  (kept_run run bounded).fits _ reported

/-! One request, and a status call whose balance the node answers. Another status call finds that
balance young. -/

def reads (now : Nat) : StatusReads := ⟨now, some 5, false⟩

def walletCalls : List WalletEvent :=
  [.rewards .recordRequest, .rewards (.advance .counts), .rewards (.advance .adds),
    .getRewardStatus, .getRewardStatus, .advance .readsPending (reads 0),
    .advance (.readsClock 100) (reads 1000), .advance (.wantsFetch 100 1000) (reads 0),
    .advance .readsPending (reads 0), .advance (.readsClock 100) (reads 1010),
    .advance (.posts 100 1000) (reads 0), .advance (.stores 100 1000 5) (reads 0),
    .advance (.stamps 100 1000 5) (reads 0), .advance (.wantsFetch 100 1010) (reads 0),
    .advance (.readsLifetime 100 5) (reads 0), .advance (.readsSession 100 5 0) (reads 0),
    .advance (.readsSettlement 100 5 0 1) (reads 1011)]

def walletStatus : RewardStatus := ⟨100, 5, 0, 1, 100, 2589⟩

theorem walletCalls_run : ∃ w, Run FetchSteps (.new, []) walletCalls (w, [⟨1000, 5⟩]) ∧
    .reported walletStatus ∈ w.statuses ∧ .readsConfirmed 100 1010 ∈ w.statuses := by
  refine ⟨_, .cons (traced_of rfl _) <| .cons (traced_of rfl _) <|
    .cons (traced_of rfl _) <| .cons (traced_of rfl _) <| .cons (traced_of rfl _) <|
    .cons (traced_of rfl _) <| .cons (traced_of rfl _) <| .cons (traced_of rfl _) <|
    .cons (traced_of rfl _) <| .cons (traced_of rfl _) <| .cons (traced_of rfl _) <|
    .cons (traced_of rfl _) <| .cons (traced_of rfl _) <| .cons (traced_of rfl _) <|
    .cons (traced_of rfl _) <| .cons (traced_of rfl _) <| .cons (traced_of rfl _) <| .nil _, ?_, ?_⟩
  · decide
  · decide

theorem balance_fetches_apart_walletCalls : ∃ w,
    Run FetchSteps (.new, []) walletCalls (w, [⟨1000, 5⟩]) ∧ holders w.statuses ≤ 1 ∧
      w.rewards.tracker.confirmedBalance = lastBalance [⟨1000, 5⟩] := by
  obtain ⟨w, run, _, young⟩ := walletCalls_run
  obtain ⟨_, alone, cached⟩ := balance_fetches_apart walletCalls w _ run (by decide)
  exact ⟨w, run, alone, (cached 100 1010 young).1⟩

theorem reports_are_backed_walletCalls : ∃ w,
    Run FetchSteps (.new, []) walletCalls (w, [⟨1000, 5⟩]) ∧ .reported walletStatus ∈ w.statuses ∧
      walletStatus.pendingLamports ≤ 100 * walletStatus.sessionRequests ∧
      Answered [⟨1000, 5⟩] walletStatus.confirmedWalletBalanceLamports := by
  obtain ⟨w, run, reported, _⟩ := walletCalls_run
  obtain ⟨pending, _, confirmed⟩ :=
    reports_are_backed walletCalls w _ run (by decide) walletStatus reported
  exact ⟨w, run, reported, pending, confirmed⟩

/-! No schedule blocks. -/

/-- The steps that the calls in progress have left, and the panic that may end the daemon. -/
def stepsLeft (w : WalletWorld) : Nat :=
  RewardWorld.stepsLeft w.rewards.calls + (w.statuses.map fun point => point.stepsLeft).sum +
    if w.rewards.halted = none then 1 else 0

theorem act_stepsLeft {point next : StatusPoint} {s tracker : WalletRewardTracker}
    {reads : StatusReads} (free : w.free point = true)
    (ok : point.act s reads = .ok (tracker, next)) : next.stepsLeft < point.stepsLeft := by
  cases point with
  | reported status => cases free
  | wantsFetch pending now =>
    obtain ⟨age, _, same⟩ := bind_ok_iff.mp ok
    obtain ⟨_, rfl⟩ := Prod.mk.inj (Except.ok.inj same)
    split <;> simp [StatusPoint.stepsLeft]
  | posts pending now =>
    unfold StatusPoint.act at ok
    cases replied : reads.reply with
    | none =>
      rw [replied] at ok
      obtain ⟨_, rfl⟩ := Prod.mk.inj (Except.ok.inj ok)
      simp [StatusPoint.stepsLeft]
    | some balance =>
      rw [replied] at ok
      obtain ⟨_, rfl⟩ := Prod.mk.inj (Except.ok.inj ok)
      simp [StatusPoint.stepsLeft]
  | _ =>
    obtain ⟨_, rfl⟩ := Prod.mk.inj (Except.ok.inj ok)
    simp [StatusPoint.stepsLeft]

theorem rewards_stepsLeft {v v' : RewardWorld} {point : RewardPoint} (running : v.halted = none)
    (step : v.Steps (.advance point) v') :
    RewardWorld.stepsLeft v'.calls + (if v'.halted = none then 1 else 0) <
      RewardWorld.stepsLeft v.calls + if v.halted = none then 1 else 0 := by
  cases step.took with
  | @advance point rest tracker stands ok =>
    have fewer := RewardWorld.stepsLeft_next point rest
    rw [stands]
    exact Nat.add_lt_add_right fewer _
  | panics stands error => simp [running]

theorem stepsLeft_step (step : w.Steps event w') (inProgress : event.isStep = true) :
    w'.stepsLeft < w.stepsLeft := by
  obtain ⟨running, took⟩ := Steps.took step
  cases took with
  | @rewards event rewards earned =>
    cases event with
    | advance point =>
      have fewer := rewards_stepsLeft running earned
      simp only [stepsLeft]
      omega
    | _ => cases inProgress
  | getRewardStatus => cases inProgress
  | @advance point next reads rest tracker stands free ok =>
    have fewer := act_stepsLeft free ok
    simp only [stepsLeft, stands, Multiset.map_cons, Multiset.sum_cons]
    omega
  | panics free error => simp [stepsLeft, running]

theorem run_stepsLeft (run : Run Steps w events w')
    (inProgress : ∀ event ∈ events, event.isStep = true) :
    events.length + w'.stepsLeft ≤ w.stepsLeft := by
  induction run with
  | nil w => simp
  | cons step rest ih =>
    obtain ⟨own, others⟩ := List.forall_mem_cons.mp inProgress
    have fewer := stepsLeft_step step own
    have later := ih others
    rw [List.length_cons]
    omega

theorem exists_step_of_free {point : StatusPoint} (running : w.rewards.halted = none)
    (member : point ∈ w.statuses) (free : w.free point = true) (reads : StatusReads) :
    ∃ w', w.Steps (.advance point reads) w' := by
  cases outcome : point.act w.rewards.tracker reads with
  | error halt =>
    exact ⟨{ w with rewards := { w.rewards with halted := some halt } }, by
      simp [Steps, WalletWorld.step, running, member, free, outcome]⟩
  | ok after =>
    exact ⟨⟨{ w.rewards with tracker := after.1 }, after.2 ::ₘ w.statuses.erase point⟩, by
      simp [Steps, WalletWorld.step, running, member, free, outcome]⟩

theorem exists_rewards_step {point : RewardPoint} (running : w.rewards.halted = none)
    (member : point ∈ w.rewards.calls) (free : w.rewards.free point = true) :
    ∃ w', w.Steps (.rewards (.advance point)) w' := by
  cases outcome : point.act w.rewards.tracker with
  | error halt =>
    exact ⟨{ w with rewards := { w.rewards with halted := some halt } }, by
      simp [Steps, WalletWorld.step, RewardWorld.step, running, member, free, outcome]⟩
  | ok tracker =>
    exact ⟨{ w with rewards := { w.rewards with
        tracker, calls := w.rewards.calls.erase point + point.next } }, by
      simp [Steps, WalletWorld.step, RewardWorld.step, running, member, free, outcome]⟩

/-- A status call that is not done can go on, or it waits for one that can. -/
theorem exists_free_status {point : StatusPoint} (idle : w.rewards.calls = 0)
    (member : point ∈ w.statuses) (busy : ∀ status, point ≠ .reported status) :
    ∃ other ∈ w.statuses, w.free other = true := by
  by_cases free : w.free point = true
  · exact ⟨point, member, free⟩
  · cases point with
    | readsPending => exact absurd (by simp [WalletWorld.free, idle]) free
    | wantsFetch pending now =>
      have held : 0 < holders w.statuses :=
        Nat.pos_of_ne_zero fun none => free (decide_eq_true none)
      obtain ⟨other, member, holds⟩ := Multiset.countP_pos.mp held
      refine ⟨other, member, ?_⟩
      cases other <;> first | rfl | cases holds
    | reported status => exact absurd rfl (busy status)
    | _ => exact absurd rfl free

/-- No schedule blocks: once no more calls come, only so many steps are left, and when none can be
taken every call has returned, unless a panic ended the daemon. -/
theorem calls_return (w w' : WalletWorld) (events : List WalletEvent)
    (run : Run Steps w events w') (inProgress : ∀ event ∈ events, event.isStep = true) :
    events.length ≤ w.stepsLeft ∧
      ((∀ event after, event.isStep = true → ¬ w'.Steps event after) →
        w'.rewards.halted ≠ none ∨ w'.rewards.calls = 0 ∧
          ∀ point ∈ w'.statuses, ∃ status, point = .reported status) := by
  have fewer := run_stepsLeft run inProgress
  refine ⟨by omega, fun stuck => or_iff_not_imp_left.mpr fun running => ?_⟩
  rw [not_not] at running
  have idle : w'.rewards.calls = 0 := by
    by_contra busy
    obtain ⟨point, member, free⟩ := RewardWorld.exists_free busy
    obtain ⟨after, step⟩ := exists_rewards_step running member free
    exact stuck _ after rfl step
  refine ⟨idle, fun point member => ?_⟩
  by_contra busy
  rw [not_exists] at busy
  obtain ⟨other, stands, free⟩ := exists_free_status idle member busy
  obtain ⟨after, step⟩ := exists_step_of_free running stands free ⟨0, none, false⟩
  exact stuck _ after rfl step

/-- A status call and a settlement that waits for nothing. -/
theorem calls_return_settlement :
    let w : WalletWorld := ⟨⟨.new, {.settles}, none⟩, {.readsPending}⟩
    ∃ w', Run Steps w [.rewards (.advance .settles), .advance .readsPending (reads 0)] w' ∧
      2 ≤ w.stepsLeft := by
  intro w
  have run : Run Steps w [.rewards (.advance .settles), .advance .readsPending (reads 0)] _ :=
    .cons rfl <| .cons rfl <| .nil _
  exact ⟨_, run, (calls_return w _ _ run (by decide)).1⟩

end WalletWorld

end Solnet.Daemon
