import Solnet.Daemon.Forwarding
import Solnet.Daemon.Onion
import Solnet.Daemon.RateLimits

/-! Clients behind the exit of an onion route. The exit hands every request to the RPC
handler under one address, so the clients share a counter and a ban. -/
namespace Solnet.Daemon
open Runs Fallible

structure ExitRequest (C : Type) where
  client : C
  onion : OnionRequest
  peerRegistry : String → Option String
  env : Env

/-- What the checks before the body make of a request. -/
inductive ExitVerdict where
  | throttled
  | refused
  | passed
  deriving DecidableEq, Repr

structure ExitEvent (C : Type) where
  arrival : ExitRequest C
  verdict : ExitVerdict

/-- A ban answers 403 and the rate limit 429. -/
def exitVerdict : Option Response → ExitVerdict
  | none => .passed
  | some response =>
    if response.status = 403 ∨ response.status = 429 then .refused else .throttled

variable {C : Type} {lib : Serde} {crypto : OnionCrypto} {router : OnionRouter}

/-- The request that the exit path makes, with the client's address replaced. -/
def ExitRequest.request (crypto : OnionCrypto) (router : OnionRouter) (arrival : ExitRequest C) :
    Option Request :=
  match onionHandler crypto router arrival.peerRegistry arrival.onion with
  | .rpc forwardedFor body => some ⟨none, some forwardedFor, ⟨body.toArray⟩⟩
  | _ => none

/-- The checks alone, on a request of the exit path. -/
def Screens (crypto : OnionCrypto) (router : OnionRouter) (s : SharedState) (event : ExitEvent C)
    (s' : SharedState) : Prop :=
  ∃ req battery prevention refusal, event.arrival.request crypto router = some req ∧
    screenClient event.arrival.env s req = .ok (battery, prevention, refusal) ∧
    event.verdict = exitVerdict refusal ∧
    s' = { s with batteryGuard := battery, attackPrevention := prevention }

/-- A request of the exit path goes through the RPC handler. -/
def Exits (lib : Serde) (crypto : OnionCrypto) (router : OnionRouter) (s : SharedState)
    (event : ExitEvent C) (s' : SharedState) : Prop :=
  ∃ req battery prevention refusal h, event.arrival.request crypto router = some req ∧
    screenClient event.arrival.env s req = .ok (battery, prevention, refusal) ∧
    event.verdict = exitVerdict refusal ∧
    rpcHandler lib event.arrival.env s req = .ok h ∧ s' = h.state

def SharedState.unlimited (s : SharedState) : SharedState := { s with attackPrevention := .new }

/-- The verdicts on the requests of each client are those that the client gets alone. -/
def Isolated [DecidableEq C] (crypto : OnionCrypto) (router : OnionRouter) (s : SharedState)
    (events : List (ExitEvent C)) : Prop :=
  ∀ client, ∃ u, Run (Screens crypto router) s
    (events.filter fun event => event.arrival.client = client) u

def ExitEvent.readings (event : ExitEvent C) : List Nat :=
  [event.arrival.env.banCheckSecs, event.arrival.env.rateSecs, event.arrival.env.banSecs]

/-- The requests among `done` that the limiter counted at `since` or later. -/
def countedSince (since : Nat) (done : List (ExitEvent C)) : Nat :=
  done.countP fun event =>
    event.verdict ≠ .throttled && since ≤ event.arrival.env.rateSecs

/-- Each request finds fewer than a hundred others in its last minute. -/
def Quiet (events : List (ExitEvent C)) : Prop :=
  ∀ before event after, events = before ++ event :: after →
    countedSince (event.arrival.env.rateSecs - 60) before < 100

def OneClient (events : List (ExitEvent C)) : Prop :=
  ∃ client, ∀ event ∈ events, event.arrival.client = client

/-! The rest of the handler leaves the limiter alone. -/

/-- The same battery and the same limiter. -/
structure SameChecks (s s' : SharedState) : Prop where
  battery : s'.batteryGuard = s.batteryGuard
  requests : s'.attackPrevention.ipRequests = s.attackPrevention.ipRequests
  bans : s'.attackPrevention.bannedIps = s.attackPrevention.bannedIps

variable {env : Env} {s s' t : SharedState} {req : Request} {h : Handled} {bodyStr method : String}
  {params rpcReq : Value} {effects : List Effect}

theorem SameChecks.refl (s : SharedState) : SameChecks s s := ⟨rfl, rfl, rfl⟩

theorem SameChecks.after (later : SameChecks s' t) (first : SameChecks s s') : SameChecks s t :=
  ⟨later.battery.trans first.battery, later.requests.trans first.requests,
    later.bans.trans first.bans⟩

theorem recordRequest_checks (ok : recordRequest s = .ok s') : SameChecks s s' := by
  obtain ⟨_, rfl⟩ := recordRequest_ok ok
  exact ⟨rfl, rfl, rfl⟩

theorem serveCached_checks {cached : Value} (ok : serveCached env s method cached = .ok h) :
    SameChecks s h.state := by
  simp only [serveCached, bind_ok_iff, pure, Except.pure, Except.ok.injEq] at ok
  obtain ⟨engine, _, after, recorded, rfl⟩ := ok
  exact (recordRequest_checks recorded).after ⟨rfl, rfl, rfl⟩

theorem interceptGetSlot_checks
    (ok : interceptGetSlot lib env s method params rpcReq effects = .ok h) :
    SameChecks s h.state := by
  simp only [interceptGetSlot, bind_ok_iff, pure, Except.pure, Except.ok.injEq] at ok
  obtain ⟨engine, _, after, recorded, rfl⟩ := ok
  exact (recordRequest_checks recorded).after ⟨rfl, rfl, rfl⟩

theorem postUpstream_checks {upstreamRpc : String}
    (ok : postUpstream lib env s upstreamRpc method params effects = .ok h) :
    SameChecks s h.state := by
  cases postUpstream_steps ok with
  | unsent reply failed => exact ⟨rfl, rfl, rfl⟩
  | unread reply recorded succeeded => exact ⟨rfl, rfl, rfl⟩
  | unparsed reply recorded succeeded reward read =>
    exact (recordRequest_checks reward).after ⟨rfl, rfl, rfl⟩
  | @replied _ _ _ _ _ rewarded reply recorded succeeded reward read =>
    have same : SameChecks s rewarded := (recordRequest_checks reward).after ⟨rfl, rfl, rfl⟩
    exact ⟨same.battery, same.requests, same.bans⟩

theorem forwardUpstream_checks
    (ok : forwardUpstream lib env s bodyStr method params effects = .ok h) :
    SameChecks s h.state := by
  cases forwardUpstream_steps ok with
  | refused tripped => exact .refl s
  | blocked closed selection verification => exact ⟨rfl, rfl, rfl⟩
  | posts closed selection verification posted =>
    exact (postUpstream_checks posted).after ⟨rfl, rfl, rfl⟩

theorem processRequest_checks
    (ok : processRequest lib env s bodyStr method params rpcReq effects = .ok h) :
    SameChecks s h.state := by
  unfold processRequest at ok
  split at ok
  · exact (interceptGetSlot_checks ok).after ⟨rfl, rfl, rfl⟩
  · exact (forwardUpstream_checks ok).after ⟨rfl, rfl, rfl⟩

theorem handleUncached_checks (ok : handleUncached lib env s req bodyStr rpcReq = .ok h) :
    SameChecks s h.state := by
  cases handleUncached_steps ok with
  | delivered found delivered => exact ⟨rfl, rfl, rfl⟩
  | stays stays meshed processed => exact (processRequest_checks processed).after ⟨rfl, rfl, rfl⟩

theorem rpcHandler_checks {battery : BatteryGuard} {prevention : AttackPrevention}
    {refusal : Option Response} (ok : rpcHandler lib env s req = .ok h)
    (screened : screenClient env s req = .ok (battery, prevention, refusal)) :
    SameChecks { s with batteryGuard := battery, attackPrevention := prevention } h.state := by
  cases rpcHandler_steps ok with
  | screened screening =>
    obtain ⟨rfl, rfl, _⟩ := Prod.mk.inj (Except.ok.inj (screening.symm.trans screened))
    exact .refl _
  | unread screening unread =>
    obtain ⟨rfl, rfl, _⟩ := Prod.mk.inj (Except.ok.inj (screening.symm.trans screened))
    exact .refl _
  | cached screening parsed lookup serves =>
    obtain ⟨rfl, rfl, _⟩ := Prod.mk.inj (Except.ok.inj (screening.symm.trans screened))
    exact (serveCached_checks serves).after ⟨rfl, rfl, rfl⟩
  | uncached screening parsed lookup handles =>
    obtain ⟨rfl, rfl, _⟩ := Prod.mk.inj (Except.ok.inj (screening.symm.trans screened))
    exact (handleUncached_checks handles).after ⟨rfl, rfl, rfl⟩

/-! The checks on a request of the exit path. -/

def anonRouted : String := "anon-routed"

theorem request_address {arrival : ExitRequest C}
    (made : arrival.request crypto router = some req) : extractIp req = anonRouted := by
  have fixed : ∀ body, extractIp ⟨none, some "anon-routed", body⟩ = anonRouted := fun _ => rfl
  unfold ExitRequest.request onionHandler at made
  split at made
  · rename_i forwardedFor body handed
    obtain rfl := Option.some.inj made
    split at handed
    · cases handed
    · split at handed
      · cases handed
      · split at handed
        · obtain ⟨rfl, rfl⟩ := OnionAnswer.rpc.inj handed
          exact fixed _
        · split at handed
          · cases handed
          · obtain ⟨rfl, rfl⟩ := OnionAnswer.rpc.inj handed
            exact fixed _
  · cases made

/-- Whether the guard accepts: its flag plays no part. -/
def BatteryGuard.accepts (s : BatteryGuard) (now : Nat) : Bool :=
  !s.batteryMode || s.isCharging || 40 ≤ s.batteryLevel || (20 ≤ s.batteryLevel && now % 2 = 0)

def BatteryGuard.settled (s : BatteryGuard) : BatteryGuard := { s with throttled := false }

theorem shouldAcceptRequest_settled (s : BatteryGuard) (now : Nat) :
    (s.shouldAcceptRequest now).1.settled = s.settled ∧
      (s.shouldAcceptRequest now).2 = s.settled.accepts now := by
  obtain ⟨batteryMode, batteryLevel, isCharging, throttled⟩ := s
  constructor
  · simp only [BatteryGuard.shouldAcceptRequest, BatteryGuard.settled]
    split_ifs <;> rfl
  · simp only [BatteryGuard.shouldAcceptRequest, BatteryGuard.settled, BatteryGuard.accepts]
    split_ifs with plugged charging empty low
    · simp [plugged]
    · simp [charging]
    · simp [plugged, charging, Nat.not_le.mpr empty, Nat.not_le.mpr (empty.trans_le _)]
    · simp [plugged, charging, Nat.not_le.mpr low, Nat.not_lt.mp empty]
    · simp [Nat.not_lt.mp low]

def throttledResponse : Response :=
  .of 503 <| .json <| .object
    [("error", .string "node throttled — low battery"), ("retry_after", .number (.int 30))]

def rateRefusal : RateResult → Option Response
  | .banned => some (.of 403 (.text "IP Banned for abuse"))
  | .limited retryAfter => some ⟨429, .text "Rate limit exceeded", some retryAfter⟩
  | .allowed => none

/-- The ban check and the rate limit, one after the other. -/
def checkClient (env : Env) (p : AttackPrevention) (ip : String) :
    Checked (AttackPrevention × RateResult) :=
  match p.isBanned ip env.banCheckSecs with
  | (p, true) => .ok (p, .banned)
  | (p, false) => p.checkRateLimit ip env.rateSecs env.banSecs

theorem screenClient_eq : screenClient env s req =
    if (s.batteryGuard.shouldAcceptRequest env.batterySecs).2 then do
      let (prevention, result) ← checkClient env s.attackPrevention (extractIp req)
      return ((s.batteryGuard.shouldAcceptRequest env.batterySecs).1, prevention,
        rateRefusal result)
    else .ok ((s.batteryGuard.shouldAcceptRequest env.batterySecs).1, s.attackPrevention,
      some throttledResponse) := by
  have trusted : ¬ validateHost (req.host.getD "unknown") s.config = false := by
    rw [validateHost_true]
    exact Bool.noConfusion
  rcases guarded : s.batteryGuard.shouldAcceptRequest env.batterySecs with ⟨battery, accepted⟩
  cases accepted with
  | false =>
    simp only [screenClient, guarded]
    rfl
  | true =>
    simp only [screenClient, guarded, if_neg trusted, checkClient]
    rcases s.attackPrevention.isBanned (extractIp req) env.banCheckSecs with ⟨prevention, banned⟩
    cases banned with
    | true => rfl
    | false =>
      refine congrArg (_ >>= ·) (funext fun checked => ?_)
      cases checked.2 <;> rfl

theorem checkClient_congr {p p' q : AttackPrevention} {ip : String} {result : RateResult}
    (requests : q.ipRequests = p.ipRequests) (bans : q.bannedIps = p.bannedIps)
    (ok : checkClient env p ip = .ok (p', result)) :
    ∃ q', checkClient env q ip = .ok (q', result) ∧ q'.ipRequests = p'.ipRequests ∧
      q'.bannedIps = p'.bannedIps := by
  unfold checkClient AttackPrevention.isBanned at ok ⊢
  rw [bans]
  cases stored : p.bannedIps.lookup ip with
  | none =>
    simp only [stored] at ok ⊢
    obtain ⟨record, touched, fits, rfl, rfl⟩ := AttackPrevention.checkRateLimit_ok_iff.mp ok
    rw [← requests] at touched
    refine ⟨_, AttackPrevention.checkRateLimit_ok_iff.mpr ⟨record, touched, fits, rfl, rfl⟩, ?_, ?_⟩
    · simp only [AttackPrevention.afterCheck, requests]
    · simp only [AttackPrevention.afterCheck, bans]
  | some expiry =>
    by_cases stands : env.banCheckSecs < expiry
    · simp only [stored, if_pos stands, Except.ok.injEq, Prod.mk.injEq] at ok ⊢
      obtain ⟨rfl, rfl⟩ := ok
      exact ⟨q, ⟨rfl, rfl⟩, requests, bans⟩
    · simp only [stored, if_neg stands] at ok ⊢
      obtain ⟨record, touched, fits, rfl, rfl⟩ := AttackPrevention.checkRateLimit_ok_iff.mp ok
      dsimp only at touched
      rw [← requests] at touched
      refine ⟨_, AttackPrevention.checkRateLimit_ok_iff.mpr ⟨record, touched, fits, rfl, rfl⟩,
        ?_, ?_⟩
      · simp only [AttackPrevention.afterCheck, requests]
      · simp only [AttackPrevention.afterCheck]

/-- The checks see no difference. -/
structure SameScreen (s t : SharedState) : Prop where
  battery : t.batteryGuard.settled = s.batteryGuard.settled
  requests : t.attackPrevention.ipRequests = s.attackPrevention.ipRequests
  bans : t.attackPrevention.bannedIps = s.attackPrevention.bannedIps

theorem screenClient_congr {battery : BatteryGuard} {prevention : AttackPrevention}
    {refusal : Option Response} (same : SameScreen s t)
    (ok : screenClient env s req = .ok (battery, prevention, refusal)) :
    ∃ battery' prevention', screenClient env t req = .ok (battery', prevention', refusal) ∧
      battery'.settled = battery.settled ∧ prevention'.ipRequests = prevention.ipRequests ∧
      prevention'.bannedIps = prevention.bannedIps := by
  obtain ⟨kept, accepts⟩ := shouldAcceptRequest_settled s.batteryGuard env.batterySecs
  obtain ⟨kept', accepts'⟩ := shouldAcceptRequest_settled t.batteryGuard env.batterySecs
  rw [screenClient_eq, accepts] at ok
  rw [screenClient_eq, accepts', same.battery]
  split at ok
  · rename_i accepted
    simp only [bind_ok_iff, Prod.exists, pure, Except.pure, Except.ok.injEq, Prod.mk.injEq] at ok
    obtain ⟨prevention, result, checked, rfl, rfl, rfl⟩ := ok
    obtain ⟨prevention', checked', requests, bans⟩ :=
      checkClient_congr same.requests same.bans checked
    refine ⟨(t.batteryGuard.shouldAcceptRequest env.batterySecs).1, prevention', ?_,
      kept'.trans (same.battery.trans kept.symm), requests, bans⟩
    rw [if_pos accepted, checked']
    rfl
  · rename_i low
    obtain ⟨rfl, untouched⟩ := Prod.mk.inj (Except.ok.inj ok)
    obtain ⟨rfl, rfl⟩ := Prod.mk.inj untouched
    exact ⟨_, _, if_neg low, kept'.trans (same.battery.trans kept.symm), same.requests, same.bans⟩

theorem Screens.congr {event : ExitEvent C} (same : SameScreen s t)
    (step : Screens crypto router s event s') :
    ∃ t', Screens crypto router t event t' ∧ SameScreen s' t' := by
  obtain ⟨req, battery, prevention, refusal, made, screened, verdict, rfl⟩ := step
  obtain ⟨battery', prevention', screened', settled, requests, bans⟩ :=
    screenClient_congr same screened
  exact ⟨_, ⟨req, battery', prevention', refusal, made, screened', verdict, rfl⟩, settled, requests,
    bans⟩

/-- The handler's requests are seen by the limiter as the checks alone would see them. -/
theorem exits_screen {events : List (ExitEvent C)} {u : SharedState} (same : SameScreen s t)
    (run : Run (Exits lib crypto router) s events u) :
    ∃ v, Run (Screens crypto router) t events v := by
  induction run generalizing t with
  | nil s => exact ⟨t, .nil t⟩
  | @cons s s' u event events step _ ih =>
    obtain ⟨req, battery, prevention, refusal, h, made, screened, verdict, handled, rfl⟩ := step
    have kept := rpcHandler_checks handled screened
    obtain ⟨t', step', after⟩ := Screens.congr same
      ⟨req, battery, prevention, refusal, made, screened, verdict, rfl⟩
    have after' : SameScreen h.state t' := ⟨by rw [after.battery, kept.battery],
      after.requests.trans kept.requests.symm, after.bans.trans kept.bans.symm⟩
    obtain ⟨v, rest⟩ := ih after'
    exact ⟨v, .cons step' rest⟩

/-! Quiet runs: nobody is refused, alone or not. -/

/-- The verdict when nobody is refused. -/
def quietVerdict (battery : BatteryGuard) (arrival : ExitRequest C) : ExitVerdict :=
  if battery.settled.accepts arrival.env.batterySecs then .passed else .throttled

/-- The shared counter counts at most the requests since its window began. -/
structure Counts (battery : BatteryGuard) (done : List (ExitEvent C)) (s : SharedState) :
    Prop where
  settled : s.batteryGuard.settled = battery.settled
  unbanned : s.attackPrevention.bannedIps.lookup anonRouted = none
  started : ∀ record, s.attackPrevention.ipRequests.lookup anonRouted = some record →
    ∃ event ∈ done, record.windowStart = event.arrival.env.rateSecs
  counted : ∀ record, s.attackPrevention.ipRequests.lookup anonRouted = some record →
    record.count ≤ 100 ∧ record.count ≤ countedSince record.windowStart done

theorem countedSince_append (since : Nat) (done : List (ExitEvent C)) (event : ExitEvent C) :
    countedSince since done ≤ countedSince since (done ++ [event]) := by
  rw [countedSince, countedSince, List.countP_append]
  exact Nat.le_add_right _ _

theorem countedSince_append_self {since : Nat} (done : List (ExitEvent C)) {event : ExitEvent C}
    (counted : event.verdict ≠ .throttled) (recent : since ≤ event.arrival.env.rateSecs) :
    countedSince since (done ++ [event]) = countedSince since done + 1 := by
  rw [countedSince, countedSince, List.countP_append, List.countP_singleton]
  simp [counted, recent]

theorem countedSince_anti {since since' : Nat} (later : since ≤ since')
    (done : List (ExitEvent C)) : countedSince since' done ≤ countedSince since done := by
  apply List.countP_mono_left
  intro event _ counted
  simp only [Bool.and_eq_true, decide_eq_true_eq] at counted ⊢
  exact ⟨counted.1, later.trans counted.2⟩

/-- A count goes on in its window, or begins anew. -/
theorem touch_cases {stored : Option IpRecord} {now : Nat} {record : IpRecord}
    (ok : AttackPrevention.touch stored now = .ok record) :
    record.windowStart = now ∧ record.count = 1 ∨
      ∃ old, stored = some old ∧ now - old.windowStart ≤ 60 ∧ old.windowStart ≤ now ∧
        record.windowStart = old.windowStart ∧ record.count = old.count + 1 := by
  simp only [AttackPrevention.touch, bind_ok_iff, checkedSub, subWithin_ok_iff, checkedAdd,
    addWithin_ok_iff, pure, Except.pure, Except.ok.injEq] at ok
  obtain ⟨_, ⟨ordered, rfl⟩, _, ⟨_, rfl⟩, rfl⟩ := ok
  cases stored with
  | none => simp
  | some old =>
    by_cases late : 60 < now - old.windowStart
    · simp [late]
    · refine .inr ⟨old, rfl, Nat.not_lt.mp late, ordered, ?_, ?_⟩
      · simp [late]
      · simp [late]

theorem Counts.kept {battery : BatteryGuard} {done : List (ExitEvent C)}
    (counts : Counts battery done s) (event : ExitEvent C)
    (settled : s'.batteryGuard.settled = battery.settled)
    (same : s'.attackPrevention = s.attackPrevention) : Counts battery (done ++ [event]) s' where
  settled := settled
  unbanned := same ▸ counts.unbanned
  started record found := by
    rw [same] at found
    obtain ⟨earlier, member, start⟩ := counts.started record found
    exact ⟨earlier, List.mem_append_left _ member, start⟩
  counted record found := by
    rw [same] at found
    obtain ⟨few, counted⟩ := counts.counted record found
    exact ⟨few, counted.trans (countedSince_append _ done event)⟩

/-- One more request of a quiet minute is counted and allowed. -/
theorem Counts.touched {battery : BatteryGuard} {done : List (ExitEvent C)}
    {arrival : ExitRequest C} (counts : Counts battery done s)
    (ordered : ∀ event ∈ done, event.arrival.env.rateSecs ≤ arrival.env.rateSecs)
    (quiet : countedSince (arrival.env.rateSecs - 60) done < 100) :
    ∃ record, AttackPrevention.touch (s.attackPrevention.ipRequests.lookup anonRouted)
        arrival.env.rateSecs = .ok record ∧ record.count ≤ 100 ∧
      (∃ event ∈ done ++ [⟨arrival, .passed⟩], record.windowStart = event.arrival.env.rateSecs) ∧
      record.count ≤ countedSince record.windowStart (done ++ [⟨arrival, .passed⟩]) := by
  have here : (⟨arrival, .passed⟩ : ExitEvent C) ∈ done ++ [⟨arrival, .passed⟩] :=
    List.mem_append_right _ (List.mem_singleton.mpr rfl)
  obtain ⟨record, touched, _⟩ := AttackPrevention.touch_answers (n := 100) (by decide)
    fun record stored => by
      obtain ⟨event, member, start⟩ := counts.started record stored
      exact ⟨start ▸ ordered event member, (counts.counted record stored).1⟩
  refine ⟨record, touched, ?_⟩
  rcases touch_cases touched with ⟨start, once⟩ | ⟨old, stored, young, begun, start, counted⟩
  · refine ⟨by omega, ⟨_, here, start⟩, ?_⟩
    rw [countedSince_append_self done (by simp) start.le]
    omega
  · obtain ⟨_, few⟩ := counts.counted old stored
    obtain ⟨event, member, first⟩ := counts.started old stored
    have recent : countedSince old.windowStart done ≤
        countedSince (arrival.env.rateSecs - 60) done := countedSince_anti (by omega) done
    refine ⟨by omega, ⟨event, List.mem_append_left _ member, start.trans first⟩, ?_⟩
    rw [countedSince_append_self done (by simp) (start ▸ begun), start]
    omega

theorem counts_step {battery : BatteryGuard} {done : List (ExitEvent C)} {arrival : ExitRequest C}
    (counts : Counts battery done s) (made : arrival.request crypto router = some req)
    (ordered : ∀ event ∈ done, event.arrival.env.rateSecs ≤ arrival.env.rateSecs)
    (quiet : countedSince (arrival.env.rateSecs - 60) done < 100) :
    ∃ s', Screens crypto router s ⟨arrival, quietVerdict battery arrival⟩ s' ∧
      Counts battery (done ++ [⟨arrival, quietVerdict battery arrival⟩]) s' := by
  obtain ⟨kept, accepts⟩ := shouldAcceptRequest_settled s.batteryGuard arrival.env.batterySecs
  rw [counts.settled] at accepts
  have screened : screenClient arrival.env s req = _ := screenClient_eq
  rw [accepts, request_address made] at screened
  unfold quietVerdict
  cases accepted : battery.settled.accepts arrival.env.batterySecs with
  | false =>
    rw [accepted, if_neg Bool.false_ne_true] at screened
    rw [if_neg Bool.false_ne_true]
    exact ⟨_, ⟨req, _, _, _, made, screened, rfl, rfl⟩,
      counts.kept _ (kept.trans counts.settled) rfl⟩
  | true =>
    obtain ⟨record, touched, few, started, counted⟩ := counts.touched ordered quiet
    have checked : checkClient arrival.env s.attackPrevention anonRouted =
        .ok (s.attackPrevention.afterCheck anonRouted record arrival.env.banSecs, .allowed) := by
      rw [checkClient, AttackPrevention.isBanned, counts.unbanned]
      refine AttackPrevention.checkRateLimit_ok_iff.mpr ⟨record, touched, by omega, ?_, rfl⟩
      rw [AttackPrevention.rateResult, if_neg (by omega), if_neg (by omega)]
    rw [accepted, if_pos rfl, checked] at screened
    rw [if_pos rfl]
    refine ⟨_, ⟨req, _, _, _, made, screened, rfl, rfl⟩, kept.trans counts.settled, ?_, ?_, ?_⟩
    · simp only [AttackPrevention.afterCheck, if_neg (by omega : ¬ 1000 < record.count)]
      exact counts.unbanned
    · intro found stored
      simp only [AttackPrevention.afterCheck, Table.lookup_insert, if_true] at stored
      exact Option.some.inj stored ▸ started
    · intro found stored
      simp only [AttackPrevention.afterCheck, Table.lookup_insert, if_true] at stored
      exact Option.some.inj stored ▸ ⟨few, counted⟩

theorem screens_functional {arrival : ExitRequest C} {verdict verdict' : ExitVerdict}
    (step : Screens crypto router s ⟨arrival, verdict⟩ s')
    (step' : Screens crypto router s ⟨arrival, verdict'⟩ t) : verdict = verdict' ∧ s' = t := by
  obtain ⟨req, battery, prevention, refusal, made, screened, rfl, rfl⟩ := step
  obtain ⟨req', battery', prevention', refusal', made', screened', rfl, rfl⟩ := step'
  obtain rfl := Option.some.inj (made.symm.trans made')
  obtain ⟨rfl, same⟩ := Prod.mk.inj (Except.ok.inj (screened.symm.trans screened'))
  obtain ⟨rfl, rfl⟩ := Prod.mk.inj same
  exact ⟨rfl, rfl⟩

theorem Screens.made {event : ExitEvent C} (step : Screens crypto router s event s') :
    ∃ req, event.arrival.request crypto router = some req := by
  obtain ⟨req, _, _, _, made, _⟩ := step
  exact ⟨req, made⟩

def CalledInOrder (events : List (ExitEvent C)) : Prop :=
  events.Pairwise fun event later => event.arrival.env.rateSecs ≤ later.arrival.env.rateSecs

/-- A request of the exit path that is not refused. -/
def Unrefused (crypto : OnionCrypto) (router : OnionRouter) (battery : BatteryGuard)
    (event : ExitEvent C) : Prop :=
  (∃ req, event.arrival.request crypto router = some req) ∧
    event.verdict = quietVerdict battery event.arrival

theorem quiet_runs {battery : BatteryGuard} {done events : List (ExitEvent C)}
    (counts : Counts battery done s) (quiet : Quiet (done ++ events))
    (ordered : CalledInOrder (done ++ events))
    (unrefused : ∀ event ∈ events, Unrefused crypto router battery event) :
    ∃ u, Run (Screens crypto router) s events u := by
  induction events generalizing done s with
  | nil => exact ⟨s, .nil s⟩
  | cons event events ih =>
    obtain ⟨arrival, verdict⟩ := event
    obtain ⟨⟨req, made⟩, same⟩ := unrefused _ List.mem_cons_self
    obtain rfl : verdict = quietVerdict battery arrival := same
    obtain ⟨s', step, counts'⟩ := counts_step counts made
      (fun earlier member => (List.pairwise_append.mp ordered).2.2 earlier member
        ⟨arrival, _⟩ List.mem_cons_self) (quiet done ⟨arrival, _⟩ events rfl)
    rw [List.append_cons] at quiet ordered
    obtain ⟨u, rest⟩ := ih counts' quiet ordered fun event member =>
      unrefused event (List.mem_cons_of_mem _ member)
    exact ⟨u, .cons step rest⟩

theorem quiet_unrefused {battery : BatteryGuard} {done events : List (ExitEvent C)}
    {u : SharedState} (run : Run (Screens crypto router) s events u)
    (counts : Counts battery done s) (quiet : Quiet (done ++ events))
    (ordered : CalledInOrder (done ++ events)) :
    ∀ event ∈ events, Unrefused crypto router battery event := by
  induction run generalizing done with
  | nil s => exact fun event member => absurd member List.not_mem_nil
  | @cons s s' u event events step _ ih =>
    obtain ⟨arrival, verdict⟩ := event
    obtain ⟨req, made⟩ : ∃ req, arrival.request crypto router = some req := step.made
    obtain ⟨t, step', counts'⟩ := counts_step counts made
      (fun earlier member => (List.pairwise_append.mp ordered).2.2 earlier member
        ⟨arrival, verdict⟩ List.mem_cons_self) (quiet done ⟨arrival, verdict⟩ events rfl)
    obtain ⟨rfl, rfl⟩ := screens_functional step step'
    rw [List.append_cons] at quiet ordered
    intro event member
    rcases List.mem_cons.mp member with rfl | later
    · exact ⟨⟨req, made⟩, rfl⟩
    · exact ih counts' quiet ordered event later

theorem Quiet.filter {events : List (ExitEvent C)} (quiet : Quiet events)
    (mine : ExitEvent C → Bool) : Quiet (events.filter mine) := by
  intro before event after split
  obtain ⟨first, rest, rfl, rfl, others⟩ := List.filter_eq_append_iff.mp split
  obtain ⟨skipped, later, rfl, _, _, _⟩ := List.filter_eq_cons_iff.mp others
  have few := quiet (first ++ skipped) event later (List.append_assoc _ _ _).symm
  refine lt_of_le_of_lt ?_ few
  exact ((List.filter_sublist).trans (List.sublist_append_left first skipped)).countP_le

theorem inOrder_of_readings {events : List (ExitEvent C)}
    (ordered : (events.flatMap ExitEvent.readings).Pairwise (· ≤ ·)) : CalledInOrder events := by
  refine (List.pairwise_flatMap.mp ordered).2.imp fun {event later} passes => ?_
  exact passes _ (by simp [ExitEvent.readings]) _ (by simp [ExitEvent.readings])

theorem unlimited_counts (s : SharedState) : Counts s.batteryGuard ([] : List (ExitEvent C))
    s.unlimited where
  settled := rfl
  unbanned := rfl
  started _ found := nomatch found
  counted _ found := nomatch found

/-- The clients of the exit are isolated in a run that serves one client only, and in one
where each request finds fewer than a hundred others in its last minute. -/
theorem exit_clients_isolated_when_quiet {C : Type} [DecidableEq C] (lib : Serde)
    (crypto : OnionCrypto) (router : OnionRouter) (s u : SharedState)
    (events : List (ExitEvent C)) (run : Run (Exits lib crypto router) s.unlimited events u)
    (ordered : (events.flatMap ExitEvent.readings).Pairwise (· ≤ ·))
    (condition : OneClient events ∨ Quiet events) :
    Isolated crypto router s.unlimited events := by
  obtain ⟨v, screened⟩ := exits_screen ⟨rfl, rfl, rfl⟩ run
  intro client
  rcases condition with ⟨only, one⟩ | quiet
  · by_cases own : only = client
    · have all : events.filter (fun event => event.arrival.client = client) = events :=
        List.filter_eq_self.mpr fun event member => by simp [one event member, own]
      rw [all]
      exact ⟨v, screened⟩
    · have none : events.filter (fun event => event.arrival.client = client) = [] :=
        List.filter_eq_nil_iff.mpr fun event member => by simp [one event member, own]
      rw [none]
      exact ⟨s.unlimited, .nil _⟩
  · have inOrder := inOrder_of_readings ordered
    have unrefused := quiet_unrefused screened (unlimited_counts s) quiet inOrder
    exact quiet_runs (unlimited_counts s) (quiet.filter _)
      (inOrder.sublist List.filter_sublist) fun event member =>
        unrefused event (List.mem_of_mem_filter member)

/-! A client floods the exit with requests, and another one asks once. -/

def blockedText : String := "../"

theorem exit_layer (lawful : crypto.Lawful) (secret : Key) (payload : List UInt8)
    (peerRegistry : String → Option String) :
    ∃ request : OnionRequest, onionHandler crypto (.new crypto secret) peerRegistry request =
      .rpc "anon-routed" payload := by
  have found : [exitId][0]? = some exitId := rfl
  obtain ⟨sealed, _, _, peeled⟩ := OnionRouter.peel_wrapLayer lawful
    (fun _ => (secret, OnionRouter.pingNonce)) found OnionRouter.exitId_isHopId payload secret
  refine ⟨⟨Base64.encode sealed, exitId⟩, ?_⟩
  simp only [onionHandler, Base64.decode_encode, peeled, decide_true, if_true]

def exitAt (onion : OnionRequest) (client : Nat) : ExitRequest Nat :=
  ⟨client, onion, fun _ => none, envAt 0 (.unreachable "") .sendError⟩

/-- The limiter has counted `n` requests of the exit at the reading 0. -/
structure Flooded (n : Nat) (s : SharedState) : Prop where
  battery : s.batteryGuard = .new false
  unbanned : s.attackPrevention.bannedIps.lookup anonRouted = none
  counted : AttackPrevention.touch (s.attackPrevention.ipRequests.lookup anonRouted) 0 =
    .ok ⟨n + 1, 0, 0⟩

theorem rpcHandler_unread {battery : BatteryGuard} {prevention : AttackPrevention}
    {refusal : Option Response} {response : Response}
    (screened : screenClient env s req = .ok (battery, prevention, refusal))
    (unread : parseBody lib req.body = .error response) :
    ∃ h, rpcHandler lib env s req = .ok h ∧
      h.state = { s with batteryGuard := battery, attackPrevention := prevention } := by
  cases refusal with
  | none =>
    simp only [rpcHandler, screened, unread, bind_of_ok]
    exact ⟨_, rfl, rfl⟩
  | some refusal =>
    simp only [rpcHandler, screened, bind_of_ok]
    exact ⟨_, rfl, rfl⟩

theorem blocked_unread (lib : Serde) : ∃ response,
    parseBody lib ⟨blockedText.toUTF8.data.toList.toArray⟩ = .error response := by
  have blocked : AttackPrevention.scanPayload blockedText =
      .blocked "attack pattern detected" := by decide
  refine ⟨.of 400 (.text ("Malicious payload: " ++ "attack pattern detected")), ?_⟩
  rw [Array.toArray_toList, parseBody, show (⟨blockedText.toUTF8.data⟩ : ByteArray) =
    blockedText.toUTF8 from rfl, fromUTF8?_toUTF8]
  simp only [blocked]

theorem flood_step (lib : Serde) {onion : OnionRequest} {n : Nat} (client : Nat)
    (flooded : Flooded n s)
    (made : onionHandler crypto router (fun _ => none) onion =
      .rpc "anon-routed" blockedText.toUTF8.data.toList) (few : n ≤ 100) :
    ∃ s', Exits lib crypto router s
      ⟨exitAt onion client, if n < 100 then .passed else .refused⟩ s' ∧ Flooded (n + 1) s' := by
  have request : (exitAt onion client).request crypto router =
      some ⟨none, some "anon-routed", ⟨blockedText.toUTF8.data.toList.toArray⟩⟩ := by
    simp only [ExitRequest.request, exitAt, made]
  have checked : checkClient (exitAt onion client).env s.attackPrevention anonRouted =
      .ok (s.attackPrevention.afterCheck anonRouted ⟨n + 1, 0, 0⟩ 0,
        AttackPrevention.rateResult ⟨n + 1, 0, 0⟩ 0) := by
    rw [checkClient, AttackPrevention.isBanned, flooded.unbanned]
    have room : (0 : Nat) + 86400 < 2 ^ 64 := by decide
    exact AttackPrevention.checkRateLimit_ok_iff.mpr ⟨_, flooded.counted, fun _ => room, rfl, rfl⟩
  have screened : screenClient (exitAt onion client).env s
      ⟨none, some "anon-routed", ⟨blockedText.toUTF8.data.toList.toArray⟩⟩ = _ := screenClient_eq
  rw [flooded.battery, request_address request, checked] at screened
  obtain ⟨response, unread⟩ := blocked_unread lib
  obtain ⟨h, handled, after⟩ := rpcHandler_unread screened unread
  refine ⟨h.state, ⟨_, _, _, _, h, request, screened, ?_, handled, rfl⟩, ?_⟩
  · simp only [AttackPrevention.rateResult, if_neg (by omega : ¬ 1000 < n + 1)]
    by_cases more : n < 100
    · rw [if_pos more, if_neg (by omega)]
      rfl
    · rw [if_neg more, if_pos (by omega)]
      rfl
  · rw [after]
    refine ⟨rfl, ?_, ?_⟩
    · simp only [AttackPrevention.afterCheck, if_neg (by omega : ¬ 1000 < n + 1)]
      exact flooded.unbanned
    · simp only [AttackPrevention.afterCheck, Table.lookup_insert, if_true]
      have counts : checkedAdd 64 (n + 1) 1 = .ok (n + 2) := if_pos (by omega)
      exact bind_ok_iff.mpr ⟨0, rfl, bind_ok_iff.mpr ⟨n + 2, counts, rfl⟩⟩

theorem flood_run (lib : Serde) {onion : OnionRequest} {n : Nat} (client : Nat)
    (made : onionHandler crypto router (fun _ => none) onion =
      .rpc "anon-routed" blockedText.toUTF8.data.toList) (few : n ≤ 100) (flooded : Flooded 0 s) :
    ∃ s', Run (Exits lib crypto router) s (List.replicate n ⟨exitAt onion client, .passed⟩) s' ∧
      Flooded n s' := by
  induction n with
  | zero => exact ⟨s, .nil s, flooded⟩
  | succ n ih =>
    obtain ⟨s₁, run, after⟩ := ih (by omega)
    obtain ⟨s₂, step, after'⟩ := flood_step lib client after made (by omega)
    rw [if_pos (by omega)] at step
    refine ⟨s₂, ?_, after'⟩
    rw [List.replicate_succ']
    exact run_append_iff.mpr ⟨s₁, run, .cons step (.nil s₂)⟩

theorem devnet_flooded : Flooded 0 (devnetState .general).unlimited := ⟨rfl, rfl, rfl⟩

theorem exitAt_readings {onion : OnionRequest} {client : Nat} {verdict : ExitVerdict} {now : Nat}
    (read : now ∈ (⟨exitAt onion client, verdict⟩ : ExitEvent Nat).readings) : now = 0 := by
  simpa [ExitEvent.readings, exitAt, envAt] using read

theorem exit_flood_refuses_another_client :
    ¬ ∀ (lib : Serde) (crypto : OnionCrypto) (router : OnionRouter) (s u : SharedState)
      (events : List (ExitEvent Nat)), Run (Exits lib crypto router) s.unlimited events u →
        (events.flatMap ExitEvent.readings).Pairwise (· ≤ ·) →
        Isolated crypto router s.unlimited events := by
  intro isolated
  obtain ⟨onion, made⟩ := exit_layer OnionRouter.pingCrypto_lawful OnionRouter.nodeSecret
    blockedText.toUTF8.data.toList fun _ => none
  obtain ⟨s, flood, flooded⟩ := flood_run Mesh.nullSerde 1 made (Nat.le_refl 100) devnet_flooded
  obtain ⟨u, asks, _⟩ := flood_step Mesh.nullSerde 2 flooded made (Nat.le_refl 100)
  rw [if_neg (by decide)] at asks
  have ordered : ((List.replicate 100 (⟨exitAt onion 1, .passed⟩ : ExitEvent Nat) ++
      [(⟨exitAt onion 2, .refused⟩ : ExitEvent Nat)]).flatMap ExitEvent.readings).Pairwise
        (· ≤ ·) := by
    apply List.pairwise_of_forall_mem_list
    intro now read later _
    obtain ⟨event, member, read⟩ := List.mem_flatMap.mp read
    have zero : now = 0 := by
      rcases List.mem_append.mp member with flooding | asking
      · obtain rfl := List.eq_of_mem_replicate flooding
        exact exitAt_readings read
      · obtain rfl := List.mem_singleton.mp asking
        exact exitAt_readings read
    exact zero ▸ Nat.zero_le later
  obtain ⟨v, alone⟩ := isolated Mesh.nullSerde OnionRouter.pingCrypto _ (devnetState .general) u
    _ (run_append_iff.mpr ⟨s, flood, .cons asks (.nil u)⟩) ordered 2
  -- of the run, only the last request is the second client's
  rw [List.filter_append, List.filter_replicate_of_neg (by simp [exitAt]), List.nil_append,
    List.filter_cons_of_pos (by simp [exitAt]), List.filter_nil] at alone
  obtain ⟨_, refused, _⟩ := run_cons_iff.mp alone
  obtain ⟨_, passed, _⟩ := flood_step Mesh.nullSerde 2 devnet_flooded made (Nat.zero_le 100)
  obtain ⟨req, battery, prevention, refusal, h, request, screened, verdict, _⟩ := passed
  cases (screens_functional refused ⟨req, battery, prevention, refusal, request, screened, verdict,
    rfl⟩).1

theorem two_quiet_clients_isolated :
    ∃ (router : OnionRouter) (onion : OnionRequest) (u : SharedState),
      Run (Exits Mesh.nullSerde OnionRouter.pingCrypto router) (devnetState .general).unlimited
        [⟨exitAt onion 1, .passed⟩, ⟨exitAt onion 2, .passed⟩] u ∧
      Isolated OnionRouter.pingCrypto router (devnetState .general).unlimited
        [⟨exitAt onion 1, .passed⟩, ⟨exitAt onion 2, .passed⟩] := by
  obtain ⟨onion, made⟩ := exit_layer OnionRouter.pingCrypto_lawful OnionRouter.nodeSecret
    blockedText.toUTF8.data.toList fun _ => none
  obtain ⟨s, first, flooded⟩ := flood_step Mesh.nullSerde 1 devnet_flooded made (Nat.zero_le 100)
  obtain ⟨u, second, _⟩ := flood_step Mesh.nullSerde 2 flooded made (by decide)
  have run := Run.cons first (.cons second (.nil u))
  have quiet : Quiet [(⟨exitAt onion 1, .passed⟩ : ExitEvent Nat), ⟨exitAt onion 2, .passed⟩] := by
    intro before event after split
    have few := congrArg List.length split
    rw [List.length_append] at few
    have counted : countedSince (event.arrival.env.rateSecs - 60) before ≤ before.length :=
      List.countP_le_length
    simp only [List.length_cons, List.length_nil] at few
    omega
  refine ⟨_, onion, u, run, exit_clients_isolated_when_quiet Mesh.nullSerde _ _
    (devnetState .general) u _ run ?_ (.inr quiet)⟩
  simp [ExitEvent.readings, exitAt, envAt]

end Solnet.Daemon
