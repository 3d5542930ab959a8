import Solnet.Daemon.Admissions
import Solnet.Daemon.Housekeeping
import Solnet.Daemon.SlotReads

/-! The clients of the running daemon. What the limiter answers the requests of one address
follows from these alone, whatever the others send and whenever the limiter is cleaned. -/
namespace Solnet.Daemon
open Runs Fallible

/-- The limiter's refusal in an answer, if it is one. -/
def ProcessAnswer.limited (answer : ProcessAnswer) : Option Response :=
  match answer.response.body with
  | .text content =>
    if content = "IP Banned for abuse" ∨ content = "Rate limit exceeded" then some answer.response
    else none
  | _ => none

/-- For a request of the address: what the limiter reads for it, and what it answers. -/
def ProcessEvent.check (ip : String) (event : ProcessEvent) : Option (Env × Option Response) :=
  match event.call, event.answer with
  | .request env req, some answer =>
    if extractIp req = ip then some (env, answer.limited) else none
  | _, _ => none

/-- The clock as the limiter reads it for a request. -/
def checkReadings (check : Env × Option Response) : List Nat :=
  [check.1.banCheckSecs, check.1.rateSecs, check.1.banSecs]

/-- The limiter of one address answers a request of it. -/
def Checks (ip : String) (s : AttackPrevention) (check : Env × Option Response)
    (s' : AttackPrevention) : Prop :=
  ∃ result, checkClient check.1 s ip = .ok (s', result) ∧ check.2 = rateRefusal result

variable {lib : Serde} {env : Env} {s : SharedState} {req : Request} {h : Handled}
  {bodyStr method : String} {params rpcReq : Value} {effects : List Effect}

/-! What comes after the checks is no refusal of the limiter. -/

/-- The answer has no text, or a text that is not the limiter's. -/
def Body.IsOther : Body → Prop
  | .text content => content ≠ "IP Banned for abuse" ∧ content ≠ "Rate limit exceeded"
  | _ => True

theorem limited_of_other (other : h.response.body.IsOther) : h.answer.limited = none := by
  unfold ProcessAnswer.limited
  split
  · rename_i content same
    have other : (Body.text content).IsOther := same ▸ other
    exact if_neg (not_or.mpr other)
  · rfl

theorem parseBody_other {body : ByteArray} {response : Response}
    (unread : parseBody lib body = .error response) : response.body.IsOther := by
  unfold parseBody at unread
  split at unread
  · obtain rfl := Except.error.inj unread
    trivial
  · split at unread
    · rename_i reason _
      obtain rfl := Except.error.inj unread
      have starts (text : String) (first : text.toList.head? ≠ some 'M') :
          "Malicious payload: " ++ reason ≠ text := by
        rintro rfl
        exact first (by rw [String.toList_append]; rfl)
      exact ⟨starts _ (by decide), starts _ (by decide)⟩
    · split at unread
      · obtain rfl := Except.error.inj unread
        trivial
      · cases unread

theorem postUpstream_other {upstreamRpc : String}
    (ok : postUpstream lib env s upstreamRpc method params effects = .ok h) :
    h.response.body.IsOther := by
  cases postUpstream_steps ok with
  | unsent reply failed => trivial
  | unread reply recorded succeeded => trivial
  | unparsed reply recorded succeeded reward read => trivial
  | replied reply recorded succeeded reward read => trivial

theorem handleUncached_other (ok : handleUncached lib env s req bodyStr rpcReq = .ok h) :
    h.response.body.IsOther := by
  cases handleUncached_steps ok with
  | delivered found delivered => trivial
  | stays stays meshed processed =>
    unfold processRequest at processed
    split at processed
    · simp only [interceptGetSlot, bind_ok_iff, pure, Except.pure, Except.ok.injEq] at processed
      obtain ⟨_, _, _, _, rfl⟩ := processed
      trivial
    · cases forwardUpstream_steps processed with
      | refused tripped => trivial
      | blocked closed selection verification => trivial
      | posts closed selection verification posted => exact postUpstream_other posted

/-- A request is checked for its address, and the answer is the limiter's refusal exactly when
the check refuses it. The rest of the handling leaves the limiter alone. -/
theorem request_checked (charging : s.batteryGuard.isCharging = true)
    (handled : rpcHandler lib env s req = .ok h) :
    h.state.batteryGuard.isCharging = true ∧ ∃ prevention result,
      checkClient env s.attackPrevention (extractIp req) = .ok (prevention, result) ∧
      h.answer.limited = rateRefusal result ∧
      h.state.attackPrevention.ipRequests = prevention.ipRequests ∧
      h.state.attackPrevention.bannedIps = prevention.bannedIps := by
  have accepts : s.batteryGuard.shouldAcceptRequest env.batterySecs =
      ((s.batteryGuard.shouldAcceptRequest env.batterySecs).1, true) := by
    simp only [BatteryGuard.shouldAcceptRequest, charging, if_true]
    split <;> rfl
  have charged : (s.batteryGuard.shouldAcceptRequest env.batterySecs).1.isCharging = true := by
    simp only [BatteryGuard.shouldAcceptRequest, charging, if_true]
    split
    · exact charging
    · rfl
  have screens {battery : BatteryGuard} {prevention : AttackPrevention}
      {refusal : Option Response}
      (screening : screenClient env s req = .ok (battery, prevention, refusal)) :
      battery.isCharging = true ∧ ∃ result,
        checkClient env s.attackPrevention (extractIp req) = .ok (prevention, result) ∧
          refusal = rateRefusal result := by
    rw [screenClient_eq, accepts, if_pos rfl] at screening
    simp only [bind_ok_iff, Prod.exists, pure, Except.pure, Except.ok.injEq,
      Prod.mk.injEq] at screening
    obtain ⟨_, result, checked, rfl, rfl, rfl⟩ := screening
    exact ⟨charged, result, checked, rfl⟩
  have passes {battery : BatteryGuard} {prevention : AttackPrevention}
      (screening : screenClient env s req = .ok (battery, prevention, none))
      (other : h.response.body.IsOther) :
      h.state.batteryGuard.isCharging = true ∧ ∃ prevention result,
        checkClient env s.attackPrevention (extractIp req) = .ok (prevention, result) ∧
        h.answer.limited = rateRefusal result ∧
        h.state.attackPrevention.ipRequests = prevention.ipRequests ∧
        h.state.attackPrevention.bannedIps = prevention.bannedIps := by
    obtain ⟨battery, result, checked, passed⟩ := screens screening
    have kept := rpcHandler_checks handled screening
    refine ⟨kept.battery ▸ battery, prevention, result, checked, ?_, kept.requests, kept.bans⟩
    rw [limited_of_other other, passed]
  cases rpcHandler_steps handled with
  | @screened battery prevention response screening =>
    obtain ⟨battery, result, checked, refused⟩ := screens screening
    refine ⟨battery, prevention, result, checked, ?_, rfl, rfl⟩
    rw [← refused]
    cases result with
    | allowed => cases refused
    | banned =>
      obtain rfl := Option.some.inj refused
      rfl
    | limited retryAfter =>
      obtain rfl := Option.some.inj refused
      rfl
  | unread screening unread => exact passes screening (parseBody_other unread)
  | cached screening parsed lookup serves =>
    refine passes screening ?_
    simp only [serveCached, bind_ok_iff, pure, Except.pure, Except.ok.injEq] at serves
    obtain ⟨_, _, _, _, rfl⟩ := serves
    trivial
  | uncached screening parsed lookup handles =>
    exact passes screening (handleUncached_other handles)

/-! Beside the daemon stands the limiter of one address. -/

namespace AttackPrevention

variable {s s' p : AttackPrevention} {ip client : String} {clock : Nat} {result : RateResult}

theorem Agrees.checkClient (agrees : Agrees ip clock s p) (passes : clock ≤ env.banCheckSecs)
    (ordered : env.banCheckSecs ≤ env.rateSecs)
    (ok : Solnet.Daemon.checkClient env s ip = .ok (s', result)) :
    ∃ p', Solnet.Daemon.checkClient env p ip = .ok (p', result) ∧ Agrees ip env.rateSecs s' p' := by
  obtain ⟨verdict, kept⟩ := agrees.isBanned passes
  unfold Solnet.Daemon.checkClient at ok ⊢
  rcases looked : s.isBanned ip env.banCheckSecs with ⟨s₁, banned⟩
  rcases looked' : p.isBanned ip env.banCheckSecs with ⟨p₁, banned'⟩
  rw [looked, looked'] at verdict kept
  rw [looked] at ok
  obtain rfl : banned = banned' := verdict
  cases banned with
  | true =>
    obtain ⟨rfl, rfl⟩ := Prod.mk.inj (Except.ok.inj ok)
    exact ⟨p₁, rfl, kept.later ordered⟩
  | false =>
    obtain ⟨record, touched, fits, rfl, rfl⟩ := checkRateLimit_ok_iff.mp ok
    have touched' := (kept.touch_eq ordered).symm.trans touched
    exact ⟨_, checkRateLimit_ok_iff.mpr ⟨record, touched', fits, rfl, rfl⟩,
      kept.afterCheck ordered touched⟩

/-- The check of another address. -/
theorem Agrees.checkOther (agrees : Agrees ip clock s p) (other : ip ≠ client)
    (passes : clock ≤ env.banCheckSecs) (ordered : env.banCheckSecs ≤ env.rateSecs)
    (ok : Solnet.Daemon.checkClient env s client = .ok (s', result)) :
    Agrees ip env.rateSecs s' p := by
  have later := agrees.later (passes.trans ordered)
  have looked : Agrees ip env.rateSecs (s.isBanned client env.banCheckSecs).1 p :=
    later.congr (by rw [isBanned_fst_requests]) (isBanned_fst_bans_of_ne s _ other) rfl rfl
  unfold Solnet.Daemon.checkClient at ok
  rcases banned : s.isBanned client env.banCheckSecs with ⟨s₁, verdict⟩
  rw [banned] at ok looked
  cases verdict with
  | true =>
    obtain ⟨rfl, rfl⟩ := Prod.mk.inj (Except.ok.inj ok)
    exact looked
  | false =>
    obtain ⟨record, _, _, _, rfl⟩ := checkRateLimit_ok_iff.mp ok
    exact looked.afterCheck_of_ne other

end AttackPrevention

namespace Process
open AttackPrevention

variable {p p' : Process} {q : AttackPrevention} {events : List ProcessEvent}
  {event : ProcessEvent} {ip : String} {clock : Nat}

theorem check_request {answer : ProcessAnswer} :
    ProcessEvent.check ip ⟨.request env req, some answer⟩ =
      if extractIp req = ip then some (env, answer.limited) else none := rfl

/-- One step of the daemon, and the limiter of the address takes the step too if it is a request
of that address. -/
theorem step_checks (charging : p.shared.batteryGuard.isCharging = true)
    (agrees : Agrees ip clock p.shared.attackPrevention q)
    (ordered : (clock :: event.call.readings).Pairwise (· ≤ ·))
    (step : p.Performs lib event p') :
    p'.shared.batteryGuard.isCharging = true ∧ ∃ q', ∃ later ∈ clock :: event.call.readings,
      Agrees ip later p'.shared.attackPrevention q' ∧
      Run (Checks ip) q (event.check ip).toList q' := by
  cases step.took with
  | @request env req h handled =>
    obtain ⟨charging, prevention, result, checked, limited, requests, bans⟩ :=
      request_checked charging handled
    have checked : checkClient env p.shared.attackPrevention (extractIp req) =
      .ok (prevention, result) := checked
    simp only [ProcessCall.readings, List.pairwise_cons, List.mem_cons, forall_eq_or_imp] at ordered
    have passes : clock ≤ env.banCheckSecs := ordered.1.1
    have rate : env.banCheckSecs ≤ env.rateSecs := ordered.2.1.1
    rw [check_request]
    by_cases own : extractIp req = ip
    · rw [own] at checked
      obtain ⟨q', checked', after⟩ := agrees.checkClient passes rate checked
      refine ⟨charging, q', env.rateSecs, by simp [ProcessCall.readings], ?_, ?_⟩
      · exact after.congr (by rw [requests]) (by rw [bans]) rfl rfl
      · rw [if_pos own]
        exact .cons ⟨result, checked', limited⟩ (.nil q')
    · have after := agrees.checkOther (Ne.symm own) passes rate checked
      refine ⟨charging, q, env.rateSecs, by simp [ProcessCall.readings], ?_, ?_⟩
      · exact after.congr (by rw [requests]) (by rw [bans]) rfl rfl
      · rw [if_neg own]
        exact .nil q
  | @cleanup now prevention cleaned =>
    have passes : clock ≤ now := (List.pairwise_cons.mp ordered).1 now List.mem_cons_self
    exact ⟨charging, q, now, by simp [ProcessCall.readings], agrees.cleanup passes cleaned, .nil q⟩
  | evictExpired evicted => exact ⟨charging, q, clock, List.mem_cons_self, agrees, .nil q⟩
  | slotReply => exact ⟨charging, q, clock, List.mem_cons_self, agrees, .nil q⟩

theorem run_checks (run : Run (Performs lib) p events p')
    (charging : p.shared.batteryGuard.isCharging = true)
    (agrees : Agrees ip clock p.shared.attackPrevention q)
    (ordered : (clock :: (events.map ProcessEvent.call).flatMap
      ProcessCall.readings).Pairwise (· ≤ ·)) :
    ∃ q', Run (Checks ip) q (events.filterMap (ProcessEvent.check ip)) q' := by
  induction run generalizing q clock with
  | nil p => exact ⟨q, .nil q⟩
  | @cons p p₁ p' event events step _ ih =>
    rw [List.map_cons] at ordered
    have own : (clock :: event.call.readings).Pairwise (· ≤ ·) := by
      rw [List.flatMap_cons, ← List.cons_append] at ordered
      exact (List.pairwise_append.mp ordered).1
    obtain ⟨charging, q₁, later, read, after, checks⟩ := step_checks charging agrees own step
    obtain ⟨q', rest⟩ := ih charging after (readings_after read ordered)
    refine ⟨q', ?_⟩
    cases checked : event.check ip with
    | none =>
      rw [checked] at checks
      obtain rfl := run_nil_iff.mp checks
      rwa [List.filterMap_cons_none checked]
    | some check =>
      rw [checked] at checks
      obtain ⟨_, first, nothing⟩ := run_cons_iff.mp checks
      obtain rfl := run_nil_iff.mp nothing
      rw [List.filterMap_cons_some checked]
      exact .cons first rest

theorem observed_checks (lib : Serde) (config : Config)
    (walletTracker : Option WalletRewardTracker) (batteryMode : Bool) (calls : List ProcessCall)
    (ordered : (calls.flatMap ProcessCall.readings).Pairwise (· ≤ ·)) (ip : String) :
    ∃ q, Run (Checks ip) .new
      (((start config walletTracker batteryMode).observe lib calls).filterMap
        (ProcessEvent.check ip)) q := by
  obtain ⟨⟨p, run⟩, _⟩ := observe_run lib (start config walletTracker batteryMode) calls
  have fresh : Agrees ip 0 AttackPrevention.new .new := ⟨.inl rfl, .inl rfl, nofun⟩
  refine run_checks run rfl fresh (List.pairwise_cons.mpr ⟨fun _ _ => Nat.zero_le _, ?_⟩)
  exact ordered.sublist (observed_sublist lib (start config walletTracker batteryMode) calls
    ProcessCall.readings)

theorem checks_deterministic {s t u : AttackPrevention} {check check' : Env × Option Response}
    (same : checkReadings check = checkReadings check') (first : Checks ip s check t)
    (second : Checks ip s check' u) : check.2 = check'.2 ∧ t = u := by
  obtain ⟨result, checked, refused⟩ := first
  obtain ⟨result', checked', refused'⟩ := second
  simp only [checkReadings, List.cons.injEq, and_true] at same
  obtain ⟨banCheck, rate, ban⟩ := same
  unfold checkClient at checked checked'
  rw [banCheck, rate, ban] at checked
  obtain ⟨rfl, rfl⟩ := Prod.mk.inj (Except.ok.inj (checked.symm.trans checked'))
  exact ⟨refused.trans refused'.symm, rfl⟩

theorem run_checks_unique {s t u : AttackPrevention} {checks checks' : List (Env × Option Response)}
    (same : checks.map checkReadings = checks'.map checkReadings)
    (first : Run (Checks ip) s checks t)
    (second : Run (Checks ip) s checks' u) : checks.map Prod.snd = checks'.map Prod.snd := by
  induction first generalizing checks' with
  | nil s =>
    cases checks' with
    | nil => rfl
    | cons check' checks' => cases same
  | @cons s s₁ t check checks step _ ih =>
    cases checks' with
    | nil => cases same
    | cons check' checks' =>
      obtain ⟨here, later⟩ := List.cons.inj same
      obtain ⟨_, step', rest⟩ := run_cons_iff.mp second
      obtain ⟨refusal, rfl⟩ := checks_deterministic here step step'
      rw [List.map_cons, List.map_cons, refusal, ih later rest]

/-- A client whose requests come at the same times is refused alike for its rate and for bans in
any two daemons, whatever the other clients send and however often the limiters are cleaned. -/
theorem clients_apart (lib : Serde) (config config' : Config)
    (walletTracker walletTracker' : Option WalletRewardTracker) (batteryMode batteryMode' : Bool)
    (calls calls' : List ProcessCall)
    (ordered : (calls.flatMap ProcessCall.readings).Pairwise (· ≤ ·))
    (ordered' : (calls'.flatMap ProcessCall.readings).Pairwise (· ≤ ·)) (ip : String)
    (same : (((start config walletTracker batteryMode).observe lib calls).filterMap
        (ProcessEvent.check ip)).map checkReadings =
      (((start config' walletTracker' batteryMode').observe lib calls').filterMap
        (ProcessEvent.check ip)).map checkReadings) :
    (((start config walletTracker batteryMode).observe lib calls).filterMap
        (ProcessEvent.check ip)).map Prod.snd =
      (((start config' walletTracker' batteryMode').observe lib calls').filterMap
        (ProcessEvent.check ip)).map Prod.snd := by
  obtain ⟨_, checks⟩ := observed_checks lib config walletTracker batteryMode calls ordered ip
  obtain ⟨_, checks'⟩ := observed_checks lib config' walletTracker' batteryMode' calls' ordered' ip
  exact run_checks_unique same checks checks'

/-- Requests for the slot, as many as `n`, from one of two addresses. -/
def slotRequests (ip : String) (n secs : Nat) : List ProcessCall :=
  List.replicate n <| .request { envAt 0 (.unreachable "") .sendError with
      banCheckSecs := secs, rateSecs := secs, banSecs := secs, breakerSecs := secs,
      failureSecs := secs }
    ⟨none, some ip, slotBody.toUTF8⟩

/-- The other client of the second daemon is over its rate when the first one comes back. -/
theorem clients_apart_slots :
    (((start devnetConfig none false).observe slotSerde
        (slotRequests "10.0.0.1" 2 100)).filterMap
        (ProcessEvent.check "10.0.0.1")).map Prod.snd =
      (((start devnetConfig none true).observe slotSerde
        (slotRequests "10.0.0.1" 1 100 ++ slotRequests "10.0.0.2" 101 100 ++ [.cleanup 100] ++
          slotRequests "10.0.0.1" 1 100)).filterMap
        (ProcessEvent.check "10.0.0.1")).map Prod.snd :=
  clients_apart slotSerde devnetConfig devnetConfig none none false true
    (slotRequests "10.0.0.1" 2 100)
    (slotRequests "10.0.0.1" 1 100 ++ slotRequests "10.0.0.2" 101 100 ++ [.cleanup 100] ++
      slotRequests "10.0.0.1" 1 100)
    (by decide +kernel) (by decide +kernel) "10.0.0.1" (by decide +kernel)

/-! How many pass. -/

/-- The check of a request that passes between `t` and `t + 60`. -/
def passesAt (t : Nat) (check : Env × Option Response) : Bool :=
  check.2.isNone && (t ≤ check.1.rateSecs && check.1.rateSecs ≤ t + 60)

/-- A check is one or two calls on the limiter. -/
theorem check_calls {s t : AttackPrevention} {check : Env × Option Response}
    (step : Checks ip s check t) (since : Nat) :
    ∃ calls, Run AttackPrevention.Performs s calls t ∧
      (calls.flatMap LimiterEvent.readings).Sublist (checkReadings check) ∧
      calls.countP (LimiterEvent.admits ip since) = if passesAt since check then 1 else 0 := by
  obtain ⟨env, refusal⟩ := check
  obtain ⟨result, checked, refused⟩ := step
  dsimp only at checked refused
  subst refused
  unfold checkClient at checked
  rcases looked : s.isBanned ip env.banCheckSecs with ⟨s₁, verdict⟩
  rw [looked] at checked
  have first : AttackPrevention.Performs s ⟨.isBanned ip env.banCheckSecs, .banned verdict⟩ s₁ :=
    performs_isBanned_iff.mpr (by rw [looked]; exact ⟨rfl, rfl⟩)
  cases verdict with
  | true =>
    obtain ⟨rfl, rfl⟩ := Prod.mk.inj (Except.ok.inj checked)
    refine ⟨[⟨.isBanned ip env.banCheckSecs, .banned true⟩], .cons first (.nil _), ?_, ?_⟩
    · exact List.Sublist.cons_cons _ (List.nil_sublist _)
    · simp [LimiterEvent.admits, passesAt, rateRefusal]
  | false =>
    have second : AttackPrevention.Performs s₁
        ⟨.checkRateLimit ip env.rateSecs env.banSecs, .rate result⟩ t :=
      bind_ok_iff.mpr ⟨(t, result), checked, rfl⟩
    refine ⟨[⟨.isBanned ip env.banCheckSecs, .banned false⟩,
      ⟨.checkRateLimit ip env.rateSecs env.banSecs, .rate result⟩],
      .cons first (.cons second (.nil _)), List.Sublist.refl _, ?_⟩
    cases result with
    | allowed => simp [LimiterEvent.admits, passesAt, rateRefusal]
    | limited retryAfter => simp [LimiterEvent.admits, passesAt, rateRefusal]
    | banned => simp [LimiterEvent.admits, passesAt, rateRefusal]

theorem checks_calls {s t : AttackPrevention} {checks : List (Env × Option Response)}
    (run : Run (Checks ip) s checks t) (since : Nat) :
    ∃ calls, Run AttackPrevention.Performs s calls t ∧
      (calls.flatMap LimiterEvent.readings).Sublist (checks.flatMap checkReadings) ∧
      calls.countP (LimiterEvent.admits ip since) = checks.countP (passesAt since) := by
  induction run with
  | nil s => exact ⟨[], .nil s, List.Sublist.refl _, rfl⟩
  | @cons s s₁ t check checks step _ ih =>
    obtain ⟨own, first, reads, counts⟩ := check_calls step since
    obtain ⟨calls, rest, reads', counts'⟩ := ih
    refine ⟨own ++ calls, run_append_iff.mpr ⟨s₁, first, rest⟩, ?_, ?_⟩
    · rw [List.flatMap_append, List.flatMap_cons]
      exact reads.append reads'
    · rw [List.countP_append, counts, counts', List.countP_cons, Nat.add_comm]

theorem checkReadings_sublist (ip : String) (events : List ProcessEvent) :
    ((events.filterMap (ProcessEvent.check ip)).flatMap checkReadings).Sublist
      ((events.map ProcessEvent.call).flatMap ProcessCall.readings) := by
  induction events with
  | nil => exact List.Sublist.refl _
  | cons event events ih =>
    rw [List.map_cons, List.flatMap_cons]
    cases checked : event.check ip with
    | none =>
      rw [List.filterMap_cons_none checked]
      exact ih.trans (List.sublist_append_right _ _)
    | some check =>
      rw [List.filterMap_cons_some checked, List.flatMap_cons]
      refine List.Sublist.append ?_ ih
      obtain ⟨call, answer⟩ := event
      cases call with
      | request env req =>
        cases answer with
        | none => cases checked
        | some answer =>
          rw [check_request] at checked
          split at checked
          · obtain rfl := Option.some.inj checked
            exact List.Sublist.cons_cons _ (List.Sublist.cons_cons _
              (List.Sublist.cons_cons _ (List.nil_sublist _)))
          · cases checked
      | cleanup now => cases answer <;> cases checked
      | evictExpired now => cases answer <;> cases checked
      | slotReply reply => cases answer <;> cases checked

/-- At most 200 requests of an address pass the limiter of the daemon within any 61 seconds. -/
theorem requests_passed_le (lib : Serde) (config : Config)
    (walletTracker : Option WalletRewardTracker) (batteryMode : Bool) (calls : List ProcessCall)
    (ordered : (calls.flatMap ProcessCall.readings).Pairwise (· ≤ ·)) (ip : String) (t : Nat) :
    (((start config walletTracker batteryMode).observe lib calls).filterMap
      (ProcessEvent.check ip)).countP (passesAt t) ≤ 200 := by
  obtain ⟨_, checks⟩ := observed_checks lib config walletTracker batteryMode calls ordered ip
  obtain ⟨limiterCalls, run, reads, counts⟩ := checks_calls checks t
  rw [← counts]
  refine admitted_le run (List.Pairwise.sublist ?_ ordered) ip t
  exact (reads.trans (checkReadings_sublist ip _)).trans
    (observed_sublist lib (start config walletTracker batteryMode) calls ProcessCall.readings)

theorem requests_passed_le_slots :
    (((start devnetConfig none false).observe slotSerde
      (slotRequests "10.0.0.1" 101 100)).filterMap
        (ProcessEvent.check "10.0.0.1")).countP (passesAt 100) ≤ 200 :=
  requests_passed_le slotSerde devnetConfig none false (slotRequests "10.0.0.1" 101 100)
    (by decide +kernel) "10.0.0.1" 100

end Process

end Solnet.Daemon
