import Solnet.Daemon.BreakerLaw
import Solnet.Daemon.Process

/-! An outage of the upstream node. While no post can be sent, the breaker spaces out the
requests that are still posted. -/
namespace Solnet.Daemon
open Fallible Runs

namespace ProcessCall

/-- The request checks the breaker from `t` to `t + duration`. -/
def during (t duration : Nat) : ProcessCall → Bool
  | .request env _ => t ≤ env.breakerSecs && env.breakerSecs ≤ t + duration
  | _ => false

/-- A post of the request is not sent. -/
def unsent : ProcessCall → Bool
  | .request env _ =>
    match env.upstreamReply with
    | .sendError => true
    | .responded _ _ => false
  | _ => false

end ProcessCall

/-- The request is posted upstream. -/
def ProcessEvent.posted (event : ProcessEvent) : Bool :=
  match event.answer with
  | some answer => answer.effects.any Effect.isUpstreamPost
  | none => false

variable {lib : Serde} {env : Env} {s : SharedState} {req : Request} {h : Handled}

/-! What one request does to the breaker. -/

namespace CircuitBreaker

/-- At most so many failures, and the thresholds of `new`. -/
structure Counts (n : Nat) (s : CircuitBreaker) : Prop where
  failures : s.failures ≤ n
  threshold : s.threshold = 5
  recoverySecs : s.recoverySecs = 30

theorem Counts.later {n : Nat} {s : CircuitBreaker} (counts : Counts n s) : Counts (n + 1) s :=
  ⟨counts.failures.trans (Nat.le_succ n), counts.threshold, counts.recoverySecs⟩

theorem Counts.recordFailure {n : Nat} {s : CircuitBreaker} (counts : Counts n s)
    (few : n + 1 < 2 ^ 32) (now : Nat) :
    (s.recordFailure now).failures = s.failures + 1 ∧ Counts (n + 1) (s.recordFailure now) := by
  have counted : (s.recordFailure now).failures = s.failures + 1 := by
    have fits := counts.failures
    exact Nat.mod_eq_of_lt (by omega)
  refine ⟨counted, ?_, counts.threshold, counts.recoverySecs⟩
  rw [counted]
  exact Nat.succ_le_succ counts.failures

theorem Counts.recordSuccess {n : Nat} {s : CircuitBreaker} (counts : Counts n s) :
    Counts (n + 1) s.recordSuccess :=
  ⟨Nat.zero_le _, counts.threshold, counts.recoverySecs⟩

/-- A closed breaker with five failures has waited. -/
theorem Counts.waited {n now : Nat} {s : CircuitBreaker} (counts : Counts n s)
    (closed : s.isOpen now = false) (many : 5 ≤ s.failures) : s.lastFailure + 30 ≤ now := by
  unfold isOpen at closed
  rw [counts.threshold, counts.recoverySecs, if_neg (Nat.not_lt.mpr many)] at closed
  have late := of_decide_eq_false closed
  omega

end CircuitBreaker

/-- What the breaker hears of a post. -/
def CircuitBreaker.hears (s : CircuitBreaker) (env : Env) : CircuitBreaker :=
  match env.upstreamReply with
  | .sendError => s.recordFailure env.failureSecs
  | .responded _ none => s
  | .responded _ (some _) => s.recordSuccess

theorem Post.hears (post : Post lib env s req) (handled : rpcHandler lib env s req = .ok h) :
    h.state.circuitBreaker = s.circuitBreaker.hears env := by
  rw [CircuitBreaker.hears, ← post.same.breaker]
  cases postUpstream_steps (post.handled.symm.trans handled) with
  | unsent reply failed => rw [reply]
  | unread reply recorded succeeded => rw [reply]
  | unparsed reply recorded succeeded reward read =>
    rw [reply]
    exact (recordRequest_rewarded reward).1.breaker
  | replied reply recorded succeeded reward read =>
    rw [reply]
    exact (recordRequest_rewarded reward).1.breaker

/-- A request leaves the breaker as it is, or finds it closed and is posted. -/
theorem rpcHandler_breaker (handled : rpcHandler lib env s req = .ok h) :
    h.posted = false ∧ h.state.circuitBreaker = s.circuitBreaker ∨
      h.posted = true ∧ s.circuitBreaker.isOpen env.breakerSecs = false ∧
        h.state.circuitBreaker = s.circuitBreaker.hears env := by
  cases rpcHandler_course handled with
  | idle unposted own same tracker => exact .inl ⟨unposted, same.breaker⟩
  | answered unposted own same rewarded => exact .inl ⟨unposted, same.breaker⟩
  | posted post =>
    have posted := (post.kept handled).2.2.1
    refine .inr ⟨posted, ?_, post.hears handled⟩
    by_contra tripped
    have unposted := rpcHandler_open handled (Bool.eq_true_of_not_eq_false tripped)
    exact absurd (posted.symm.trans unposted) (by decide)

theorem CircuitBreaker.Counts.hears {n : Nat} {s : CircuitBreaker} (counts : s.Counts n)
    (few : n + 1 < 2 ^ 32) (env : Env) : (s.hears env).Counts (n + 1) := by
  unfold CircuitBreaker.hears
  split
  · exact (counts.recordFailure few env.failureSecs).2
  · exact counts.later
  · exact counts.recordSuccess

/-! Runs. -/

/-- Of so many calls, `m` were posted since `t`, the last one at `latest`. -/
structure Paced (t duration n m clock : Nat) (s : CircuitBreaker) : Prop where
  counts : s.Counts n
  posts : m ≤ s.failures
  spaced : m = 0 ∨ ∃ latest, t + 30 * (m - 5) ≤ latest ∧ latest ≤ t + duration ∧
    latest ≤ s.lastFailure ∧ latest ≤ clock

variable {p p' : Process} {events : List ProcessEvent} {event : ProcessEvent}
  {t duration n m clock : Nat}

theorem Paced.le (paced : Paced t duration n m clock p.shared.circuitBreaker) :
    m ≤ 5 + duration / 30 := by
  rcases paced.spaced with rfl | ⟨latest, late, within, _⟩
  · exact Nat.zero_le _
  · omega

theorem Paced.still {s : CircuitBreaker} {later : Nat} (paced : Paced t duration n m clock s)
    (passes : clock ≤ later) : Paced t duration (n + 1) m later s := by
  refine ⟨paced.counts.later, paced.posts, paced.spaced.imp id ?_⟩
  rintro ⟨latest, late, within, before, sooner⟩
  exact ⟨latest, late, within, before, sooner.trans passes⟩

/-- A request in the outage. -/
theorem Paced.posts_unsent {s : CircuitBreaker} (paced : Paced t duration n m clock s)
    (few : n + 1 < 2 ^ 32) (begun : t ≤ env.breakerSecs)
    (within : env.breakerSecs ≤ t + duration) (ordered : env.breakerSecs ≤ env.failureSecs)
    (closed : s.isOpen env.breakerSecs = false) :
    Paced t duration (n + 1) (m + 1) env.failureSecs (s.recordFailure env.failureSecs) := by
  obtain ⟨counted, counts⟩ := paced.counts.recordFailure few env.failureSecs
  have posts := paced.posts
  refine ⟨counts, by omega, .inr ⟨env.breakerSecs, ?_, within, ordered, ordered⟩⟩
  by_cases many : 5 ≤ m
  · have waited := paced.counts.waited closed (many.trans posts)
    rcases paced.spaced with rfl | ⟨latest, late, _, before, _⟩
    · omega
    · omega
  · omega

theorem hears_unsent {s : CircuitBreaker} (req : Request)
    (unsent : (ProcessCall.request env req).unsent = true) :
    s.hears env = s.recordFailure env.failureSecs := by
  unfold ProcessCall.unsent at unsent
  unfold CircuitBreaker.hears
  cases reply : env.upstreamReply with
  | sendError => rfl
  | responded status body => simp [reply] at unsent

/-- A request that checks the breaker before the end of the outage. -/
theorem Paced.request (paced : Paced t duration n m clock p.shared.circuitBreaker)
    (few : n + 1 < 2 ^ 32) (passes : clock ≤ env.breakerSecs)
    (ordered : env.breakerSecs ≤ env.failureSecs) (inside : env.breakerSecs ≤ t + duration)
    (outage : (ProcessCall.request env req).during t duration = true →
      (ProcessCall.request env req).unsent = true)
    (handled : rpcHandler lib { env with currentSlot := p.slotCache.currentSlot } p.shared req =
      .ok h) :
    Paced t duration (n + 1)
      (m + if h.posted && (ProcessCall.request env req).during t duration then 1 else 0)
      env.failureSecs h.state.circuitBreaker := by
  rcases rpcHandler_breaker handled with ⟨unposted, same⟩ | ⟨posted, closed, hears⟩
  · rw [unposted, same]
    exact paced.still (passes.trans ordered)
  · rw [posted, hears, Bool.true_and]
    by_cases begun : t ≤ env.breakerSecs
    · have here : (ProcessCall.request env req).during t duration = true := by
        simp [ProcessCall.during, begun, inside]
      have failed : p.shared.circuitBreaker.hears
          { env with currentSlot := p.slotCache.currentSlot } =
            p.shared.circuitBreaker.recordFailure env.failureSecs :=
        hears_unsent req (outage here)
      rw [if_pos here, failed]
      exact paced.posts_unsent few begun inside ordered closed
    · have early : (ProcessCall.request env req).during t duration = false := by
        simp [ProcessCall.during, begun]
      -- a post since `t` would have read a clock that `t` is not past
      have none : m = 0 := by
        rcases paced.spaced with none | ⟨latest, late, _, _, sooner⟩
        · exact none
        · omega
      subst none
      rw [early]
      exact ⟨paced.counts.hears few _, Nat.zero_le _, .inl rfl⟩

theorem countP_later (late : ∀ event ∈ events, event.call.during t duration = false) :
    (events.countP fun event => event.posted && event.call.during t duration) = 0 := by
  refine List.countP_eq_zero.mpr fun event member => ?_
  rw [late event member, Bool.and_false]
  exact Bool.noConfusion

theorem during_later (late : t + duration < clock)
    (ordered : (clock :: (events.map ProcessEvent.call).flatMap ProcessCall.readings).Pairwise
      (· ≤ ·)) : ∀ event ∈ events, event.call.during t duration = false := by
  rintro ⟨call, answer⟩ member
  cases call with
  | request env req =>
    have read : env.breakerSecs ∈
        (events.map ProcessEvent.call).flatMap ProcessCall.readings :=
      List.mem_flatMap.mpr ⟨_, List.mem_map_of_mem member, by simp [ProcessCall.readings]⟩
    have passes := (List.pairwise_cons.mp ordered).1 env.breakerSecs read
    simp only [ProcessCall.during, Bool.and_eq_false_iff, decide_eq_false_iff_not]
    exact .inr (by omega)
  | cleanup now => rfl
  | evictExpired now => rfl
  | slotReply reply => rfl

theorem Paced.run (run : Run (Process.Performs lib) p events p')
    (paced : Paced t duration n m clock p.shared.circuitBreaker)
    (few : n + events.length < 2 ^ 32)
    (ordered : (clock :: (events.map ProcessEvent.call).flatMap ProcessCall.readings).Pairwise
      (· ≤ ·))
    (outage : ∀ event ∈ events, event.call.during t duration = true →
      event.call.unsent = true) :
    m + (events.countP fun event => event.posted && event.call.during t duration) ≤
      5 + duration / 30 := by
  induction run generalizing n m clock with
  | nil p => exact paced.le
  | @cons p p₁ p' event events step rest ih =>
    rw [List.length_cons] at few
    obtain ⟨here, others⟩ := List.forall_mem_cons.mp outage
    have skips (call : ProcessCall) (same : p₁.shared.circuitBreaker = p.shared.circuitBreaker)
        (called : event = ⟨call, none⟩) :
        m + ((event :: events).countP fun event =>
          event.posted && event.call.during t duration) ≤ 5 + duration / 30 := by
      subst called
      rw [List.countP_cons_of_neg (by simp [ProcessEvent.posted])]
      have next := Process.readings_after List.mem_cons_self ordered
      exact ih (same ▸ paced.still (Nat.le_refl clock)) (by omega) next others
    cases step.took with
    | @request env req h handled =>
      have own : (clock :: (ProcessCall.request env req).readings).Pairwise (· ≤ ·) := by
        rw [List.map_cons, List.flatMap_cons, ← List.cons_append] at ordered
        exact (List.pairwise_append.mp ordered).1
      simp only [ProcessCall.readings, List.pairwise_cons, List.mem_cons, List.not_mem_nil,
        or_false, forall_eq_or_imp, forall_eq] at own
      obtain ⟨⟨_, _, _, passes, _⟩, _, _, _, reads, _⟩ := own
      by_cases inside : env.breakerSecs ≤ t + duration
      · have next := paced.request (by omega) passes reads inside here handled
        have read : env.failureSecs ∈ clock :: (ProcessCall.request env req).readings := by
          simp [ProcessCall.readings]
        have bound := ih next (by omega) (Process.readings_after read ordered) others
        rw [List.countP_cons, Nat.add_comm (List.countP _ _), ← Nat.add_assoc]
        exact bound
      · -- from here on nothing counts
        have rest : (env.breakerSecs ::
            (events.map ProcessEvent.call).flatMap ProcessCall.readings).Pairwise (· ≤ ·) :=
          Process.readings_after (by simp [ProcessCall.readings]) ordered
        have none := during_later (Nat.lt_of_not_le inside) rest
        have skipped : (ProcessCall.request env req).during t duration = false := by
          simp [ProcessCall.during, inside]
        rw [countP_later (List.forall_mem_cons.mpr ⟨skipped, none⟩)]
        exact paced.le
    | cleanup cleaned => exact skips _ rfl rfl
    | evictExpired evicted => exact skips _ rfl rfl
    | slotReply => exact skips _ rfl rfl

namespace Process

/-- While no post can be sent, from `t` to `t + duration`, at most five requests are posted and
one more for each half minute. -/
theorem outage_posts_le (lib : Serde) (config : Config)
    (walletTracker : Option WalletRewardTracker) (batteryMode : Bool) (calls : List ProcessCall)
    (t duration : Nat) (ordered : (calls.flatMap ProcessCall.readings).Pairwise (· ≤ ·))
    (few : calls.length < 2 ^ 32)
    (outage : ∀ call ∈ calls, call.during t duration = true → call.unsent = true) :
    (((start config walletTracker batteryMode).observe lib calls).countP fun event =>
      event.posted && event.call.during t duration) ≤ 5 + duration / 30 := by
  obtain ⟨⟨p', run⟩, sub⟩ := observe_run lib (start config walletTracker batteryMode) calls
  have fresh : Paced t duration 0 0 0
      (start config walletTracker batteryMode).shared.circuitBreaker :=
    ⟨⟨Nat.le_refl 0, rfl, rfl⟩, Nat.le_refl 0, .inl rfl⟩
  have bound := fresh.run run ?_ ?_ ?_
  · rwa [Nat.zero_add] at bound
  · have short := sub.length_le
    rw [List.length_map] at short
    omega
  · exact List.pairwise_cons.mpr ⟨fun _ _ => Nat.zero_le _,
      ordered.sublist (observed_sublist lib _ calls _)⟩
  · exact fun event member => outage event.call (sub.subset (List.mem_map_of_mem member))

theorem outage_posts_le_minute :
    (((start devnetConfig none false).observe balanceSerde
      [balanceAt 100, balanceAt 100, .cleanup 110, balanceAt 130, balanceAt 160]).countP
        fun event => event.posted && event.call.during 100 60) ≤ 7 :=
  outage_posts_le balanceSerde devnetConfig none false
    [balanceAt 100, balanceAt 100, .cleanup 110, balanceAt 130, balanceAt 160] 100 60 (by decide)
    (by decide) (by decide)

end Process

end Solnet.Daemon
