import Solnet.Daemon.RateLimits

/-! What the limiter admits over time: the wait it names, the checks that pass within a minute
from any moment on, and how long a ban lasts. -/
namespace Solnet.Daemon
open Runs Fallible

namespace LimiterEvent

def readings (event : LimiterEvent) : List Nat := event.call.readings

/-- A check for the address passes at a time from `t` to `t + 60`. -/
def admits (ip : String) (t : Nat) (event : LimiterEvent) : Bool :=
  match event with
  | ⟨.checkRateLimit client now _, .rate .allowed⟩ => client = ip && t ≤ now && now ≤ t + 60
  | _ => false

end LimiterEvent

namespace AttackPrevention
open LimiterEvent

variable {s s' : AttackPrevention} {ip client : String} {t now banNow clock : Nat}
  {record : IpRecord} {stored : Option IpRecord} {event : LimiterEvent} {events : List LimiterEvent}

theorem touch_counts (ok : touch stored now = .ok record) :
    record.count = if restarts stored now then 1 else (stored.map IpRecord.count).getD 0 + 1 := by
  obtain ⟨age, subtracted, ok⟩ := bind_ok_iff.mp ok
  obtain ⟨count, counted, ok⟩ := bind_ok_iff.mp ok
  obtain ⟨_, rfl⟩ := subWithin_ok_iff.mp subtracted
  obtain ⟨_, rfl⟩ := addWithin_ok_iff.mp counted
  cases ok
  cases stored with
  | none => simp [restarts]
  | some old =>
    by_cases late : 60 < now - old.windowStart
    · simp [restarts, late]
    · simp [restarts, late]

theorem rateResult_allowed_iff (record : IpRecord) (now : Nat) :
    rateResult record now = .allowed ↔ record.count ≤ 100 := by
  unfold rateResult
  split_ifs
  · simp
    omega
  · simp
    omega
  · simp
    omega

theorem rateResult_limited_iff {retryAfter : Nat} : rateResult record now = .limited retryAfter ↔
    100 < record.count ∧ record.count ≤ 1000 ∧ 60 - (now - record.windowStart) = retryAfter := by
  unfold rateResult
  split_ifs
  · simp
    omega
  · simp
    omega
  · simp
    omega

theorem rateResult_banned_iff : rateResult record now = .banned ↔ 1000 < record.count := by
  unfold rateResult
  split_ifs with bans
  · simp [bans]
  · simp [bans]
  · simp [bans]

/-! The wait. -/

theorem recent_of_lt (started : record.lastSeen ≤ now) (young : now < record.lastSeen + 300) :
    recent now record = .ok true := by
  have ages : checkedSub now record.lastSeen = .ok (now - record.lastSeen) := if_pos started
  have less : now - record.lastSeen < 300 := by omega
  rw [recent, ages, bind_of_ok]
  simp only [less, decide_true]
  rfl

/-- The calls for other addresses leave a record alone, and so does a cleanup while the record
is young. -/
theorem record_kept (step : Performs s event s') (foreign : event.call.isFor ip = false)
    (found : s.ipRequests.lookup ip = some record)
    (young : ∀ now ∈ event.readings, record.lastSeen ≤ now ∧ now < record.lastSeen + 300) :
    s'.ipRequests.lookup ip = some record := by
  obtain ⟨call, answer⟩ := event
  cases call with
  | isBanned client now =>
    obtain ⟨rfl, _⟩ := performs_isBanned_iff.mp step
    rw [isBanned_fst_requests]
    exact found
  | checkRateLimit client now banNow =>
    have other : ip ≠ client := fun same => of_decide_eq_false foreign same.symm
    obtain ⟨touched, _, _, _, rfl⟩ := performs_checkRateLimit_iff.mp step
    exact (AList.lookup_insert_ne other).trans found
  | cleanup now =>
    obtain ⟨cleaned, _⟩ := performs_cleanup_iff.mp step
    obtain ⟨started, less⟩ := young now (List.mem_singleton.mpr rfl)
    exact (cleanup_ok cleaned).1 ip record |>.mpr ⟨found, recent_of_lt started less⟩

theorem record_kept_run (run : Run Performs s events s')
    (foreign : ∀ event ∈ events, event.call.isFor ip = false)
    (found : s.ipRequests.lookup ip = some record)
    (young : ∀ now ∈ events.flatMap readings,
      record.lastSeen ≤ now ∧ now < record.lastSeen + 300) :
    s'.ipRequests.lookup ip = some record := by
  induction run with
  | nil s => exact found
  | @cons s s' u event events step _ ih =>
    rw [List.flatMap_cons, List.forall_mem_append] at young
    apply ih (fun event member => foreign event (List.mem_cons_of_mem _ member)) _ young.2
    exact record_kept step (foreign event List.mem_cons_self) found young.1

theorem limited_record {retryAfter : Nat}
    (step : Performs s ⟨.checkRateLimit ip t banNow, .rate (.limited retryAfter)⟩ s') :
    ∃ record, s'.ipRequests.lookup ip = some record ∧ 100 < record.count ∧
      record.lastSeen = t ∧ record.windowStart + 60 = t + retryAfter ∧ retryAfter ≤ 60 := by
  obtain ⟨record, touched, _, same, rfl⟩ := performs_checkRateLimit_iff.mp step
  obtain ⟨seen, started, within, _⟩ := touch_ok touched
  obtain ⟨many, _, rfl⟩ := rateResult_limited_iff.mp (LimiterAnswer.rate.inj same)
  exact ⟨record, AList.lookup_insert _, many, seen, by omega, by omega⟩

/-- The window is over only after its last second, so a check in it still counts. -/
theorem retry_at_end {result : RateResult} (found : s.ipRequests.lookup ip = some record)
    (many : 100 < record.count)
    (checked : s.checkRateLimit ip (record.windowStart + 60) banNow = .ok (s', result)) :
    result = .limited 0 ∨ result = .banned := by
  obtain ⟨touched, touch, _, rfl, _⟩ := checkRateLimit_ok_iff.mp checked
  rw [found] at touch
  have counts := touch_counts touch
  obtain ⟨_, _, _, starts⟩ := touch_ok touch
  have same : restarts (some record) (record.windowStart + 60) = false := by
    simp [restarts]
  rw [same, if_neg Bool.false_ne_true] at counts starts
  simp only [Option.map_some, Option.getD_some] at counts starts
  by_cases bans : 1000 < touched.count
  · exact .inr (rateResult_banned_iff.mpr bans)
  · left
    apply rateResult_limited_iff.mpr
    omega

/-- The record of a check that was told to wait is still there at the end of the wait, which is
the last second of its window. -/
theorem waited_record {before mid : List LimiterEvent} {retryAfter : Nat}
    (run : Run Performs .new
      (before ++ ⟨.checkRateLimit ip t banNow, .rate (.limited retryAfter)⟩ :: mid) s)
    (foreign : ∀ event ∈ mid, event.call.isFor ip = false)
    (ordered : ((before ++ ⟨.checkRateLimit ip t banNow, .rate (.limited retryAfter)⟩ ::
      mid).flatMap readings ++ [t + retryAfter]).Pairwise (· ≤ ·)) :
    ∃ record, s.ipRequests.lookup ip = some record ∧ 100 < record.count ∧
      record.windowStart + 60 = t + retryAfter := by
  obtain ⟨limited, _, rest⟩ := run_append_iff.mp run
  obtain ⟨after, step, rest⟩ := run_cons_iff.mp rest
  obtain ⟨record, found, many, seen, ends, short⟩ := limited_record step
  have young : ∀ now ∈ mid.flatMap readings,
      record.lastSeen ≤ now ∧ now < record.lastSeen + 300 := by
    intro now read
    rw [List.flatMap_append, List.flatMap_cons, List.append_assoc, List.append_assoc] at ordered
    obtain ⟨_, tail, _⟩ := List.pairwise_append.mp ordered
    obtain ⟨_, late, early⟩ := List.pairwise_append.mp tail
    have from_t : t ≤ now := early t List.mem_cons_self now (List.mem_append_left _ read)
    have to_end : now ≤ t + retryAfter :=
      (List.pairwise_append.mp late).2.2 now read _ (List.mem_singleton.mpr rfl)
    omega
  exact ⟨record, record_kept_run rest foreign found young, many, ends⟩

/-- Whenever a check is told to wait, the check made after the wait does not pass: it is told
to wait zero seconds, or the address is banned. -/
theorem retry_never_passes {before mid : List LimiterEvent} {retryAfter : Nat}
    (run : Run Performs .new
      (before ++ ⟨.checkRateLimit ip t banNow, .rate (.limited retryAfter)⟩ :: mid) s)
    (foreign : ∀ event ∈ mid, event.call.isFor ip = false)
    (ordered : ((before ++ ⟨.checkRateLimit ip t banNow, .rate (.limited retryAfter)⟩ ::
      mid).flatMap readings ++ [t + retryAfter]).Pairwise (· ≤ ·)) :
    (¬ ∃ retryBanNow s', s.checkRateLimit ip (t + retryAfter) retryBanNow = .ok (s', .allowed)) ∧
      ∀ retryBanNow s' result,
        s.checkRateLimit ip (t + retryAfter) retryBanNow = .ok (s', result) →
        result = .limited 0 ∨ result = .banned := by
  obtain ⟨record, kept, many, ends⟩ := waited_record run foreign ordered
  rw [← ends]
  constructor
  · rintro ⟨retryBanNow, s', checked⟩
    rcases retry_at_end kept many checked with impossible | impossible
    · cases impossible
    · cases impossible
  · intro retryBanNow s' result checked
    exact retry_at_end kept many checked

/-- A client that spends the hundred checks of its window at once. -/
def hundredChecks : List LimiterEvent :=
  List.replicate 100 ⟨.checkRateLimit "10.0.0.1" 1700000000 1700000000, .rate .allowed⟩

def oneCheckMore : LimiterEvent :=
  ⟨.checkRateLimit "10.0.0.1" 1700000000 1700000000, .rate (.limited 60)⟩

theorem hundredChecks_run : ∃ s, Run Performs .new (hundredChecks ++ [oneCheckMore]) s := by
  have observed : new.observe (List.replicate 101 oneCheckMore.call) =
      hundredChecks ++ [oneCheckMore] := by
    decide
  obtain ⟨run, _⟩ := observe_run new (List.replicate 101 oneCheckMore.call)
  rwa [observed] at run

theorem hundredChecks_ordered :
    ((hundredChecks ++ [oneCheckMore]).flatMap readings ++ [1700000060]).Pairwise (· ≤ ·) := by
  decide +kernel

theorem retry_never_passes_hundred : ∃ s, Run Performs .new (hundredChecks ++ [oneCheckMore]) s ∧
    ¬ ∃ retryBanNow s', s.checkRateLimit "10.0.0.1" 1700000060 retryBanNow =
      .ok (s', .allowed) := by
  obtain ⟨s, run⟩ := hundredChecks_run
  exact ⟨s, run, (retry_never_passes run nofun hundredChecks_ordered).1⟩

theorem retry_is_refused :
    ¬ ∀ (before mid : List LimiterEvent) (s : AttackPrevention) (ip : String)
      (t banNow retryAfter : Nat),
      Run Performs .new
        (before ++ ⟨.checkRateLimit ip t banNow, .rate (.limited retryAfter)⟩ :: mid) s →
      (∀ event ∈ mid, event.call.isFor ip = false) →
      ((before ++ ⟨.checkRateLimit ip t banNow, .rate (.limited retryAfter)⟩ ::
        mid).flatMap readings ++ [t + retryAfter]).Pairwise (· ≤ ·) →
      ∃ retryBanNow s', s.checkRateLimit ip (t + retryAfter) retryBanNow =
        .ok (s', .allowed) := by
  intro honest
  obtain ⟨s, run⟩ := hundredChecks_run
  obtain ⟨retryBanNow, s', checked⟩ := honest _ [] s "10.0.0.1" _ _ _ run nofun
    hundredChecks_ordered
  obtain ⟨record, kept, many, ends⟩ := waited_record run nofun hundredChecks_ordered
  rw [← ends] at checked
  rcases retry_at_end kept many checked with impossible | impossible
  · cases impossible
  · cases impossible

/-! The checks that pass. -/

/-- How many checks from `t` to `t + 60` the windows up to this record leave room for: a window
that begins then has one window before it at most. -/
def quota (t : Nat) (record : IpRecord) : Nat :=
  if record.windowStart < t then min record.count 100
  else if record.windowStart ≤ t + 60 then 100 + min record.count 100
  else 200

theorem quota_cases (t : Nat) (record : IpRecord) :
    record.windowStart < t ∧ quota t record = min record.count 100 ∨
    t ≤ record.windowStart ∧ record.windowStart ≤ t + 60 ∧
      quota t record = 100 + min record.count 100 ∨
    t + 60 < record.windowStart ∧ quota t record = 200 := by
  unfold quota
  by_cases before : record.windowStart < t
  · rw [if_pos before]
    exact .inl ⟨before, rfl⟩
  · rw [if_neg before]
    by_cases during : record.windowStart ≤ t + 60
    · rw [if_pos during]
      exact .inr (.inl ⟨Nat.le_of_not_lt before, during, rfl⟩)
    · rw [if_neg during]
      exact .inr (.inr ⟨Nat.lt_of_not_le during, rfl⟩)

theorem quota_le (t : Nat) (record : IpRecord) : quota t record ≤ 200 := by
  rcases quota_cases t record with ⟨_, quota⟩ | ⟨_, _, quota⟩ | ⟨_, quota⟩
  · omega
  · omega
  · omega

/-- So many checks have passed since `t`, by where the window of the address stands. -/
structure Spent (ip : String) (t clock passed : Nat) (s : AttackPrevention) : Prop where
  early : clock < t → passed = 0
  fresh : s.ipRequests.lookup ip = none → passed = 0
  within : ∀ record, s.ipRequests.lookup ip = some record → passed ≤ quota t record

theorem touch_spends {passed : Nat} (touched : touch stored now = .ok record)
    (early : now < t → passed = 0) (fresh : stored = none → passed = 0)
    (within : ∀ old, stored = some old → passed ≤ quota t old) :
    (passed + if record.count ≤ 100 ∧ t ≤ now ∧ now ≤ t + 60 then 1 else 0) ≤ quota t record := by
  have counts := touch_counts touched
  obtain ⟨_, started, short, starts⟩ := touch_ok touched
  have next := quota_cases t record
  cases stored with
  | none =>
    have nonePassed := fresh rfl
    simp only [restarts, Option.all_none, if_true] at counts starts
    split <;> omega
  | some old =>
    have spent := within old rfl
    have last := quota_cases t old
    by_cases late : 60 < now - old.windowStart
    · simp only [restarts, Option.all_some, late, decide_true, if_true] at counts starts
      split <;> omega
    · simp only [restarts, Option.all_some, late, decide_false, Bool.false_eq_true, if_false,
        Option.map_some, Option.getD_some] at counts starts
      split <;> omega

theorem admits_iff (ip : String) (banNow : Nat) : (LimiterEvent.admits ip t
    ⟨.checkRateLimit ip now banNow, .rate (rateResult record now)⟩ = true) ↔
      record.count ≤ 100 ∧ t ≤ now ∧ now ≤ t + 60 := by
  rw [← rateResult_allowed_iff record now]
  cases rateResult record now with
  | allowed => simp [admits]
  | limited retryAfter => simp [admits]
  | banned => simp [admits]

theorem Spent.step {passed : Nat} (spent : Spent ip t clock passed s)
    (own : event.call.isFor ip = true) (reads : ∀ now ∈ event.readings, clock ≤ now)
    (step : Performs s event s') :
    ∃ now ∈ event.readings, Spent ip t now (passed + if event.admits ip t then 1 else 0) s' := by
  obtain ⟨call, answer⟩ := event
  cases call with
  | isBanned client now =>
    obtain ⟨rfl, rfl⟩ := performs_isBanned_iff.mp step
    have read : now ∈ LimiterCall.readings (.isBanned client now) := List.mem_singleton.mpr rfl
    refine ⟨now, read, fun before => spent.early ?_, ?_, ?_⟩
    · exact Nat.lt_of_le_of_lt (reads now read) before
    · rw [isBanned_fst_requests]
      exact spent.fresh
    · rw [isBanned_fst_requests]
      exact spent.within
  | checkRateLimit client now banNow =>
    obtain rfl : client = ip := of_decide_eq_true own
    obtain ⟨record, touched, _, rfl, rfl⟩ := performs_checkRateLimit_iff.mp step
    have read : now ∈ LimiterCall.readings (.checkRateLimit client now banNow) :=
      List.mem_cons_self
    have early (before : now < t) : passed = 0 :=
      spent.early (Nat.lt_of_le_of_lt (reads now read) before)
    have within := touch_spends touched early spent.fresh spent.within
    simp only [← admits_iff client banNow] at within
    have stored : (s.afterCheck client record banNow).ipRequests.lookup client = some record :=
      AList.lookup_insert _
    refine ⟨now, read, ?_, ?_, ?_⟩
    · intro before
      rw [early before, if_neg (by rw [admits_iff]; omega)]
    · rw [stored]
      exact nofun
    · rw [stored]
      rintro found same
      obtain rfl := Option.some.inj same
      exact within
  | cleanup now => cases own

theorem Spent.run {passed : Nat} (run : Run Performs s events s')
    (own : ∀ event ∈ events, event.call.isFor ip = true) (spent : Spent ip t clock passed s)
    (ordered : (clock :: events.flatMap readings).Pairwise (· ≤ ·)) :
    passed + events.countP (admits ip t) ≤ 200 := by
  induction run generalizing clock passed with
  | nil s =>
    rw [List.countP_nil, Nat.add_zero]
    cases stored : s.ipRequests.lookup ip with
    | none =>
      rw [spent.fresh stored]
      exact Nat.zero_le 200
    | some record => exact (spent.within record stored).trans (quota_le t record)
  | @cons s s' u event events step _ ih =>
    obtain ⟨now, read, next⟩ := spent.step (own event List.mem_cons_self)
      (fun now read => (reading_passes ordered read).1) step
    have rest := ih (fun event member => own event (List.mem_cons_of_mem _ member)) next
      (reading_passes ordered read).2
    rw [List.countP_cons]
    omega

theorem countP_own (ip : String) (t : Nat) (events : List LimiterEvent) :
    (events.filter fun event => event.call.isFor ip).countP (admits ip t) =
      events.countP (admits ip t) := by
  rw [List.countP_filter]
  apply List.countP_congr
  rintro ⟨call, answer⟩ _
  cases call with
  | isBanned client now => simp [admits]
  | cleanup now => simp [admits]
  | checkRateLimit client now banNow =>
    cases answer with
    | rate result =>
      cases result with
      | allowed => simp +contextual [admits, LimiterCall.isFor]
      | limited retryAfter => simp [admits]
      | banned => simp [admits]
    | banned verdict => simp [admits]
    | cleaned => simp [admits]

/-- At most 200 checks of an address pass within any 61 seconds. -/
theorem admitted_le (run : Run Performs .new events s)
    (ordered : (events.flatMap readings).Pairwise (· ≤ ·)) (ip : String) (t : Nat) :
    events.countP (admits ip t) ≤ 200 := by
  obtain ⟨p, own, _⟩ := run.project own_agrees other_agrees (new_agrees ip ordered)
  have fresh : Spent ip t 0 0 .new := ⟨fun _ => rfl, fun _ => rfl, nofun⟩
  have inOrder : (0 :: (events.filter fun event => event.call.isFor ip).flatMap
      readings).Pairwise (· ≤ ·) :=
    List.pairwise_cons.mpr ⟨fun _ _ => Nat.zero_le _,
      ordered.sublist (List.filter_sublist.flatMap _)⟩
  have bound := fresh.run own (fun event member => (List.mem_filter.mp member).2) inOrder
  rwa [Nat.zero_add, countP_own] at bound

/-! How long a ban lasts. -/

/-- The address is banned until a day after `t` at least. -/
def Barred (ip : String) (t clock : Nat) (s : AttackPrevention) : Prop :=
  t ≤ clock ∧ (clock < t + 86400 → ∃ expiry, s.bannedIps.lookup ip = some expiry ∧
    t + 86400 ≤ expiry)

theorem Barred.step (barred : Barred ip t clock s) (reads : ∀ now ∈ event.readings, clock ≤ now)
    (step : Performs s event s') : ∃ now ∈ event.readings, Barred ip t now s' := by
  obtain ⟨begun, lasts⟩ := barred
  obtain ⟨call, answer⟩ := event
  cases call with
  | isBanned client now =>
    obtain ⟨rfl, _⟩ := performs_isBanned_iff.mp step
    have read : now ∈ LimiterCall.readings (.isBanned client now) := List.mem_singleton.mpr rfl
    have passes := reads now read
    refine ⟨now, read, begun.trans passes, fun early => ?_⟩
    obtain ⟨expiry, stored, late⟩ := lasts (Nat.lt_of_le_of_lt passes early)
    refine ⟨expiry, ?_, late⟩
    by_cases own : client = ip
    · subst own
      have stands : now < expiry := Nat.lt_of_lt_of_le early late
      rw [(isBanned_bans s client now).1, stored]
      simp [Option.filter, stands]
    · rw [isBanned_fst_bans_of_ne s now (Ne.symm own)]
      exact stored
  | checkRateLimit client now banNow =>
    obtain ⟨record, _, _, _, rfl⟩ := performs_checkRateLimit_iff.mp step
    have read : now ∈ LimiterCall.readings (.checkRateLimit client now banNow) :=
      List.mem_cons_self
    have passes := reads now read
    have banPasses := reads banNow (List.mem_cons_of_mem _ (List.mem_singleton.mpr rfl))
    refine ⟨now, read, begun.trans passes, fun early => ?_⟩
    obtain ⟨expiry, stored, late⟩ := lasts (Nat.lt_of_le_of_lt passes early)
    unfold afterCheck
    dsimp only
    split
    · by_cases own : ip = client
      · subst own
        exact ⟨_, AList.lookup_insert _, by omega⟩
      · exact ⟨expiry, (AList.lookup_insert_ne own).trans stored, late⟩
    · exact ⟨expiry, stored, late⟩
  | cleanup now =>
    obtain ⟨cleaned, _⟩ := performs_cleanup_iff.mp step
    have read : now ∈ LimiterCall.readings (.cleanup now) := List.mem_singleton.mpr rfl
    have passes := reads now read
    refine ⟨now, read, begun.trans passes, fun early => ?_⟩
    obtain ⟨expiry, stored, late⟩ := lasts (Nat.lt_of_le_of_lt passes early)
    have stands : now < expiry := Nat.lt_of_lt_of_le early late
    exact ⟨expiry, ((cleanup_ok cleaned).2 ip expiry).mpr ⟨stored, stands⟩, late⟩

theorem Barred.run (run : Run Performs s events s') (barred : Barred ip t clock s)
    (ordered : (clock :: events.flatMap readings).Pairwise (· ≤ ·)) {later : Nat}
    (after : ∀ now ∈ clock :: events.flatMap readings, now ≤ later) : Barred ip t later s' := by
  induction run generalizing clock with
  | nil s =>
    obtain ⟨begun, lasts⟩ := barred
    have passes := after clock List.mem_cons_self
    exact ⟨begun.trans passes, fun early => lasts (Nat.lt_of_le_of_lt passes early)⟩
  | @cons s s' u event events step _ ih =>
    obtain ⟨now, read, next⟩ := barred.step (fun now read => (reading_passes ordered read).1) step
    apply ih next (reading_passes ordered read).2
    intro reading member
    apply after
    rw [List.flatMap_cons]
    rcases List.mem_cons.mp member with rfl | more
    · exact List.mem_cons_of_mem _ (List.mem_append_left _ read)
    · exact List.mem_cons_of_mem _ (List.mem_append_right _ more)

theorem barred_of_banned (step : Performs s ⟨.checkRateLimit ip t banNow, .rate .banned⟩ s')
    (passes : t ≤ banNow) : Barred ip t t s' := by
  obtain ⟨record, _, _, same, rfl⟩ := performs_checkRateLimit_iff.mp step
  have bans := rateResult_banned_iff.mp (LimiterAnswer.rate.inj same)
  refine ⟨Nat.le_refl t, fun _ => ?_⟩
  unfold afterCheck
  dsimp only
  rw [if_pos bans]
  exact ⟨banNow + 86400, AList.lookup_insert _, by omega⟩

/-- Once a check is answered with a ban, the address is banned for a day. -/
theorem banned_for_a_day {before mid after : List LimiterEvent} {later : Nat} {verdict : Bool}
    (run : Run Performs .new (before ++ ⟨.checkRateLimit ip t banNow, .rate .banned⟩ ::
      (mid ++ ⟨.isBanned ip later, .banned verdict⟩ :: after)) s)
    (ordered : ((before ++ ⟨.checkRateLimit ip t banNow, .rate .banned⟩ ::
      (mid ++ ⟨.isBanned ip later, .banned verdict⟩ :: after)).flatMap readings).Pairwise (· ≤ ·))
    (within : later < t + 86400) : verdict = true := by
  obtain ⟨banned, _, rest⟩ := run_append_iff.mp run
  obtain ⟨banned', step, rest⟩ := run_cons_iff.mp rest
  obtain ⟨asked, between, rest⟩ := run_append_iff.mp rest
  obtain ⟨_, ask, _⟩ := run_cons_iff.mp rest
  rw [List.flatMap_append, List.flatMap_cons, List.flatMap_append, List.flatMap_cons] at ordered
  obtain ⟨_, tail, _⟩ := List.pairwise_append.mp ordered
  obtain ⟨own, tail, fromCheck⟩ := List.pairwise_append.mp tail
  obtain ⟨inOrder, _, toAsked⟩ := List.pairwise_append.mp tail
  have passes : t ≤ banNow :=
    (List.pairwise_cons.mp own).1 banNow (List.mem_singleton.mpr rfl)
  have asks : later ∈ LimiterEvent.readings ⟨.isBanned ip later, .banned verdict⟩ :=
    List.mem_singleton.mpr rfl
  have barred : Barred ip t later asked := by
    apply (barred_of_banned step passes).run between
    · exact List.pairwise_cons.mpr ⟨fun now read => fromCheck t List.mem_cons_self now
        (List.mem_append_left _ read), inOrder⟩
    · intro now read
      rcases List.mem_cons.mp read with rfl | read
      · exact fromCheck now List.mem_cons_self later
          (List.mem_append_right _ (List.mem_append_left _ asks))
      · exact toAsked now read later (List.mem_append_left _ asks)
  obtain ⟨expiry, stored, late⟩ := barred.2 within
  have stands : later < expiry := Nat.lt_of_lt_of_le within late
  obtain ⟨_, same⟩ := performs_isBanned_iff.mp ask
  rw [← LimiterAnswer.banned.inj same, (isBanned_bans asked ip later).2, stored]
  simp [stands]

/-- In every run at most 200 checks of an address pass within any 61 seconds, and each ban lasts
a day. -/
theorem admission_bound (run : Run Performs .new events s)
    (ordered : (events.flatMap readings).Pairwise (· ≤ ·)) (ip : String) :
    (∀ t, events.countP (admits ip t) ≤ 200) ∧
      ∀ before mid after t banNow later verdict,
        events = before ++ ⟨.checkRateLimit ip t banNow, .rate .banned⟩ ::
          (mid ++ ⟨.isBanned ip later, .banned verdict⟩ :: after) →
        later < t + 86400 → verdict = true := by
  constructor
  · exact admitted_le run ordered ip
  · rintro before mid after t banNow later verdict rfl within
    exact banned_for_a_day run ordered within

theorem admission_bound_hundred : (hundredChecks ++ [oneCheckMore]).countP
    (admits "10.0.0.1" 1700000000) ≤ 200 := by
  obtain ⟨s, run⟩ := hundredChecks_run
  exact (admission_bound run (by decide +kernel) "10.0.0.1").1 1700000000

end AttackPrevention

end Solnet.Daemon
