import Mathlib.Data.List.Flatten
import Solnet.Daemon.AttackPrevention
import Solnet.Lib.Runs

/-! The calls on the limiter one after another, each with its clock readings and its
answer. -/
namespace Solnet.Daemon
open Runs Fallible

inductive LimiterCall where
  | isBanned (ip : String) (now : Nat)
  | checkRateLimit (ip : String) (now banNow : Nat)
  | cleanup (now : Nat)
  deriving DecidableEq, Repr

inductive LimiterAnswer where
  | banned (verdict : Bool)
  | rate (result : RateResult)
  | cleaned
  deriving DecidableEq, Repr

structure LimiterEvent where
  call : LimiterCall
  answer : LimiterAnswer
  deriving DecidableEq, Repr

namespace LimiterCall

def readings : LimiterCall → List Nat
  | .isBanned _ now => [now]
  | .checkRateLimit _ now banNow => [now, banNow]
  | .cleanup now => [now]

def isFor (ip : String) : LimiterCall → Bool
  | .isBanned client _ => client = ip
  | .checkRateLimit client _ _ => client = ip
  | .cleanup _ => false

end LimiterCall

namespace AttackPrevention

def perform (s : AttackPrevention) : LimiterCall → Checked (AttackPrevention × LimiterAnswer)
  | .isBanned ip now => .ok ((s.isBanned ip now).1, .banned (s.isBanned ip now).2)
  | .checkRateLimit ip now banNow => do
    let (s, result) ← s.checkRateLimit ip now banNow
    return (s, .rate result)
  | .cleanup now => do
    let s ← s.cleanup now
    return (s, .cleaned)

/-- The calls with their answers, up to one that aborts the daemon. -/
def observe (s : AttackPrevention) : List LimiterCall → List LimiterEvent
  | [] => []
  | call :: calls =>
    match s.perform call with
    | .ok (s, answer) => ⟨call, answer⟩ :: s.observe calls
    | .error _ => []

def Performs (s : AttackPrevention) (event : LimiterEvent) (s' : AttackPrevention) : Prop :=
  s.perform event.call = .ok (s', event.answer)

/-! What the checks come to. -/

def rateResult (record : IpRecord) (now : Nat) : RateResult :=
  if 1000 < record.count then .banned
  else if 100 < record.count then .limited (60 - (now - record.windowStart))
  else .allowed

def afterCheck (s : AttackPrevention) (ip : String) (record : IpRecord) (banNow : Nat) :
    AttackPrevention :=
  { s with
    ipRequests := s.ipRequests.insert ip record
    bannedIps := if 1000 < record.count then s.bannedIps.insert ip (banNow + 86400)
      else s.bannedIps }

variable {s s' p : AttackPrevention} {ip client : String} {now banNow clock : Nat}
  {record : IpRecord} {result : RateResult}

theorem countRequest_of_touch (touched : touch (s.ipRequests.lookup ip) now = .ok record) :
    s.countRequest ip now = .ok ({ s with ipRequests := s.ipRequests.insert ip record },
      if 1000 < record.count then none else some (rateResult record now)) := by
  obtain ⟨ages, waits⟩ := retryAfter_of_touch touched
  rw [countRequest, touched, bind_of_ok]
  dsimp only
  by_cases bans : 1000 < record.count
  · rw [if_pos bans, if_pos bans]
    rfl
  · rw [if_neg bans, if_neg bans, rateResult, if_neg bans]
    by_cases limits : 100 < record.count
    · rw [if_pos limits, if_pos limits, ages, bind_of_ok, waits]
      rfl
    · rw [if_neg limits, if_neg limits]
      rfl

theorem banIp_ok_iff {durationSecs : Nat} : s.banIp ip durationSecs now = .ok s' ↔
    now + durationSecs < 2 ^ 64 ∧
      { s with bannedIps := s.bannedIps.insert ip (now + durationSecs) } = s' := by
  simp only [banIp, bind_ok_iff, checkedAdd, addWithin_ok_iff, pure, Except.pure, Except.ok.injEq]
  constructor
  · rintro ⟨_, ⟨fits, rfl⟩, rfl⟩
    exact ⟨fits, rfl⟩
  · rintro ⟨fits, rfl⟩
    exact ⟨_, ⟨fits, rfl⟩, rfl⟩

theorem checkRateLimit_of_touch (touched : touch (s.ipRequests.lookup ip) now = .ok record) :
    s.checkRateLimit ip now banNow = .ok (s', result) ↔
      (1000 < record.count → banNow + 86400 < 2 ^ 64) ∧ rateResult record now = result ∧
        s.afterCheck ip record banNow = s' := by
  rw [checkRateLimit, countRequest_of_touch touched, bind_of_ok]
  by_cases bans : 1000 < record.count
  · rw [if_pos bans]
    dsimp only
    rw [bind_ok_iff]
    simp only [banIp_ok_iff, pure, Except.pure, Except.ok.injEq, Prod.mk.injEq, rateResult,
      afterCheck, bans, if_true, true_imp_iff]
    constructor
    · rintro ⟨_, ⟨fits, rfl⟩, rfl, rfl⟩
      exact ⟨fits, rfl, rfl⟩
    · rintro ⟨fits, rfl, rfl⟩
      exact ⟨_, ⟨fits, rfl⟩, rfl, rfl⟩
  · rw [if_neg bans, afterCheck, if_neg bans]
    simp only [pure, Except.pure, Except.ok.injEq, Prod.mk.injEq, bans, false_imp_iff, true_and]
    exact and_comm

theorem checkRateLimit_ok_iff : s.checkRateLimit ip now banNow = .ok (s', result) ↔
    ∃ record, touch (s.ipRequests.lookup ip) now = .ok record ∧
      (1000 < record.count → banNow + 86400 < 2 ^ 64) ∧ rateResult record now = result ∧
      s.afterCheck ip record banNow = s' := by
  constructor
  · intro ok
    obtain ⟨⟨counted, verdict⟩, count, _⟩ := bind_ok_iff.mp ok
    obtain ⟨record, touched, _⟩ := countRequest_ok count
    exact ⟨record, touched, (checkRateLimit_of_touch touched).mp ok⟩
  · rintro ⟨record, touched, rest⟩
    exact (checkRateLimit_of_touch touched).mpr rest

theorem cleanup_ok (ok : s.cleanup now = .ok s') :
    (∀ client record, s'.ipRequests.lookup client = some record ↔
      s.ipRequests.lookup client = some record ∧ recent now record = .ok true) ∧
    ∀ client expiry, s'.bannedIps.lookup client = some expiry ↔
      s.bannedIps.lookup client = some expiry ∧ now < expiry := by
  obtain ⟨requests, retained, ok⟩ := bind_ok_iff.mp ok
  obtain ⟨bans, kept, ok⟩ := bind_ok_iff.mp ok
  obtain rfl := Except.ok.inj ok
  refine ⟨fun client record => Table.lookup_retain_iff retained, fun client expiry => ?_⟩
  rw [show (({ s with ipRequests := requests, bannedIps := bans } : AttackPrevention).bannedIps
    ) = bans from rfl, Table.lookup_retain_iff kept]
  simp

/-! What each kind of call does. -/

theorem performs_isBanned_iff {answer : LimiterAnswer} :
    Performs s ⟨.isBanned ip now, answer⟩ s' ↔
      (s.isBanned ip now).1 = s' ∧ .banned (s.isBanned ip now).2 = answer := by
  simp only [Performs, perform, Except.ok.injEq, Prod.mk.injEq]

theorem performs_checkRateLimit_iff {answer : LimiterAnswer} :
    Performs s ⟨.checkRateLimit ip now banNow, answer⟩ s' ↔
      ∃ record, touch (s.ipRequests.lookup ip) now = .ok record ∧
        (1000 < record.count → banNow + 86400 < 2 ^ 64) ∧
        .rate (rateResult record now) = answer ∧ s.afterCheck ip record banNow = s' := by
  constructor
  · intro step
    obtain ⟨⟨_, result⟩, checked, ok⟩ := bind_ok_iff.mp step
    obtain ⟨rfl, rfl⟩ := Prod.mk.inj (Except.ok.inj ok)
    obtain ⟨record, touched, fits, rfl, rfl⟩ := checkRateLimit_ok_iff.mp checked
    exact ⟨record, touched, fits, rfl, rfl⟩
  · rintro ⟨record, touched, fits, rfl, rfl⟩
    exact bind_ok_iff.mpr ⟨(_, rateResult record now),
      checkRateLimit_ok_iff.mpr ⟨record, touched, fits, rfl, rfl⟩, rfl⟩

theorem performs_cleanup_iff {answer : LimiterAnswer} :
    Performs s ⟨.cleanup now, answer⟩ s' ↔ s.cleanup now = .ok s' ∧ .cleaned = answer := by
  constructor
  · intro step
    obtain ⟨_, cleaned, ok⟩ := bind_ok_iff.mp step
    obtain ⟨rfl, same⟩ := Prod.mk.inj (Except.ok.inj ok)
    exact ⟨cleaned, same⟩
  · rintro ⟨cleaned, rfl⟩
    exact bind_ok_iff.mpr ⟨s', cleaned, rfl⟩

/-- A window that began long ago begins anew, as if the address were new. -/
theorem touch_restarted (late : record.windowStart + 60 < now) :
    touch (some record) now = touch none now := by
  have started : record.windowStart ≤ now := by omega
  have restarts : 60 < now - record.windowStart := by omega
  simp [touch, checkedSub, subWithin, started, restarts, bind_of_ok]

/-! Beside the limiter `s` that serves every address stands a limiter `p` that serves one. -/

/-- For the address, `s` lacks at most what has run out: a record whose window is over,
and a ban that has expired. -/
structure Agrees (ip : String) (clock : Nat) (s p : AttackPrevention) : Prop where
  record : s.ipRequests.lookup ip = p.ipRequests.lookup ip ∨
    s.ipRequests.lookup ip = none ∧
      ∃ record, p.ipRequests.lookup ip = some record ∧ record.windowStart + 60 < clock
  ban : s.bannedIps.lookup ip = p.bannedIps.lookup ip ∨
    s.bannedIps.lookup ip = none ∧ ∃ expiry, p.bannedIps.lookup ip = some expiry ∧ expiry ≤ clock
  seen : ∀ record, s.ipRequests.lookup ip = some record →
    record.windowStart ≤ record.lastSeen ∧ record.lastSeen ≤ clock

/-- Alike at the reading `clock`, and the calls to come read the clock no earlier. -/
def AgreesFor (ip : String) (s p : AttackPrevention) (events : List LimiterEvent) : Prop :=
  ∃ clock, Agrees ip clock s p ∧
    (clock :: events.flatMap fun event => event.call.readings).Pairwise (· ≤ ·)

theorem Agrees.later {later : Nat} (agrees : Agrees ip clock s p) (passes : clock ≤ later) :
    Agrees ip later s p where
  record := agrees.record.imp id fun ⟨gone, record, stored, old⟩ =>
    ⟨gone, record, stored, by omega⟩
  ban := agrees.ban.imp id fun ⟨gone, expiry, stored, lapsed⟩ => ⟨gone, expiry, stored, by omega⟩
  seen record stored := (agrees.seen record stored).imp id fun early => early.trans passes

theorem Agrees.touch_eq (agrees : Agrees ip clock s p) (passes : clock ≤ now) :
    touch (s.ipRequests.lookup ip) now = touch (p.ipRequests.lookup ip) now := by
  rcases agrees.record with same | ⟨gone, record, stored, old⟩
  · rw [same]
  · rw [gone, stored]
    exact (touch_restarted (by omega)).symm

theorem isBanned_fst_requests (s : AttackPrevention) (client : String) (now : Nat) :
    (s.isBanned client now).1.ipRequests = s.ipRequests := by
  unfold isBanned
  split
  · split <;> rfl
  · rfl

theorem isBanned_fst_bans_of_ne (s : AttackPrevention) (now : Nat) (other : ip ≠ client) :
    (s.isBanned client now).1.bannedIps.lookup ip = s.bannedIps.lookup ip := by
  unfold isBanned
  split
  · split
    · rfl
    · exact AList.lookup_erase_ne other
  · rfl

/-- A ban is dropped when it is found to have expired. -/
theorem isBanned_bans (s : AttackPrevention) (ip : String) (now : Nat) :
    (s.isBanned ip now).1.bannedIps.lookup ip =
        (s.bannedIps.lookup ip).filter (fun expiry => now < expiry) ∧
      (s.isBanned ip now).2 = (s.bannedIps.lookup ip).any fun expiry => now < expiry := by
  unfold isBanned
  cases stored : s.bannedIps.lookup ip with
  | none => simp [stored]
  | some expiry =>
    by_cases stands : now < expiry
    · simp [Option.filter, stands, stored]
    · simp [Option.filter, stands]

theorem Agrees.bans_filter (agrees : Agrees ip clock s p) (passes : clock ≤ now) :
    (s.bannedIps.lookup ip).filter (fun expiry => now < expiry) =
      (p.bannedIps.lookup ip).filter fun expiry => now < expiry := by
  rcases agrees.ban with same | ⟨gone, expiry, stored, lapsed⟩
  · rw [same]
  · have expired : ¬ now < expiry := by omega
    simp [Option.filter, gone, stored, expired]

theorem Agrees.isBanned (agrees : Agrees ip clock s p) (passes : clock ≤ now) :
    (s.isBanned ip now).2 = (p.isBanned ip now).2 ∧
      Agrees ip now (s.isBanned ip now).1 (p.isBanned ip now).1 := by
  obtain ⟨left, verdict⟩ := isBanned_bans s ip now
  obtain ⟨right, verdict'⟩ := isBanned_bans p ip now
  have filtered := agrees.bans_filter passes
  have later := agrees.later passes
  constructor
  · rw [verdict, verdict']
    rcases agrees.ban with same | ⟨gone, expiry, stored, lapsed⟩
    · rw [same]
    · have expired : ¬ now < expiry := by omega
      simp [gone, stored, expired]
  · constructor
    · rw [isBanned_fst_requests, isBanned_fst_requests]
      exact later.record
    · exact .inl (left.trans (filtered.trans right.symm))
    · rw [isBanned_fst_requests]
      exact later.seen

theorem Agrees.afterCheck (agrees : Agrees ip clock s p) (passes : clock ≤ now)
    (touched : touch (s.ipRequests.lookup ip) now = .ok record) :
    Agrees ip now (s.afterCheck ip record banNow) (p.afterCheck ip record banNow) := by
  obtain ⟨seen, started, _⟩ := touch_ok touched
  constructor
  · left
    simp [AttackPrevention.afterCheck]
  · by_cases bans : 1000 < record.count
    · left
      simp [AttackPrevention.afterCheck, bans]
    · simp only [AttackPrevention.afterCheck, if_neg bans]
      exact (agrees.later passes).ban
  · intro stored found
    simp only [AttackPrevention.afterCheck, Table.lookup_insert, if_true,
      Option.some.injEq] at found
    subst found
    omega

theorem Agrees.afterCheck_of_ne (agrees : Agrees ip clock s p) (other : ip ≠ client) :
    Agrees ip clock (s.afterCheck client record banNow) p := by
  have requests : (s.afterCheck client record banNow).ipRequests.lookup ip =
      s.ipRequests.lookup ip := AList.lookup_insert_ne other
  have bans : (s.afterCheck client record banNow).bannedIps.lookup ip = s.bannedIps.lookup ip := by
    unfold AttackPrevention.afterCheck
    dsimp only
    split
    · exact AList.lookup_insert_ne other
    · rfl
  constructor
  · rw [requests]
    exact agrees.record
  · rw [bans]
    exact agrees.ban
  · rw [requests]
    exact agrees.seen

/-- What the cleanup drops would have run out anyway. -/
theorem Agrees.cleanup (agrees : Agrees ip clock s p) (passes : clock ≤ now)
    (ok : s.cleanup now = .ok s') : Agrees ip now s' p := by
  obtain ⟨requests, bans⟩ := cleanup_ok ok
  have later := agrees.later passes
  constructor
  · cases kept : s'.ipRequests.lookup ip with
    | some record =>
      rcases later.record with same | ⟨gone, _⟩
      · exact .inl (((requests ip record).mp kept).1.symm.trans same)
      · cases gone.symm.trans ((requests ip record).mp kept).1
    | none =>
      cases stored : s.ipRequests.lookup ip with
      | none =>
        rw [← stored]
        exact stored ▸ later.record
      | some record =>
        obtain ⟨seen, early⟩ := later.seen record stored
        have same : s.ipRequests.lookup ip = p.ipRequests.lookup ip :=
          later.record.resolve_right fun lost => by simp [stored] at lost
        refine .inr ⟨rfl, record, same.symm.trans stored, ?_⟩
        have old : ¬ now - record.lastSeen < 300 := by
          intro young
          have keeps : recent now record = .ok true := by
            simp [recent, checkedSub, subWithin, early, bind_of_ok, young, pure, Except.pure]
          cases kept.symm.trans ((requests ip record).mpr ⟨stored, keeps⟩)
        omega
  · cases kept : s'.bannedIps.lookup ip with
    | some expiry =>
      rcases later.ban with same | ⟨gone, _⟩
      · exact .inl (((bans ip expiry).mp kept).1.symm.trans same)
      · cases gone.symm.trans ((bans ip expiry).mp kept).1
    | none =>
      cases stored : s.bannedIps.lookup ip with
      | none =>
        rw [← stored]
        exact stored ▸ later.ban
      | some expiry =>
        have same : s.bannedIps.lookup ip = p.bannedIps.lookup ip :=
          later.ban.resolve_right fun lost => by simp [stored] at lost
        refine .inr ⟨rfl, expiry, same.symm.trans stored, ?_⟩
        by_contra stands
        cases kept.symm.trans ((bans ip expiry).mpr ⟨stored, by omega⟩)
  · intro record found
    exact later.seen record ((requests ip record).mp found).1

theorem reading_passes {α : Type} {reads : α → List Nat} {a : α} {as : List α}
    (ordered : (clock :: (a :: as).flatMap reads).Pairwise (· ≤ ·)) (read : now ∈ reads a) :
    clock ≤ now ∧ (now :: as.flatMap reads).Pairwise (· ≤ ·) := by
  rw [List.flatMap_cons, List.pairwise_cons, List.pairwise_append] at ordered
  obtain ⟨after, _, rest, across⟩ := ordered
  exact ⟨after now (List.mem_append_left _ read), List.pairwise_cons.mpr ⟨across now read, rest⟩⟩

theorem own_agrees (s : AttackPrevention) (event : LimiterEvent) (s' p : AttackPrevention)
    (events : List LimiterEvent) (agrees : AgreesFor ip s p (event :: events))
    (step : Performs s event s') (own : event.call.isFor ip = true) :
    ∃ p', Performs p event p' ∧ AgreesFor ip s' p' events := by
  obtain ⟨clock, agrees, ordered⟩ := agrees
  obtain ⟨call, answer⟩ := event
  cases call with
  | isBanned client now =>
    obtain rfl : client = ip := of_decide_eq_true own
    obtain ⟨passes, rest⟩ := reading_passes ordered (List.mem_singleton.mpr rfl)
    obtain ⟨rfl, rfl⟩ := performs_isBanned_iff.mp step
    obtain ⟨verdict, kept⟩ := agrees.isBanned passes
    refine ⟨(p.isBanned client now).1, ?_, now, kept, rest⟩
    rw [Performs, verdict]
    rfl
  | checkRateLimit client now banNow =>
    obtain rfl : client = ip := of_decide_eq_true own
    obtain ⟨passes, rest⟩ := reading_passes ordered List.mem_cons_self
    obtain ⟨record, touched, fits, rfl, rfl⟩ := performs_checkRateLimit_iff.mp step
    have touched' := (agrees.touch_eq passes).symm.trans touched
    refine ⟨p.afterCheck client record banNow, ?_, now, agrees.afterCheck passes touched, rest⟩
    exact performs_checkRateLimit_iff.mpr ⟨record, touched', fits, rfl, rfl⟩
  | cleanup now => cases own

theorem other_agrees (s : AttackPrevention) (event : LimiterEvent) (s' p : AttackPrevention)
    (events : List LimiterEvent) (agrees : AgreesFor ip s p (event :: events))
    (step : Performs s event s') (foreign : event.call.isFor ip = false) :
    AgreesFor ip s' p events := by
  obtain ⟨clock, agrees, ordered⟩ := agrees
  obtain ⟨call, answer⟩ := event
  cases call with
  | isBanned client now =>
    have other : ip ≠ client := fun same => of_decide_eq_false foreign same.symm
    obtain ⟨passes, rest⟩ := reading_passes ordered (List.mem_singleton.mpr rfl)
    obtain ⟨rfl, _⟩ := performs_isBanned_iff.mp step
    have later := agrees.later passes
    refine ⟨now, ⟨?_, ?_, ?_⟩, rest⟩
    · rw [isBanned_fst_requests]
      exact later.record
    · rw [isBanned_fst_bans_of_ne s now other]
      exact later.ban
    · rw [isBanned_fst_requests]
      exact later.seen
  | checkRateLimit client now banNow =>
    have other : ip ≠ client := fun same => of_decide_eq_false foreign same.symm
    obtain ⟨passes, rest⟩ := reading_passes ordered List.mem_cons_self
    obtain ⟨record, _, _, _, rfl⟩ := performs_checkRateLimit_iff.mp step
    exact ⟨now, (agrees.later passes).afterCheck_of_ne other, rest⟩
  | cleanup now =>
    obtain ⟨passes, rest⟩ := reading_passes ordered (List.mem_singleton.mpr rfl)
    obtain ⟨cleaned, _⟩ := performs_cleanup_iff.mp step
    exact ⟨now, agrees.cleanup passes cleaned, rest⟩

/-! What is observed is a run. -/

theorem observe_run (s : AttackPrevention) (calls : List LimiterCall) :
    (∃ s', Run Performs s (s.observe calls) s') ∧
      (s.observe calls).map LimiterEvent.call <+: calls := by
  induction calls generalizing s with
  | nil => exact ⟨⟨s, .nil s⟩, List.nil_prefix⟩
  | cons call calls ih =>
    unfold observe
    split
    · rename_i s' answer performed
      obtain ⟨⟨u, run⟩, sub⟩ := ih s'
      exact ⟨⟨u, .cons performed run⟩, (List.prefix_cons_inj call).mpr sub⟩
    · exact ⟨⟨s, .nil s⟩, List.nil_prefix⟩

theorem observe_of_run {events : List LimiterEvent} {calls : List LimiterCall}
    (run : Run Performs s events s') (sub : events.map LimiterEvent.call <+: calls) :
    events <+: s.observe calls := by
  induction run generalizing calls with
  | nil s => exact List.nil_prefix
  | @cons s t u event events step _ ih =>
    cases calls with
    | nil => simp at sub
    | cons call calls =>
      rw [List.map_cons, List.cons_prefix_cons] at sub
      obtain ⟨rfl, rest⟩ := sub
      have performed : s.perform event.call = .ok (t, event.answer) := step
      rw [observe, performed]
      exact (List.prefix_cons_inj _).mpr (ih rest)

theorem new_agrees (ip : String) {events : List LimiterEvent}
    (ordered : (events.flatMap fun event => event.call.readings).Pairwise (· ≤ ·)) :
    AgreesFor ip .new .new events :=
  ⟨0, ⟨.inl rfl, .inl rfl, nofun⟩, List.pairwise_cons.mpr ⟨fun _ _ => Nat.zero_le _, ordered⟩⟩

/-! Every call is answered as long as no count and no expiry leaves 64 bits. -/

structure Within (calls clock : Nat) (s : AttackPrevention) : Prop where
  started : ∀ ip record, s.ipRequests.lookup ip = some record → record.windowStart ≤ clock
  seen : ∀ ip record, s.ipRequests.lookup ip = some record → record.lastSeen ≤ clock
  counted : ∀ ip record, s.ipRequests.lookup ip = some record → record.count ≤ calls

theorem Within.frame {n later : Nat} (bound : Within n clock s) (passes : clock ≤ later)
    (sub : ∀ ip record, s'.ipRequests.lookup ip = some record →
      s.ipRequests.lookup ip = some record) : Within (n + 1) later s' where
  started ip record found := (bound.started ip record (sub ip record found)).trans passes
  seen ip record found := (bound.seen ip record (sub ip record found)).trans passes
  counted ip record found := (bound.counted ip record (sub ip record found)).trans (Nat.le_succ n)

theorem touch_answers {stored : Option IpRecord} {n : Nat} (room : n + 1 < 2 ^ 64)
    (started : ∀ record, stored = some record → record.windowStart ≤ now ∧ record.count ≤ n) :
    ∃ record, touch stored now = .ok record ∧ record.count ≤ n + 1 := by
  have ordered : (stored.getD ⟨0, now, now⟩).windowStart ≤ now ∧
      (stored.getD ⟨0, now, now⟩).count ≤ n := by
    cases stored with
    | none => exact ⟨Nat.le_refl now, Nat.zero_le n⟩
    | some record => exact started record rfl
  unfold touch
  generalize stored.getD ⟨0, now, now⟩ = record at ordered
  have ages : checkedSub now record.windowStart = .ok (now - record.windowStart) :=
    if_pos ordered.1
  have counts {count : Nat} (few : count ≤ n) : checkedAdd 64 count 1 = .ok (count + 1) :=
    if_pos (Nat.lt_of_le_of_lt (Nat.succ_le_succ few) room)
  dsimp only
  rw [ages, bind_of_ok]
  by_cases late : 60 < now - record.windowStart
  · rw [if_pos late, counts (Nat.zero_le n)]
    exact ⟨_, rfl, Nat.succ_le_succ (Nat.zero_le n)⟩
  · rw [if_neg late, counts ordered.2]
    exact ⟨_, rfl, Nat.succ_le_succ ordered.2⟩

theorem Within.checkRateLimit {n : Nat} (bound : Within n clock s) (passes : clock ≤ now)
    (room : n + 1 < 2 ^ 64) (fits : banNow + 86400 < 2 ^ 64) :
    ∃ s' result, s.checkRateLimit client now banNow = .ok (s', result) ∧
      Within (n + 1) now s' := by
  obtain ⟨record, touched, few⟩ := touch_answers room fun record stored =>
    ⟨(bound.started client record stored).trans passes, bound.counted client record stored⟩
  obtain ⟨seen, started, _⟩ := touch_ok touched
  refine ⟨s.afterCheck client record banNow, rateResult record now,
    checkRateLimit_ok_iff.mpr ⟨record, touched, fun _ => fits, rfl, rfl⟩, ?_⟩
  have split (ip : String) (found : IpRecord)
      (here : (s.afterCheck client record banNow).ipRequests.lookup ip = some found) :
      found = record ∨ s.ipRequests.lookup ip = some found := by
    rw [show (s.afterCheck client record banNow).ipRequests = s.ipRequests.insert client record
      from rfl, Table.lookup_insert] at here
    split at here
    · exact .inl (Option.some.inj here).symm
    · exact .inr here
  constructor
  · intro ip found here
    rcases split ip found here with rfl | old
    · exact started
    · exact (bound.started ip found old).trans passes
  · intro ip found here
    rcases split ip found here with rfl | old
    · exact seen.le
    · exact (bound.seen ip found old).trans passes
  · intro ip found here
    rcases split ip found here with rfl | old
    · exact few
    · exact (bound.counted ip found old).trans (Nat.le_succ n)

theorem Within.cleanup {n : Nat} (bound : Within n clock s) (passes : clock ≤ now) :
    ∃ s', s.cleanup now = .ok s' ∧ Within (n + 1) now s' := by
  have answers : ∀ ip record, s.ipRequests.lookup ip = some record →
      ∃ kept, recent now record = .ok kept := by
    intro ip record stored
    have seen : record.lastSeen ≤ now := (bound.seen ip record stored).trans passes
    exact ⟨_, bind_ok_iff.mpr ⟨now - record.lastSeen, if_pos seen, rfl⟩⟩
  obtain ⟨requests, retained⟩ := Table.retain_answers answers
  have sweeps : ∀ ip expiry, s.bannedIps.lookup ip = some expiry →
      ∃ kept, (.ok (now < expiry) : Checked Bool) = .ok kept := fun _ _ _ => ⟨_, rfl⟩
  obtain ⟨bans, kept⟩ := Table.retain_answers sweeps
  have ok : s.cleanup now = .ok { s with ipRequests := requests, bannedIps := bans } :=
    bind_ok_iff.mpr ⟨requests, retained, bind_ok_iff.mpr ⟨bans, kept, rfl⟩⟩
  refine ⟨_, ok, bound.frame passes fun ip record found => ?_⟩
  exact ((cleanup_ok ok).1 ip record |>.mp found).1

theorem Within.perform {n : Nat} (bound : Within n clock s) (room : n + 1 < 2 ^ 64)
    {call : LimiterCall} (reads : ∀ now ∈ call.readings, clock ≤ now ∧ now + 86400 < 2 ^ 64) :
    ∃ s' answer, s.perform call = .ok (s', answer) ∧
      ∃ now ∈ call.readings, Within (n + 1) now s' := by
  cases call with
  | isBanned ip now =>
    have read : now ∈ (LimiterCall.isBanned ip now).readings := List.mem_singleton.mpr rfl
    refine ⟨_, _, rfl, now, read, bound.frame (reads now read).1 fun client record found => ?_⟩
    rwa [isBanned_fst_requests] at found
  | checkRateLimit ip now banNow =>
    have read : now ∈ (LimiterCall.checkRateLimit ip now banNow).readings := List.mem_cons_self
    have readBan : banNow ∈ (LimiterCall.checkRateLimit ip now banNow).readings :=
      List.mem_cons_of_mem now (List.mem_singleton.mpr rfl)
    obtain ⟨s', result, checked, after⟩ : ∃ s' result,
        s.checkRateLimit ip now banNow = .ok (s', result) ∧ Within (n + 1) now s' :=
      bound.checkRateLimit (reads now read).1 room (reads banNow readBan).2
    exact ⟨s', .rate result, bind_ok_iff.mpr ⟨(s', result), checked, rfl⟩, now, read, after⟩
  | cleanup now =>
    have read : now ∈ (LimiterCall.cleanup now).readings := List.mem_singleton.mpr rfl
    obtain ⟨s', cleaned, after⟩ := bound.cleanup (reads now read).1
    exact ⟨s', .cleaned, bind_ok_iff.mpr ⟨s', cleaned, rfl⟩, now, read, after⟩

theorem Within.observe {n : Nat} {calls : List LimiterCall} (bound : Within n clock s)
    (room : n + calls.length < 2 ^ 64)
    (ordered : (clock :: calls.flatMap LimiterCall.readings).Pairwise (· ≤ ·))
    (fits : ∀ now ∈ calls.flatMap LimiterCall.readings, now + 86400 < 2 ^ 64) :
    (s.observe calls).map LimiterEvent.call = calls := by
  induction calls generalizing n clock s with
  | nil => rfl
  | cons call calls ih =>
    rw [List.length_cons] at room
    rw [List.flatMap_cons, List.forall_mem_append] at fits
    obtain ⟨s', answer, performed, now, read, after⟩ := bound.perform (by omega) fun now read =>
      ⟨(reading_passes ordered read).1, fits.1 now read⟩
    have rest := ih after (by omega) (reading_passes ordered read).2 fits.2
    simp only [AttackPrevention.observe, performed, List.map_cons, rest]

/-- Each answer given for an address is the one a limiter gives that serves only this address
and is never cleaned up; and all calls are answered short of 2^64 of them, and a day short of
the end of the clock. -/
theorem limits_are_per_client (calls : List LimiterCall)
    (ordered : (calls.flatMap LimiterCall.readings).Pairwise (· ≤ ·)) :
    (∀ ip, (new.observe calls).filter (fun event => event.call.isFor ip) <+:
      new.observe (calls.filter (LimiterCall.isFor ip))) ∧
    (calls.length < 2 ^ 64 →
      (∀ now ∈ calls.flatMap LimiterCall.readings, now + 86400 < 2 ^ 64) →
      (new.observe calls).map LimiterEvent.call = calls) := by
  obtain ⟨⟨s, run⟩, sub⟩ := observe_run new calls
  have inOrder : ((new.observe calls).flatMap fun event => event.call.readings).Pairwise
      (· ≤ ·) := by
    rw [← List.flatMap_map]
    exact ordered.sublist (sub.sublist.flatMap _)
  constructor
  · intro ip
    obtain ⟨p, own, _⟩ := run.project own_agrees other_agrees (new_agrees ip inOrder)
    have selected := sub.filter (LimiterCall.isFor ip)
    rw [List.filter_map] at selected
    exact observe_of_run own selected
  · intro few fits
    have fresh : Within 0 0 new := ⟨nofun, nofun, nofun⟩
    exact fresh.observe (by omega) (List.pairwise_cons.mpr ⟨fun _ _ => Nat.zero_le _, ordered⟩) fits

/-- A client that comes back after a cleanup, between the calls of another one. -/
def twoClients : List LimiterCall :=
  [.checkRateLimit "10.0.0.1" 0 0, .checkRateLimit "10.0.0.2" 1 1, .cleanup 300,
    .isBanned "10.0.0.1" 301, .checkRateLimit "10.0.0.1" 301 301]

theorem twoClients_apart :
    (new.observe twoClients).filter (fun event => event.call.isFor "10.0.0.1") <+:
        new.observe (twoClients.filter (LimiterCall.isFor "10.0.0.1")) ∧
      (new.observe twoClients).map LimiterEvent.call = twoClients := by
  obtain ⟨apart, answered⟩ := limits_are_per_client twoClients (by decide)
  exact ⟨apart "10.0.0.1", answered (by decide) (by decide)⟩

end AttackPrevention

end Solnet.Daemon
