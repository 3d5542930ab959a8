import Solnet.Daemon.PeerGuard
import Solnet.Lib.Runs

/-! Permanent bans of peers. A failed handshake still counts while its peer is banned, and
the fifth one stores a ban of an hour over whatever ban is there. -/
namespace Solnet.Daemon
open Fallible Runs

structure Clocked (P : Type) where
  guard : PeerGuard P
  clock : Nat

variable {P : Type} [DecidableEq P]

/-- An operation whose clock readings go on from the latest one. -/
def Performs (s : Clocked P) (e : PeerEvent P) (t : Clocked P) : Prop :=
  (s.clock :: e.readings).Pairwise (· ≤ ·) ∧ e.apply s.guard = .ok t.guard ∧
    t.clock = e.readings.getLastD s.clock

/-- From now on no clock reading gets the peer allowed. -/
def Refused (peer : P) (s : Clocked P) : Prop :=
  ∀ now, s.clock ≤ now → (s.guard.isAllowed peer now).2 = false

namespace PeerGuard

def PermanentlyBanned (peer : P) (s : PeerGuard P) : Prop :=
  ∃ ban, s.banned.lookup peer = some ban ∧ ban.expiresAt = none

/-- The failed handshakes that the stored record of the peer counts. -/
def failures (s : PeerGuard P) (peer : P) : Nat :=
  ((s.scores.lookup peer).map PeerRecord.failedHandshakes).getD 0

end PeerGuard

/-- The step is not the fifth failed handshake of the peer. -/
def FewFailures (peer : P) (s : Clocked P) (e : PeerEvent P) : Prop :=
  ∀ defaultNow expiryNow banNow, e = .failedHandshake peer defaultNow expiryNow banNow →
    s.guard.failures peer < 4

namespace PeerGuard

variable {s t : PeerGuard P} {peer actor : P} {now : Nat}

theorem PermanentlyBanned.keep (permanent : s.PermanentlyBanned peer)
    (same : t.banned.lookup peer = s.banned.lookup peer) : t.PermanentlyBanned peer := by
  obtain ⟨ban, stored, forever⟩ := permanent
  exact ⟨ban, same.trans stored, forever⟩

theorem isAllowed_of_permanent (permanent : s.PermanentlyBanned peer) :
    s.isAllowed peer now = (s, false) := by
  obtain ⟨ban, stored, forever⟩ := permanent
  simp only [isAllowed, stored, BanRecord.stands, forever, if_true]

theorem isAllowed_permanent (actor : P) (now : Nat) (permanent : s.PermanentlyBanned peer) :
    (s.isAllowed actor now).1.PermanentlyBanned peer := by
  by_cases same : actor = peer
  · rw [same, isAllowed_of_permanent permanent]
    exact permanent
  · apply permanent.keep
    unfold isAllowed
    split
    · split
      · rfl
      · exact (Table.lookup_erase _ _ _).trans (if_neg (Ne.symm same))
    · rfl

theorem onProtocolViolation_ok {banNow : Nat}
    (ok : s.onProtocolViolation actor now banNow = .ok t) :
    t.banned = s.banned ∨ ∃ reason, t.banned = s.banned.insert actor ⟨reason, banNow, none⟩ := by
  obtain ⟨record, _, ok⟩ := bind_ok_iff.mp ok
  split at ok
  · cases ok
    exact .inr ⟨_, rfl⟩
  · cases ok
    exact .inl rfl

theorem failed_ok {record record' : PeerRecord} (ok : record.failed = .ok record') :
    record'.failedHandshakes = record.failedHandshakes + 1 := by
  obtain ⟨failedHandshakes, counted, ok⟩ := bind_ok_iff.mp ok
  obtain ⟨score, _, ok⟩ := bind_ok_iff.mp ok
  have sum : record.failedHandshakes + 1 = failedHandshakes := (addWithin_ok_iff.mp counted).2
  cases ok
  exact sum.symm

theorem failures_eq (s : PeerGuard P) (peer : P) (now : Nat) :
    (s.recordOf peer now).failedHandshakes = s.failures peer := by
  unfold recordOf failures
  cases s.scores.lookup peer with
  | none => rfl
  | some record => rfl

theorem failures_setRecord (s : PeerGuard P) (actor peer : P) (record : PeerRecord) :
    (s.setRecord actor record).failures peer =
      if peer = actor then record.failedHandshakes else s.failures peer := by
  unfold failures setRecord
  rw [Table.lookup_insert]
  split
  · rfl
  · rfl

theorem onFailedHandshake_ok {expiryNow banNow : Nat}
    (ok : s.onFailedHandshake actor now expiryNow banNow = .ok t) :
    s.failures actor < 4 ∧ t.banned = s.banned ∨
      4 ≤ s.failures actor ∧ t.scores.lookup actor = none ∧ ∃ reason expiry,
        t.banned = s.banned.insert actor ⟨reason, banNow, some expiry⟩ := by
  obtain ⟨record, counted, ok⟩ := bind_ok_iff.mp ok
  have count : record.failedHandshakes = s.failures actor + 1 := by
    rw [failed_ok counted, failures_eq]
  split at ok
  · rename_i fifth
    obtain ⟨expiry, _, ok⟩ := bind_ok_iff.mp ok
    cases ok
    refine .inr ⟨by omega, ?_, _, expiry, rfl⟩
    exact AList.lookup_erase _ _
  · rename_i fewer
    cases ok
    exact .inl ⟨by omega, rfl⟩

theorem cleanup_permanent (permanent : s.PermanentlyBanned peer) (ok : s.cleanup now = .ok t) :
    t.PermanentlyBanned peer := by
  obtain ⟨banned, retained, ok⟩ := bind_ok_iff.mp ok
  obtain ⟨scores, _, ok⟩ := bind_ok_iff.mp ok
  cases ok
  obtain ⟨ban, stored, forever⟩ := permanent
  have stands : ban.stands now = true := by
    simp only [BanRecord.stands, forever]
  exact ⟨ban, (Table.lookup_retain_iff retained).mpr ⟨stored, congrArg _ stands⟩, forever⟩

theorem isAllowed_expired {ban : BanRecord} {expiry : Nat}
    (stored : s.banned.lookup peer = some ban) (expires : ban.expiresAt = some expiry)
    (forgotten : s.scores.lookup peer = none) (late : expiry ≤ now) :
    (s.isAllowed peer now).2 = true := by
  have ended : ban.stands now = false := by
    simp only [BanRecord.stands, expires, decide_eq_false_iff_not, Nat.not_lt, late]
  simp only [isAllowed, stored, ended, Bool.false_eq_true, if_false, scoreAllows, forgotten]

end PeerGuard

variable {peer : P} {s t : Clocked P} {e : PeerEvent P}

theorem performs_deterministic : Deterministic (Performs (P := P)) := by
  rintro s e ⟨guard, clock⟩ ⟨guard', clock'⟩ ⟨_, first, last⟩ ⟨_, second, last'⟩
  have same : guard = guard' := Except.ok.inj (first.symm.trans second)
  have time : clock = clock' := last.trans last'.symm
  rw [same, time]

theorem permanent_or_expiring (permanent : s.guard.PermanentlyBanned peer)
    (step : Performs s e t) :
    FewFailures peer s e ∧ t.guard.PermanentlyBanned peer ∨
      ¬ FewFailures peer s e ∧ t.guard.scores.lookup peer = none ∧ ∃ ban expiry,
        t.guard.banned.lookup peer = some ban ∧ ban.expiresAt = some expiry := by
  obtain ⟨_, ok, _⟩ := step
  cases e with
  | connected actor now =>
    obtain ⟨record, _, stored⟩ := PeerGuard.onConnected_ok ok
    exact .inl ⟨nofun, permanent.keep (by rw [stored]; rfl)⟩
  | successfulRelay actor bytes defaultNow seenNow =>
    obtain ⟨record, _, stored⟩ := PeerGuard.onSuccessfulRelay_ok ok
    exact .inl ⟨nofun, permanent.keep (by rw [stored]; rfl)⟩
  | allowed actor now =>
    have kept := PeerGuard.isAllowed_permanent actor now permanent
    exact .inl ⟨nofun, Except.ok.inj ok ▸ kept⟩
  | cleanup now => exact .inl ⟨nofun, PeerGuard.cleanup_permanent permanent ok⟩
  | protocolViolation actor defaultNow banNow =>
    refine .inl ⟨nofun, ?_⟩
    rcases PeerGuard.onProtocolViolation_ok ok with same | ⟨reason, banned⟩
    · exact permanent.keep (by rw [same])
    · by_cases mine : peer = actor
      · refine ⟨⟨reason, banNow, none⟩, ?_, rfl⟩
        rw [banned, Table.lookup_insert, if_pos mine]
      · apply permanent.keep
        rw [banned, Table.lookup_insert, if_neg mine]
  | failedHandshake actor defaultNow expiryNow banNow =>
    by_cases mine : peer = actor
    · subst mine
      rcases PeerGuard.onFailedHandshake_ok ok with ⟨few, same⟩ |
        ⟨many, forgotten, reason, expiry, banned⟩
      · exact .inl ⟨fun _ _ _ _ => few, permanent.keep (by rw [same])⟩
      · refine .inr ⟨fun few => ?_, forgotten, ⟨reason, banNow, some expiry⟩, expiry, ?_, rfl⟩
        · have few' := few defaultNow expiryNow banNow rfl
          omega
        · rw [banned, Table.lookup_insert, if_pos rfl]
    · have other : FewFailures peer s (.failedHandshake actor defaultNow expiryNow banNow) := by
        intro _ _ _ same
        injection same with actor_eq
        exact absurd actor_eq.symm mine
      rcases PeerGuard.onFailedHandshake_ok ok with ⟨_, same⟩ | ⟨_, _, _, _, banned⟩
      · exact .inl ⟨other, permanent.keep (by rw [same])⟩
      · refine .inl ⟨other, permanent.keep ?_⟩
        rw [banned, Table.lookup_insert, if_neg mine]

/-- A permanent ban refuses its peer all along a run exactly when no step of the run is the
fifth failed handshake of the peer. -/
theorem ban_stays_iff_few_failures (peer : P) (s u : Clocked P) (events : List (PeerEvent P))
    (permanent : s.guard.PermanentlyBanned peer) (run : Run Performs s events u) :
    Always Performs (Refused peer) s events ↔
      Run (Guarded Performs (FewFailures peer)) s events u := by
  refine always_iff_guarded_of_shows (P := fun s => s.guard.PermanentlyBanned peer)
    performs_deterministic ?_ ?_ run permanent
  · intro s permanent now _
    rw [PeerGuard.isAllowed_of_permanent permanent]
  · intro s e t permanent step
    rcases permanent_or_expiring permanent step with kept |
      ⟨many, forgotten, ban, expiry, stored, expires⟩
    · exact .inl kept
    · refine .inr ⟨many, fun refused => ?_⟩
      have late : t.clock ≤ max t.clock expiry := Nat.le_max_left _ _
      have allowed := PeerGuard.isAllowed_expired stored expires forgotten
        (Nat.le_max_right t.clock expiry)
      exact absurd (refused _ late) (by rw [allowed]; exact Bool.noConfusion)

/-! A peer banned for two violations, and one that then fails five handshakes. -/

theorem performs_of_ok {guard : PeerGuard P} (ordered : (s.clock :: e.readings).Pairwise (· ≤ ·))
    (ok : e.apply s.guard = .ok guard) : Performs s e ⟨guard, e.readings.getLastD s.clock⟩ :=
  ⟨ordered, ok, rfl⟩

def violatedTwice : Clocked Unit :=
  ⟨⟨∅, AList.insert () ⟨"protocol violation", 0, none⟩ ∅⟩, 0⟩

theorem violatedTwice_permanent : violatedTwice.guard.PermanentlyBanned () := ⟨_, rfl, rfl⟩

theorem ban_stays_after_connection :
    Always Performs (Refused ()) violatedTwice [.connected () 5, .cleanup 100] := by
  let connected := violatedTwice.guard.setRecord () ⟨51, 1, 0, 0, 0, 0, 5, 5⟩
  have connects : Performs violatedTwice (.connected () 5) ⟨connected, 5⟩ :=
    performs_of_ok (by decide) rfl
  have cleans : Performs ⟨connected, 5⟩ (.cleanup 100) ⟨connected, 100⟩ :=
    performs_of_ok (by decide) rfl
  have run := Run.cons connects (.cons cleans (.nil _))
  apply (ban_stays_iff_few_failures () violatedTwice _ _ violatedTwice_permanent run).mpr
  exact .cons ⟨connects, nofun⟩ (.cons ⟨cleans, nofun⟩ (.nil _))

/-- Five failed handshakes turn the ban into one of an hour. -/
theorem ban_ends_after_five_failures :
    ¬ ∀ (P : Type) [DecidableEq P] (peer : P) (s u : Clocked P) (before after : List (PeerEvent P)),
      Run Performs ⟨.new, 0⟩ before s → s.guard.PermanentlyBanned peer →
        Run Performs s after u → Always Performs (Refused peer) s after := by
  intro stays
  have first := performs_of_ok (s := ⟨.new, 0⟩) (e := .protocolViolation () 0 0) (by decide) rfl
  have banned : Run Performs ⟨.new, 0⟩
      [.protocolViolation () 0 0, .protocolViolation () 0 0] violatedTwice :=
    .cons first (.cons ⟨by decide, rfl, rfl⟩ (.nil _))
  let failure : PeerEvent Unit := .failedHandshake () 0 0 0
  have fails : ∃ u, Run Performs violatedTwice (List.replicate 5 failure) u ∧
      (u.guard.isAllowed () 3600).2 = true ∧ u.clock = 0 :=
    ⟨_, .cons (performs_of_ok (by decide) rfl) (.cons (performs_of_ok (by decide) rfl)
      (.cons (performs_of_ok (by decide) rfl) (.cons (performs_of_ok (by decide) rfl)
        (.cons (performs_of_ok (by decide) rfl) (.nil _))))), rfl, rfl⟩
  obtain ⟨u, run, allowed, clock⟩ := fails
  have refused := stays Unit () violatedTwice u _ _ banned violatedTwice_permanent run _ u
    (List.prefix_refl _) run 3600 (by omega)
  rw [allowed] at refused
  cases refused

end Solnet.Daemon
