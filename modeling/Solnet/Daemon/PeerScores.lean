import Solnet.Daemon.PeerBans

/-! Scores of peers over runs of all operations. A violation bans a peer that has no score left,
while a failed handshake takes its points and bans only at the fifth. -/
namespace Solnet.Daemon
open Fallible Runs

/-- An operation of the guard, also the ban that the others call. -/
inductive GuardOperation (P : Type) where
  | event (e : PeerEvent P)
  | ban (peer : P) (reason : String) (expiresAt : Option Nat) (now : Nat)
  deriving DecidableEq, Repr

variable {P : Type} [DecidableEq P]

def GuardOperation.apply (s : PeerGuard P) : GuardOperation P → Checked (PeerGuard P)
  | event e => e.apply s
  | ban peer reason expiresAt now => .ok (s.ban peer reason expiresAt now)

def Applies (s : PeerGuard P) (operation : GuardOperation P) (t : PeerGuard P) : Prop :=
  operation.apply s = .ok t

/-- A peer at 0 is banned, so that a stored score is above it. -/
structure PeerRecord.Ranged (record : PeerRecord) : Prop where
  above : 0 < record.score
  atMost : record.score ≤ 100
  failures : record.failedHandshakes < 5

namespace PeerGuard

def InRange (s : PeerGuard P) : Prop := Table.Holds (fun _ record => record.Ranged) s.scores

/-- The peer that the operation takes points from, and what is left. -/
def lowers (s : PeerGuard P) : GuardOperation P → Option (P × Int)
  | .event (.failedHandshake peer now _ _) => some (peer, (s.recordOf peer now).score - 10)
  | .event (.protocolViolation peer now _) => some (peer, (s.recordOf peer now).score - 25)
  | _ => none

/-- After the operation each score is in range, and a peer that it leaves no score is banned. -/
def KeepsScores (s : PeerGuard P) (operation : GuardOperation P) : Prop :=
  ∀ t, Applies s operation t → t.InRange ∧
    ∀ peer score, s.lowers operation = some (peer, score) → score ≤ 0 →
      t.scores.lookup peer = none ∧ (t.banned.lookup peer).isSome

/-- A failed handshake leaves the peer a score, or is its fifth. -/
def LeavesScore (s : PeerGuard P) : GuardOperation P → Prop
  | .event (.failedHandshake peer now _ _) =>
    10 < (s.recordOf peer now).score ∨ 4 ≤ s.failures peer
  | _ => True

end PeerGuard

namespace PeerRecord

variable {record record' : PeerRecord} {now bytes : Nat}

theorem connected_ok (ok : record.connected now = .ok record') :
    record'.score = min (record.score + 1) 100 ∧
      record'.failedHandshakes = record.failedHandshakes := by
  obtain ⟨connections, _, ok⟩ := bind_ok_iff.mp ok
  obtain ⟨score, within, ok⟩ := bind_ok_iff.mp ok
  obtain rfl := withinI32_ok within
  obtain rfl := Except.ok.inj ok
  exact ⟨rfl, rfl⟩

theorem relayed_ok (ok : record.relayed bytes now = .ok record') :
    record'.score = min (record.score + 2) 100 ∧
      record'.failedHandshakes = record.failedHandshakes := by
  obtain ⟨bytesReceived, _, ok⟩ := bind_ok_iff.mp ok
  obtain ⟨score, within, ok⟩ := bind_ok_iff.mp ok
  obtain rfl := withinI32_ok within
  obtain rfl := Except.ok.inj ok
  exact ⟨rfl, rfl⟩

theorem failed_score (ok : record.failed = .ok record') : record'.score = record.score - 10 := by
  obtain ⟨failedHandshakes, _, ok⟩ := bind_ok_iff.mp ok
  obtain ⟨score, within, ok⟩ := bind_ok_iff.mp ok
  obtain rfl := withinI32_ok within
  obtain rfl := Except.ok.inj ok
  rfl

theorem violated_ok (ok : record.violated = .ok record') :
    record'.score = record.score - 25 ∧ record'.failedHandshakes = record.failedHandshakes := by
  obtain ⟨score, within, ok⟩ := bind_ok_iff.mp ok
  obtain ⟨spamAttempts, _, ok⟩ := bind_ok_iff.mp ok
  obtain rfl := withinI32_ok within
  obtain rfl := Except.ok.inj ok
  exact ⟨rfl, rfl⟩

theorem default_ranged (now : Nat) : (PeerRecord.default now).Ranged :=
  ⟨by simp [default], by simp [default], by simp [default]⟩

/-- Points are added with a cap. -/
theorem Ranged.raise {points : Int} (ranged : record.Ranged) (gain : 0 ≤ points)
    (raised : record'.score = min (record.score + points) 100 ∧
      record'.failedHandshakes = record.failedHandshakes) : record'.Ranged := by
  obtain ⟨above, atMost, failures⟩ := ranged
  obtain ⟨score, same⟩ := raised
  exact ⟨by omega, by omega, by omega⟩

end PeerRecord

namespace PeerGuard

variable {s t : PeerGuard P} {peer : P} {record : PeerRecord} {now : Nat}

theorem InRange.recordOf (inRange : s.InRange) (peer : P) (now : Nat) :
    (s.recordOf peer now).Ranged := by
  unfold PeerGuard.recordOf
  cases stored : s.scores.lookup peer with
  | none => exact PeerRecord.default_ranged now
  | some record => exact inRange peer record stored

theorem InRange.setRecord (inRange : s.InRange) (ranged : record.Ranged) :
    (s.setRecord peer record).InRange :=
  Table.Holds.insert inRange ranged

theorem ranged_of_setRecord (inRange : (s.setRecord peer record).InRange) : record.Ranged :=
  inRange peer record (AList.lookup_insert _)

theorem InRange.ban (inRange : s.InRange) (peer : P) (reason : String) (expiresAt : Option Nat)
    (now : Nat) : (s.ban peer reason expiresAt now).InRange :=
  Table.Holds.erase inRange

/-- A ban forgets the record that led to it. -/
theorem InRange.banStored (inRange : s.InRange) (reason : String) (expiresAt : Option Nat)
    (now : Nat) : ((s.setRecord peer record).ban peer reason expiresAt now).InRange := by
  intro other stored found
  have found' : ((s.scores.insert peer record).erase peer).lookup other = some stored := found
  rw [Table.lookup_erase] at found'
  split at found'
  · cases found'
  · rename_i different
    rw [Table.lookup_insert, if_neg different] at found'
    exact inRange other stored found'

theorem banned_of_ban (s : PeerGuard P) (peer : P) (reason : String) (expiresAt : Option Nat)
    (now : Nat) : (s.ban peer reason expiresAt now).scores.lookup peer = none ∧
      ((s.ban peer reason expiresAt now).banned.lookup peer).isSome := by
  refine ⟨AList.lookup_erase _ _, ?_⟩
  have stored : (s.ban peer reason expiresAt now).banned.lookup peer =
      some ⟨reason, now, expiresAt⟩ := AList.lookup_insert _
  rw [stored, Option.isSome_some]

theorem InRange.connected (inRange : s.InRange) (ok : s.onConnected peer now = .ok t) :
    t.InRange := by
  obtain ⟨record, connected, ok⟩ := bind_ok_iff.mp ok
  obtain rfl := Except.ok.inj ok
  exact inRange.setRecord ((inRange.recordOf peer now).raise (by decide)
    (PeerRecord.connected_ok connected))

theorem InRange.relayed {bytes seenNow : Nat} (inRange : s.InRange)
    (ok : s.onSuccessfulRelay peer bytes now seenNow = .ok t) : t.InRange := by
  obtain ⟨record, relayed, ok⟩ := bind_ok_iff.mp ok
  obtain rfl := Except.ok.inj ok
  exact inRange.setRecord ((inRange.recordOf peer now).raise (by decide)
    (PeerRecord.relayed_ok relayed))

theorem InRange.allowed (inRange : s.InRange) (peer : P) (now : Nat) :
    (s.isAllowed peer now).1.InRange := by
  unfold isAllowed
  split
  · split
    · exact inRange
    · exact inRange
  · exact inRange

theorem InRange.cleanup (inRange : s.InRange) (ok : s.cleanup now = .ok t) : t.InRange := by
  obtain ⟨banned, _, ok⟩ := bind_ok_iff.mp ok
  obtain ⟨scores, retained, ok⟩ := bind_ok_iff.mp ok
  obtain rfl := Except.ok.inj ok
  exact Table.Holds.retain inRange retained

theorem InRange.violated {banNow : Nat} (inRange : s.InRange)
    (ok : s.onProtocolViolation peer now banNow = .ok t) :
    t.InRange ∧ ((s.recordOf peer now).score - 25 ≤ 0 →
      t.scores.lookup peer = none ∧ (t.banned.lookup peer).isSome) := by
  obtain ⟨record, violated, ok⟩ := bind_ok_iff.mp ok
  obtain ⟨left, same⟩ := PeerRecord.violated_ok violated
  obtain ⟨_, atMost, failures⟩ := inRange.recordOf peer now
  split at ok
  · obtain rfl := Except.ok.inj ok
    exact ⟨inRange.banStored _ _ _, fun _ => banned_of_ban ..⟩
  · rename_i some_left
    obtain rfl := Except.ok.inj ok
    refine ⟨inRange.setRecord ⟨by omega, by omega, by omega⟩, fun none_left => ?_⟩
    omega

/-- A failed handshake that is not the fifth stores whatever score it leaves. -/
theorem InRange.failed {expiryNow banNow : Nat} (inRange : s.InRange)
    (ok : s.onFailedHandshake peer now expiryNow banNow = .ok t) :
    4 ≤ s.failures peer ∧ t.InRange ∧ t.scores.lookup peer = none ∧
        (t.banned.lookup peer).isSome ∨
      s.failures peer < 4 ∧ (t.InRange ↔ 10 < (s.recordOf peer now).score) := by
  obtain ⟨record, failed, ok⟩ := bind_ok_iff.mp ok
  have left := PeerRecord.failed_score failed
  have count : record.failedHandshakes = s.failures peer + 1 := by
    rw [failed_ok failed, failures_eq]
  obtain ⟨_, atMost, _⟩ := inRange.recordOf peer now
  split at ok
  · rename_i fifth
    obtain ⟨expiry, _, ok⟩ := bind_ok_iff.mp ok
    obtain rfl := Except.ok.inj ok
    exact .inl ⟨by omega, inRange.banStored _ _ _, banned_of_ban ..⟩
  · rename_i fewer
    obtain rfl := Except.ok.inj ok
    refine .inr ⟨by omega, fun ranged => ?_, fun high => ?_⟩
    · have above := (ranged_of_setRecord ranged).above
      omega
    · exact inRange.setRecord ⟨by omega, by omega, by omega⟩

theorem new_inRange : (new : PeerGuard P).InRange := nofun

end PeerGuard

variable {s t : PeerGuard P} {operation : GuardOperation P}

theorem applies_deterministic : Deterministic (Applies (P := P)) :=
  fun _ _ _ _ first second => Except.ok.inj (first.symm.trans second)

theorem keepsScores_iff (step : Applies s operation t) :
    s.KeepsScores operation ↔ t.InRange ∧
      ∀ peer score, s.lowers operation = some (peer, score) → score ≤ 0 →
        t.scores.lookup peer = none ∧ (t.banned.lookup peer).isSome := by
  constructor
  · intro keeps
    exact keeps t step
  · intro keeps t' step'
    exact applies_deterministic s operation t t' step step' ▸ keeps

theorem keepsScores_or_not (inRange : s.InRange) (step : Applies s operation t) :
    s.LeavesScore operation ∧ s.KeepsScores operation ∧ t.InRange ∨
      ¬ s.LeavesScore operation ∧ ¬ s.KeepsScores operation := by
  have raises (none_lowered : s.lowers operation = none) (leaves : s.LeavesScore operation)
      (kept : t.InRange) : s.LeavesScore operation ∧ s.KeepsScores operation ∧ t.InRange ∨
        ¬ s.LeavesScore operation ∧ ¬ s.KeepsScores operation := by
    refine .inl ⟨leaves, (keepsScores_iff step).mpr ⟨kept, fun peer score lowered => ?_⟩, kept⟩
    cases none_lowered.symm.trans lowered
  cases operation with
  | ban peer reason expiresAt now =>
    obtain rfl := Except.ok.inj step
    exact raises rfl trivial (inRange.ban peer reason expiresAt now)
  | event e =>
    cases e with
    | connected peer now => exact raises rfl trivial (inRange.connected step)
    | successfulRelay peer bytes defaultNow seenNow =>
      exact raises rfl trivial (inRange.relayed step)
    | allowed peer now =>
      obtain rfl := Except.ok.inj step
      exact raises rfl trivial (inRange.allowed peer now)
    | cleanup now => exact raises rfl trivial (inRange.cleanup step)
    | protocolViolation peer now banNow =>
      obtain ⟨kept, banned⟩ := inRange.violated step
      refine .inl ⟨trivial, (keepsScores_iff step).mpr ⟨kept, fun peer' score lowered => ?_⟩, kept⟩
      obtain ⟨rfl, rfl⟩ := Prod.mk.inj (Option.some.inj lowered)
      exact banned
    | failedHandshake peer now expiryNow banNow =>
      rw [keepsScores_iff step]
      rcases inRange.failed step with ⟨fifth, kept, banned⟩ | ⟨fewer, kept_iff⟩
      · refine .inl ⟨.inr fifth, ⟨kept, fun peer' score lowered _ => ?_⟩, kept⟩
        obtain ⟨rfl, rfl⟩ := Prod.mk.inj (Option.some.inj lowered)
        exact banned
      · by_cases high : 10 < (s.recordOf peer now).score
        · have kept := kept_iff.mpr high
          refine .inl ⟨.inl high, ⟨kept, fun peer' score lowered none_left => ?_⟩, kept⟩
          obtain ⟨rfl, rfl⟩ := Prod.mk.inj (Option.some.inj lowered)
          omega
        · refine .inr ⟨?_, fun keeps => high (kept_iff.mp keeps.1)⟩
          rintro (enough | fifth)
          · exact high enough
          · omega

/-- The scores stay in range, and a peer without points is banned, all along a run exactly when
each failed handshake of the run leaves its peer points or is its fifth. -/
theorem scores_kept_iff {operations : List (GuardOperation P)}
    (run : Run Applies PeerGuard.new operations t) :
    EachStep Applies PeerGuard.KeepsScores .new operations ↔
      Run (Guarded Applies PeerGuard.LeavesScore) .new operations t :=
  eachStep_iff_guarded (I := PeerGuard.InRange) applies_deterministic
    (fun _ _ _ inRange step => keepsScores_or_not inRange step) run PeerGuard.new_inRange

/-! A peer that connects and fails a handshake, and one that has violated the protocol. -/

theorem scores_kept_once :
    EachStep Applies PeerGuard.KeepsScores PeerGuard.new
      [.event (.connected () 0), .event (.failedHandshake () 1 1 1)] := by
  have run : Run Applies PeerGuard.new
      [.event (.connected () 0), .event (.failedHandshake () 1 1 1)] _ :=
    .cons rfl (.cons rfl (.nil _))
  refine (scores_kept_iff run).mpr (.cons ⟨rfl, trivial⟩ (.cons ⟨rfl, .inl ?_⟩ (.nil _)))
  decide

def violates : List (GuardOperation Unit) := [.event (.protocolViolation () 0 0)]

theorem score_below_zero : ¬ ∀ (P : Type) [DecidableEq P] (operations : List (GuardOperation P)),
    EachStep Applies PeerGuard.KeepsScores PeerGuard.new operations := by
  intro all
  have keeps := all Unit (violates ++ List.replicate 3 (.event (.failedHandshake () 0 0 0)))
  have three : Run Applies (PeerGuard.new (P := Unit))
      (violates ++ List.replicate 2 (.event (.failedHandshake () 0 0 0)))
      ⟨AList.insert () ⟨5, 0, 2, 1, 0, 0, 0, 0⟩ ∅, ∅⟩ :=
    .cons rfl (.cons rfl (.cons rfl (.nil _)))
  have fourth : Applies (P := Unit) ⟨AList.insert () ⟨5, 0, 2, 1, 0, 0, 0, 0⟩ ∅, ∅⟩
      (.event (.failedHandshake () 0 0 0)) ⟨AList.insert () ⟨-5, 0, 3, 1, 0, 0, 0, 0⟩ ∅, ∅⟩ := rfl
  have kept := (keeps _ _ [] _ _ rfl three fourth _ fourth).1
  exact absurd (kept () _ rfl).above (by decide)

end Solnet.Daemon
