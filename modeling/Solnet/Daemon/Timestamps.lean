import Solnet.Daemon.Concurrent

/-! The timestamps that calls subtract from their clock readings. A call can find one that a
call with a later reading has set, because it read the clock before it took the lock. -/
namespace Solnet.Daemon
open Fallible Runs

/-- The stored timestamps that some call subtracts. -/
inductive Stamp (P : Type) where
  | windowStart (ip : String)
  | ipSeen (ip : String)
  | peerSeen (peer : P)
  | lastFetch
  deriving DecidableEq

variable {C P : Type} [DecidableEq C] [DecidableEq P]

def Shared.stamp (s : Shared P) : Stamp P → Option Nat
  | .windowStart ip => (s.attackPrevention.ipRequests.lookup ip).map IpRecord.windowStart
  | .ipSeen ip => (s.attackPrevention.ipRequests.lookup ip).map IpRecord.lastSeen
  | .peerSeen peer => (s.peerGuard.scores.lookup peer).map PeerRecord.lastSeen
  | .lastFetch => some s.walletTracker.lastBalanceFetch

/-- The timestamps that a step sets, to the reading of its call. -/
def Shared.sets (s : Shared P) (fetched : Option Nat) : Point P → Stamp P → Bool
  | .countsRequest ip now, .windowStart ip' =>
    ip' = ip && AttackPrevention.restarts (s.attackPrevention.ipRequests.lookup ip) now
  | .countsRequest ip _, .ipSeen ip' => ip' = ip
  | .recordsConnection peer _, .peerSeen peer' => peer' = peer
  | .start (.onSuccessfulRelay peer _), .peerSeen peer' => peer' = peer
  | .readsBalance now, .lastFetch => s.walletTracker.refetches now fetched
  | _, _ => false

def Point.subtracts : Point P → Option (Stamp P)
  | .countsRequest ip _ => some (.windowStart ip)
  | .readsBalance _ => some .lastFetch
  | _ => none

def Entry.subtracts : Entry P → Option (Stamp P)
  | .ip address => some (.ipSeen address)
  | .peer id => some (.peerSeen id)
  | _ => none

/-- The call that set each timestamp, and the reading of each call. -/
structure Stamps (C P : Type) where
  setter : Stamp P → Option C
  readAt : C → Nat

namespace Stamps

def none : Stamps C P := ⟨fun _ => .none, fun _ => 0⟩

def noteAt (w : World C P) (c : C) (fetched : Option Nat) (point : Point P) (stamps : Stamps C P) :
    Stamps C P where
  setter stamp := if w.shared.sets fetched point stamp then some c else stamps.setter stamp
  readAt := if point.reads then Function.update stamps.readAt c w.clock else stamps.readAt

/-- A step that panics sets nothing. -/
def note (w : World C P) (event : Event C P) (stamps : Stamps C P) : Stamps C P :=
  match event with
  | .advance c fetched =>
    match w.points c with
    | some point =>
      match w.shared.advance w.clock fetched point with
      | .ok _ => stamps.noteAt w c fetched point
      | .error _ => stamps
    | .none => stamps
  | _ => stamps

/-- The reading that set a timestamp; the first fetch counts from zero. -/
def reading (stamps : Stamps C P) (stamp : Stamp P) : Nat :=
  ((stamps.setter stamp).map stamps.readAt).getD 0

end Stamps

abbrev StampSteps : World C P × Stamps C P → Event C P → World C P × Stamps C P → Prop :=
  Runs.Traced World.Steps Stamps.note

def NoUnderflow (x : World C P × Stamps C P) : Prop := x.1.halted ≠ some .subOverflow

def World.subtracts (w : World C P) : Event C P → Option (C × Stamp P)
  | .advance c _ => ((w.points c).bind Point.subtracts).map (c, ·)
  | .visit c entry => entry.subtracts.map (c, ·)
  | _ => none

/-- The call that set the timestamp of a step read the clock no later than the call that
subtracts it. -/
def InOrder (x : World C P × Stamps C P) (event : Event C P) : Prop :=
  ∀ c stamp setter, x.1.subtracts event = some (c, stamp) → (x.1.shared.stamp stamp).isSome →
    x.2.setter stamp = some setter → x.2.readAt setter ≤ x.2.readAt c

structure Noted (x : World C P × Stamps C P) : Prop where
  readings : ∀ c point now, x.1.points c = some point → point.reading = some now →
    x.2.readAt c = now
  settled : ∀ stamp c, x.2.setter stamp = some c →
    ∃ point, x.1.points c = some point ∧ point.reads = false
  stamped : ∀ stamp now, x.1.shared.stamp stamp = some now → now = x.2.reading stamp

section Steps

variable {s s' : Shared P} {clock : Nat} {fetched : Option Nat} {point next : Point P}

/-- A record stored under its key for a reading: its own timestamp is set, and no other. -/
theorem peerSeen_setRecord {peer peer' : P} {record : PeerRecord} {v : Nat}
    (found : ({ s with peerGuard := s.peerGuard.setRecord peer record } : Shared P).stamp
      (.peerSeen peer') = some v) :
    peer' = peer ∧ v = record.lastSeen ∨ peer' ≠ peer ∧ s.stamp (.peerSeen peer') = some v := by
  simp only [Shared.stamp, PeerGuard.setRecord, Table.lookup_insert] at found
  by_cases same : peer' = peer
  · rw [if_pos same] at found
    exact .inl ⟨same, (Option.some.inj found).symm⟩
  · rw [if_neg same] at found
    exact .inr ⟨same, found⟩

theorem ipSeen_insert {ip ip' : String} {record : IpRecord} {v : Nat}
    (found : ({ s with attackPrevention := { s.attackPrevention with
      ipRequests := s.attackPrevention.ipRequests.insert ip record } } : Shared P).stamp
      (.ipSeen ip') = some v) :
    ip' = ip ∧ v = record.lastSeen ∨ ip' ≠ ip ∧ s.stamp (.ipSeen ip') = some v := by
  simp only [Shared.stamp, Table.lookup_insert] at found
  by_cases same : ip' = ip
  · rw [if_pos same] at found
    exact .inl ⟨same, (Option.some.inj found).symm⟩
  · rw [if_neg same] at found
    exact .inr ⟨same, found⟩

theorem windowStart_insert {ip ip' : String} {now : Nat} {record : IpRecord} {v : Nat}
    (touched : AttackPrevention.touch (s.attackPrevention.ipRequests.lookup ip) now = .ok record)
    (found : ({ s with attackPrevention := { s.attackPrevention with
      ipRequests := s.attackPrevention.ipRequests.insert ip record } } : Shared P).stamp
      (.windowStart ip') = some v) :
    s.sets fetched (.countsRequest ip now) (.windowStart ip') = true ∧ v = now ∨
      s.sets fetched (.countsRequest ip now) (.windowStart ip') = false ∧
        s.stamp (.windowStart ip') = some v := by
  obtain ⟨_, _, _, window⟩ := AttackPrevention.touch_ok touched
  simp only [Shared.stamp, Table.lookup_insert] at found ⊢
  by_cases same : ip' = ip
  · subst same
    rw [if_pos rfl] at found
    obtain rfl := Option.some.inj found
    simp only [Shared.sets, decide_true, Bool.true_and]
    cases restarting : AttackPrevention.restarts (s.attackPrevention.ipRequests.lookup ip') now with
    | true =>
      rw [restarting, if_pos rfl] at window
      exact .inl ⟨rfl, window⟩
    | false =>
      rw [restarting] at window
      refine .inr ⟨rfl, ?_⟩
      cases stored : s.attackPrevention.ipRequests.lookup ip' with
      | none =>
        rw [stored] at restarting
        cases restarting
      | some old =>
        rw [stored] at window
        exact congrArg some window.symm
  · rw [if_neg same] at found
    refine .inr ⟨?_, found⟩
    simp only [Shared.sets, same, decide_false, Bool.false_and]

theorem advance_stamp (ok : s.advance clock fetched point = .ok (s', next)) {stamp : Stamp P}
    {v : Nat} (found : s'.stamp stamp = some v) :
    s.sets fetched point stamp = true ∧
        (point.reads = true ∧ v = clock ∨ point.reading = some v) ∨
      s.sets fetched point stamp = false ∧ s.stamp stamp = some v := by
  cases Shared.advanced ok with
  | @countsRequest ip now record _ touched _ =>
    obtain ⟨seen, _⟩ := AttackPrevention.touch_ok touched
    cases stamp with
    | windowStart ip' =>
      rcases windowStart_insert touched found with ⟨set, rfl⟩ | ⟨unset, before⟩
      · exact .inl ⟨set, .inr rfl⟩
      · exact .inr ⟨unset, before⟩
    | ipSeen ip' =>
      rcases ipSeen_insert found with ⟨same, rfl⟩ | ⟨other, before⟩
      · exact .inl ⟨decide_eq_true same, .inr (congrArg some seen.symm)⟩
      · exact .inr ⟨decide_eq_false other, before⟩
    | peerSeen peer => exact .inr ⟨rfl, found⟩
    | lastFetch => exact .inr ⟨rfl, found⟩
  | recordsConnection seen =>
    cases stamp with
    | peerSeen peer' =>
      rcases peerSeen_setRecord found with ⟨same, rfl⟩ | ⟨other, before⟩
      · exact .inl ⟨decide_eq_true same, .inr (congrArg some seen.symm)⟩
      · exact .inr ⟨decide_eq_false other, before⟩
    | _ => exact .inr ⟨rfl, found⟩
  | onSuccessfulRelay seen =>
    cases stamp with
    | peerSeen peer' =>
      rcases peerSeen_setRecord found with ⟨same, rfl⟩ | ⟨other, before⟩
      · exact .inl ⟨decide_eq_true same, .inl ⟨rfl, seen⟩⟩
      · exact .inr ⟨decide_eq_false other, before⟩
    | _ => exact .inr ⟨rfl, found⟩
  | @readsBalance now tracker answer balance =>
    have fetches := WalletRewardTracker.getOnchainBalance_ok balance
    cases stamp with
    | lastFetch =>
      obtain rfl := Option.some.inj found
      cases refetching : s.walletTracker.refetches now fetched with
      | true =>
        rw [refetching, if_pos rfl] at fetches
        exact .inl ⟨refetching, .inr (congrArg some fetches.symm)⟩
      | false =>
        rw [refetching] at fetches
        exact .inr ⟨refetching, congrArg some fetches.symm⟩
    | _ => exact .inr ⟨rfl, found⟩
  | removesScore =>
    cases stamp with
    | peerSeen peer' =>
      simp only [Shared.stamp, Shared.withScores, Table.lookup_erase] at found
      split at found
      · cases found
      · exact .inr ⟨rfl, found⟩
    | _ => exact .inr ⟨rfl, found⟩
  | _ => exact .inr ⟨rfl, found⟩

theorem countsRequest_underflows {ip : String} {now : Nat} :
    s.advance clock fetched (.countsRequest ip now) = .error .subOverflow ↔
      s.attackPrevention.countRequest ip now = .error .subOverflow := by
  apply bind_error_left_iff
  rintro ⟨prevention, verdict⟩ _ error
  cases verdict with
  | none => cases error
  | some result => cases error

theorem readsBalance_underflows {now : Nat} :
    s.advance clock fetched (.readsBalance now) = .error .subOverflow ↔
      s.walletTracker.getOnchainBalance now fetched = .error .subOverflow := by
  apply bind_error_left_iff
  intro answer _ error
  cases error

/-- A call that only begins subtracts nothing that can be later than its reading. -/
theorem start_ne_underflow {call : Call P} :
    s.advance clock fetched (.start call) ≠ .error .subOverflow := by
  intro error
  cases call with
  | isBanned ip =>
    dsimp only [Shared.advance] at error
    split at error
    · cases error
    · cases error
  | isAllowed peer =>
    dsimp only [Shared.advance] at error
    split at error
    · cases error
    · cases error
  | banIp ip durationSecs =>
    rcases bind_error_iff.mp error with added | ⟨expiry, _, error⟩
    · exact checkedAdd_ne_underflow added
    · cases error
  | onSuccessfulRelay peer bytes =>
    rcases bind_error_iff.mp error with relayed | ⟨guard, _, error⟩
    · exact PeerGuard.onSuccessfulRelay_ne_underflow relayed
    · cases error
  | _ => cases error

theorem advance_underflows_iff :
    s.advance clock fetched point = .error .subOverflow ↔ ∃ stamp now v,
      point.subtracts = some stamp ∧ point.reading = some now ∧ s.stamp stamp = some v ∧
        now < v := by
  have quiet (none : point.subtracts = .none)
      (fine : s.advance clock fetched point ≠ .error .subOverflow) :
      s.advance clock fetched point = .error .subOverflow ↔ ∃ stamp now v,
        point.subtracts = some stamp ∧ point.reading = some now ∧ s.stamp stamp = some v ∧
          now < v := by
    apply iff_of_false fine
    rintro ⟨stamp, _, _, subtracts, _⟩
    rw [none] at subtracts
    cases subtracts
  cases point with
  | countsRequest ip now =>
    rw [countsRequest_underflows, AttackPrevention.countRequest_underflows_iff]
    constructor
    · rintro ⟨record, stored, late⟩
      exact ⟨_, now, record.windowStart, rfl, rfl,
        Option.map_eq_some_iff.mpr ⟨record, stored, rfl⟩, late⟩
    · rintro ⟨stamp, _, v, subtracts, reading, found, late⟩
      obtain rfl := Option.some.inj subtracts
      obtain rfl := Option.some.inj reading
      obtain ⟨record, stored, rfl⟩ := Option.map_eq_some_iff.mp found
      exact ⟨record, stored, late⟩
  | readsBalance now =>
    rw [readsBalance_underflows, WalletRewardTracker.getOnchainBalance_underflows_iff]
    constructor
    · intro late
      exact ⟨_, now, _, rfl, rfl, rfl, late⟩
    · rintro ⟨stamp, _, v, subtracts, reading, found, late⟩
      obtain rfl := Option.some.inj subtracts
      obtain rfl := Option.some.inj reading
      obtain rfl := Option.some.inj found
      exact late
  | recordsConnection peer now =>
    apply quiet rfl
    intro error
    rcases bind_error_iff.mp error with connected | ⟨guard, _, error⟩
    · exact PeerGuard.onConnected_ne_underflow connected
    · cases error
  | start call => exact quiet rfl start_ne_underflow
  | _ => exact quiet rfl nofun

theorem visit_underflows_iff {now : Nat} {entry : Entry P} :
    s.visit now entry = .error .subOverflow ↔
      ∃ stamp v, entry.subtracts = some stamp ∧ s.stamp stamp = some v ∧ now < v := by
  cases entry with
  | ip ip =>
    rw [Shared.visit, bind_error_left_iff (fun _ _ => by exact nofun), Table.visit_error_iff]
    constructor
    · rintro ⟨record, stored, late⟩
      exact ⟨_, record.lastSeen, rfl, Option.map_eq_some_iff.mpr ⟨record, stored, rfl⟩,
        AttackPrevention.recent_underflows_iff.mp late⟩
    · rintro ⟨stamp, v, subtracts, found, late⟩
      obtain rfl := Option.some.inj subtracts
      obtain ⟨record, stored, rfl⟩ := Option.map_eq_some_iff.mp found
      exact ⟨record, stored, AttackPrevention.recent_underflows_iff.mpr late⟩
  | peer peer =>
    rw [Shared.visit, bind_error_left_iff (fun _ _ => by exact nofun), Table.visit_error_iff]
    constructor
    · rintro ⟨record, stored, late⟩
      exact ⟨_, record.lastSeen, rfl, Option.map_eq_some_iff.mpr ⟨record, stored, rfl⟩,
        PeerRecord.recent_underflows_iff.mp late⟩
    · rintro ⟨stamp, v, subtracts, found, late⟩
      obtain rfl := Option.some.inj subtracts
      obtain ⟨record, stored, rfl⟩ := Option.map_eq_some_iff.mp found
      exact ⟨record, stored, PeerRecord.recent_underflows_iff.mpr late⟩
  | bannedIp ip =>
    rw [Shared.visit, bind_error_left_iff (fun _ _ => by exact nofun), Table.visit_error_iff]
    refine iff_of_false ?_ nofun
    rintro ⟨expiry, _, kept⟩
    cases kept
  | bannedPeer peer =>
    rw [Shared.visit, bind_error_left_iff (fun _ _ => by exact nofun), Table.visit_error_iff]
    refine iff_of_false ?_ nofun
    rintro ⟨ban, _, kept⟩
    cases kept

theorem visit_stamp {now v : Nat} {entry : Entry P} {stamp : Stamp P}
    (ok : s.visit now entry = .ok s') (found : s'.stamp stamp = some v) :
    s.stamp stamp = some v := by
  cases entry with
  | ip ip =>
    obtain ⟨requests, visited, ok⟩ := bind_ok_iff.mp ok
    cases ok
    cases stamp with
    | windowStart ip' =>
      obtain ⟨record, stored, rfl⟩ := Option.map_eq_some_iff.mp found
      exact Option.map_eq_some_iff.mpr ⟨record, ((Table.lookup_visit_iff visited).mp stored).1, rfl⟩
    | ipSeen ip' =>
      obtain ⟨record, stored, rfl⟩ := Option.map_eq_some_iff.mp found
      exact Option.map_eq_some_iff.mpr ⟨record, ((Table.lookup_visit_iff visited).mp stored).1, rfl⟩
    | _ => exact found
  | peer peer =>
    obtain ⟨scores, visited, ok⟩ := bind_ok_iff.mp ok
    cases ok
    cases stamp with
    | peerSeen peer' =>
      obtain ⟨record, stored, rfl⟩ := Option.map_eq_some_iff.mp found
      exact Option.map_eq_some_iff.mpr ⟨record, ((Table.lookup_visit_iff visited).mp stored).1, rfl⟩
    | _ => exact found
  | bannedIp ip =>
    obtain ⟨banned, _, ok⟩ := bind_ok_iff.mp ok
    cases ok
    exact found
  | bannedPeer peer =>
    obtain ⟨banned, _, ok⟩ := bind_ok_iff.mp ok
    cases ok
    exact found

end Steps

section World

variable {x y : World C P × Stamps C P} {event : Event C P} {c : C} {fetched : Option Nat}
  {point : Point P} {stamp : Stamp P} {now : Nat}

omit [DecidableEq C] [DecidableEq P] in
theorem reading_of_subtracts (subtracts : point.subtracts = some stamp) :
    ∃ now, point.reading = some now := by
  cases point with
  | countsRequest ip now => exact ⟨now, rfl⟩
  | readsBalance now => exact ⟨now, rfl⟩
  | _ => cases subtracts

omit [DecidableEq C] in
theorem late_iff (now : Nat) (noted : Noted x) :
    (∃ v, x.1.shared.stamp stamp = some v ∧ now < v) ↔
      ∃ setter, (x.1.shared.stamp stamp).isSome ∧ x.2.setter stamp = some setter ∧
        now < x.2.readAt setter := by
  constructor
  · rintro ⟨v, found, late⟩
    have set := noted.stamped stamp v found
    cases by_setter : x.2.setter stamp with
    | none =>
      rw [Stamps.reading, by_setter] at set
      exact absurd (set ▸ late) (Nat.not_lt_zero _)
    | some setter =>
      rw [Stamps.reading, by_setter] at set
      change v = x.2.readAt setter at set
      rw [set] at late
      exact ⟨setter, found ▸ rfl, rfl, late⟩
  · rintro ⟨setter, stored, by_setter, late⟩
    obtain ⟨v, found⟩ := Option.isSome_iff_exists.mp stored
    have set := noted.stamped stamp v found
    rw [Stamps.reading, by_setter] at set
    change v = x.2.readAt setter at set
    exact ⟨v, found, set ▸ late⟩

omit [DecidableEq C] in
theorem inOrder_advance_iff (noted : Noted x) (stands : x.1.points c = some point) :
    InOrder x (.advance c fetched) ↔
      x.1.shared.advance x.1.clock fetched point ≠ .error .subOverflow := by
  constructor
  · intro ordered error
    obtain ⟨stamp, now, v, subtracts, reading, found, late⟩ := advance_underflows_iff.mp error
    obtain ⟨setter, stored, by_setter, late⟩ := (late_iff _ noted).mp ⟨v, found, late⟩
    have mine := noted.readings c point now stands reading
    have before := ordered c stamp setter
      (by simp only [World.subtracts, stands, Option.bind_some, subtracts, Option.map_some])
      stored by_setter
    omega
  · intro fine caller stamp setter subtracts stored by_setter
    simp only [World.subtracts, stands, Option.bind_some, Option.map_eq_some_iff, Prod.mk.injEq]
      at subtracts
    obtain ⟨_, subtracts, rfl, rfl⟩ := subtracts
    obtain ⟨now, reading⟩ := reading_of_subtracts subtracts
    have mine := noted.readings c point now stands reading
    by_contra late
    obtain ⟨v, found, late⟩ := (late_iff now noted).mpr
      ⟨setter, stored, by_setter, by omega⟩
    exact fine (advance_underflows_iff.mpr ⟨_, now, v, subtracts, reading, found, late⟩)

omit [DecidableEq C] in
theorem inOrder_visit_iff {entry : Entry P} (noted : Noted x) (stands : x.1.points c = some point)
    (sweeps : point.sweeps entry = some now) :
    InOrder x (.visit c entry) ↔ x.1.shared.visit now entry ≠ .error .subOverflow := by
  have mine := noted.readings c point now stands (Point.reading_of_sweeps sweeps)
  constructor
  · intro ordered error
    obtain ⟨stamp, v, subtracts, found, late⟩ := visit_underflows_iff.mp error
    obtain ⟨setter, stored, by_setter, late⟩ := (late_iff _ noted).mp ⟨v, found, late⟩
    have before := ordered c stamp setter
      (by simp only [World.subtracts, subtracts, Option.map_some]) stored by_setter
    omega
  · intro fine caller stamp setter subtracts stored by_setter
    simp only [World.subtracts, Option.map_eq_some_iff, Prod.mk.injEq] at subtracts
    obtain ⟨_, subtracts, rfl, rfl⟩ := subtracts
    by_contra late
    obtain ⟨v, found, late⟩ := (late_iff now noted).mpr
      ⟨setter, stored, by_setter, by omega⟩
    exact fine (visit_underflows_iff.mpr ⟨_, v, subtracts, found, late⟩)

theorem noUnderflow_step_iff (noted : Noted x) (step : StampSteps x event y) :
    NoUnderflow y ↔ InOrder x event := by
  obtain ⟨w, stamps⟩ := x
  obtain ⟨w', stamps'⟩ := y
  have running : w.halted = none := step.1.took.1
  have took : w.Took event w' := step.1.took.2
  have runs : w.halted ≠ some .subOverflow := by
    rw [running]
    exact Option.some_ne_none _ |>.symm
  cases took with
  | tick later => exact iff_of_true runs nofun
  | start fresh => exact iff_of_true runs nofun
  | advance stands ok =>
    rw [inOrder_advance_iff noted stands]
    apply iff_of_true runs
    intro error
    cases ok.symm.trans error
  | advancePanic stands error =>
    rw [inOrder_advance_iff noted stands]
    change some _ ≠ some _ ↔ w.shared.advance _ _ _ ≠ _
    rw [error, ne_eq, ne_eq, Option.some.injEq, Except.error.injEq]
  | visit stands sweeps ok =>
    rw [inOrder_visit_iff noted stands sweeps]
    apply iff_of_true runs
    intro error
    cases ok.symm.trans error
  | visitPanic stands sweeps error =>
    rw [inOrder_visit_iff noted stands sweeps]
    change some _ ≠ some _ ↔ w.shared.visit _ _ ≠ _
    rw [error, ne_eq, ne_eq, Option.some.injEq, Except.error.injEq]

section NotedAdvance

variable {w : World C P} {stamps : Stamps C P} {next : Point P} {shared : Shared P}

/-- A call that set a timestamp reads the clock no more. -/
theorem readAt_noteAt {setter : C} (stands : w.points c = some point)
    (settled : ∃ p, w.points setter = some p ∧ p.reads = false) :
    (stamps.noteAt w c fetched point).readAt setter = stamps.readAt setter := by
  obtain ⟨p, there, quiet⟩ := settled
  unfold Stamps.noteAt
  by_cases same : setter = c
  · subst same
    obtain rfl := Option.some.inj (stands.symm.trans there)
    simp only [quiet, Bool.false_eq_true, if_false]
  · split
    · exact Function.update_of_ne same _ _
    · rfl

theorem readings_noteAt (noted : Noted (w, stamps))
    (later : ∀ now, next.reading = some now → point.reads = true ∧ now = w.clock)
    {c' : C} {point' : Point P} {now : Nat} (there : (w.moveTo c next).points c' = some point')
    (reading : point'.reading = some now) :
    (stamps.noteAt w c fetched point).readAt c' = now := by
  rw [World.points_moveTo] at there
  by_cases same : c' = c
  · rw [if_pos same] at there
    obtain rfl := Option.some.inj there
    obtain ⟨reads, rfl⟩ := later now reading
    simp only [Stamps.noteAt, reads, if_true, same, Function.update_self]
  · rw [if_neg same] at there
    have before := noted.readings c' point' now there reading
    simp only [Stamps.noteAt]
    split
    · rw [Function.update_of_ne same]
      exact before
    · exact before

theorem settled_noteAt (noted : Noted (w, stamps)) (unread : next.reads = false)
    {stamp : Stamp P} {c' : C}
    (set : (stamps.noteAt w c fetched point).setter stamp = some c') :
    ∃ p, (w.moveTo c next).points c' = some p ∧ p.reads = false := by
  rw [World.points_moveTo]
  by_cases same : c' = c
  · rw [if_pos same]
    exact ⟨next, rfl, unread⟩
  · rw [if_neg same]
    simp only [Stamps.noteAt] at set
    split at set
    · exact absurd (Option.some.inj set).symm same
    · exact noted.settled stamp c' set

/-- A timestamp that the step set is the reading of its call. -/
theorem reading_noteAt_set (noted : Noted (w, stamps)) (stands : w.points c = some point)
    {stamp : Stamp P} {v : Nat} (sets : w.shared.sets fetched point stamp = true)
    (read : point.reads = true ∧ v = w.clock ∨ point.reading = some v) :
    v = (stamps.noteAt w c fetched point).reading stamp := by
  have setter : (stamps.noteAt w c fetched point).setter stamp = some c := by
    simp only [Stamps.noteAt, sets, if_true]
  rw [Stamps.reading, setter]
  change v = (stamps.noteAt w c fetched point).readAt c
  rcases read with ⟨reads, rfl⟩ | reading
  · simp only [Stamps.noteAt, reads, if_true, Function.update_self]
  · have mine := noted.readings c point v stands reading
    have settled : point.reads = false := by
      cases point with
      | start call => cases reading
      | _ => rfl
    rw [readAt_noteAt stands ⟨point, stands, settled⟩]
    exact mine.symm

/-- A timestamp that the step left has the reading it had. -/
theorem reading_noteAt_unset (noted : Noted (w, stamps)) (stands : w.points c = some point)
    {stamp : Stamp P} (unset : w.shared.sets fetched point stamp = false) :
    (stamps.noteAt w c fetched point).reading stamp = stamps.reading stamp := by
  have same : (stamps.noteAt w c fetched point).setter stamp = stamps.setter stamp := by
    simp only [Stamps.noteAt, unset, Bool.false_eq_true, if_false]
  rw [Stamps.reading, Stamps.reading, same]
  cases by_setter : stamps.setter stamp with
  | none => rfl
  | some setter => exact readAt_noteAt stands (noted.settled stamp setter by_setter)

theorem noted_advance (noted : Noted (w, stamps)) (stands : w.points c = some point)
    (ok : w.shared.advance w.clock fetched point = .ok (shared, next)) :
    Noted ({ w.moveTo c next with shared := shared }, stamps.noteAt w c fetched point) where
  readings c' point' now there reading :=
    readings_noteAt noted (Shared.advance_next ok).2 there reading
  settled stamp c' set := settled_noteAt noted (Shared.advance_next ok).1 set
  stamped stamp v found := by
    rcases advance_stamp ok found with ⟨sets, read⟩ | ⟨unset, before⟩
    · exact reading_noteAt_set noted stands sets read
    · rw [reading_noteAt_unset noted stands unset]
      exact noted.stamped stamp v before

end NotedAdvance

theorem noted_step (noted : Noted x) (step : StampSteps x event y) : Noted y := by
  obtain ⟨w, stamps⟩ := x
  obtain ⟨w', stamps'⟩ := y
  obtain ⟨steps, rfl : stamps' = _⟩ := step
  have took : w.Took event w' := steps.took.2
  cases took with
  | tick later => exact ⟨noted.readings, noted.settled, noted.stamped⟩
  | @start c call fresh =>
    refine ⟨?_, ?_, noted.stamped⟩
    · intro c' point now there reading
      change (w.moveTo c (.start call)).points c' = some point at there
      rw [World.points_moveTo] at there
      by_cases same : c' = c
      · rw [if_pos same] at there
        obtain rfl := Option.some.inj there
        cases reading
      · rw [if_neg same] at there
        exact noted.readings c' point now there reading
    · intro stamp c' set
      obtain ⟨point, there, settled⟩ := noted.settled stamp c' set
      have same : c' ≠ c := by
        rintro rfl
        cases fresh.symm.trans there
      refine ⟨point, ?_, settled⟩
      change (w.moveTo c (.start call)).points c' = some point
      rw [World.points_moveTo, if_neg same]
      exact there
  | @advance c fetched point next shared stands ok =>
    have set : Stamps.note w (.advance c fetched) stamps = stamps.noteAt w c fetched point := by
      simp only [Stamps.note, stands, ok]
    change Noted (_, Stamps.note w (.advance c fetched) stamps)
    rw [set]
    exact noted_advance noted stands ok
  | @advancePanic c fetched point halt stands error =>
    have unset : Stamps.note w (.advance c fetched) stamps = stamps := by
      simp only [Stamps.note, stands, error]
    change Noted (_, Stamps.note w (.advance c fetched) stamps)
    rw [unset]
    exact ⟨noted.readings, noted.settled, noted.stamped⟩
  | visit stands sweeps ok =>
    exact ⟨noted.readings, noted.settled,
      fun stamp v found => noted.stamped stamp v (visit_stamp ok found)⟩
  | visitPanic stands sweeps error => exact ⟨noted.readings, noted.settled, noted.stamped⟩

omit [DecidableEq C] in
theorem new_noted (clock : Nat) : Noted (World.new (C := C) clock, Stamps.none (P := P)) := by
  refine ⟨nofun, nofun, ?_⟩
  intro stamp v found
  cases stamp with
  | lastFetch => exact (Option.some.inj found).symm
  | _ => cases found

/-- No subtraction goes below zero all along a run exactly when in each step the call that
set the subtracted timestamp read the clock no later than the call that subtracts it. -/
theorem no_underflow_iff_in_order (clock : Nat) (events : List (Event C P))
    (u : World C P × Stamps C P)
    (run : Run StampSteps (World.new clock, Stamps.none) events u) :
    Always StampSteps NoUnderflow (World.new clock, Stamps.none) events ↔
      Run (Guarded StampSteps InOrder) (World.new clock, Stamps.none) events u :=
  always_iff_guarded World.steps_deterministic.traced
    (fun _ _ _ noted step => noted_step noted step)
    (fun _ _ _ noted _ step => noUnderflow_step_iff noted step) run (new_noted clock) nofun

end World

/-! Two requests of an address around a change of the second. -/

theorem stampSteps_of {w w' : World C P} {stamps : Stamps C P} {event : Event C P}
    (ok : w.step event = some w') :
    StampSteps (w, stamps) event (w', Stamps.note w event stamps) := ⟨ok, rfl⟩

def countedInOrder : List (Event Nat Nat) :=
  [.start 0 (.checkRateLimit "10.0.0.1"), .advance 0 none, .advance 0 none, .tick 1,
    .start 1 (.checkRateLimit "10.0.0.1"), .advance 1 none, .advance 1 none]

def countedOutOfOrder : List (Event Nat Nat) :=
  [.start 0 (.checkRateLimit "10.0.0.1"), .advance 0 none, .tick 1,
    .start 1 (.checkRateLimit "10.0.0.1"), .advance 1 none, .advance 1 none, .advance 0 none]

theorem countedInOrder_no_underflow :
    Always StampSteps NoUnderflow (World.new 0, Stamps.none) countedInOrder := by
  have run : ∃ u, Run (Guarded StampSteps InOrder) (World.new 0, Stamps.none) countedInOrder u := by
    refine ⟨_, .cons ⟨stampSteps_of rfl, nofun⟩ (.cons ⟨stampSteps_of rfl, nofun⟩
      (.cons ⟨stampSteps_of rfl, ?_⟩ (.cons ⟨stampSteps_of rfl, nofun⟩
        (.cons ⟨stampSteps_of rfl, nofun⟩ (.cons ⟨stampSteps_of rfl, nofun⟩
          (.cons ⟨stampSteps_of rfl, ?_⟩ (.nil _)))))))⟩
    · intro c stamp setter subtracts stored
      obtain ⟨rfl, rfl⟩ := Prod.mk.inj (Option.some.inj subtracts)
      cases stored
    · intro c stamp setter subtracts _ set
      obtain ⟨rfl, rfl⟩ := Prod.mk.inj (Option.some.inj subtracts)
      obtain rfl := Option.some.inj set
      exact Nat.zero_le 1
  obtain ⟨u, run⟩ := run
  exact (no_underflow_iff_in_order 0 countedInOrder u run.unguarded).mpr run

theorem countedOutOfOrder_underflows :
    ∃ u, Run StampSteps (World.new 0, Stamps.none) countedOutOfOrder u ∧ ¬ NoUnderflow u :=
  ⟨_, .cons (stampSteps_of rfl) (.cons (stampSteps_of rfl) (.cons (stampSteps_of rfl)
    (.cons (stampSteps_of rfl) (.cons (stampSteps_of rfl) (.cons (stampSteps_of rfl)
      (.cons (stampSteps_of rfl) (.nil _))))))), fun none => none rfl⟩

/-- The request that read the clock first subtracts the window of the other from it. -/
theorem underflow_across_a_second :
    ¬ ∀ (C P : Type) [DecidableEq C] [DecidableEq P] (clock : Nat) (events : List (Event C P))
      (u : World C P × Stamps C P), Run StampSteps (World.new clock, Stamps.none) events u →
        Always StampSteps NoUnderflow (World.new clock, Stamps.none) events := by
  intro all
  obtain ⟨u, run, underflows⟩ := countedOutOfOrder_underflows
  exact underflows
    (all Nat Nat 0 countedOutOfOrder u run countedOutOfOrder u (List.prefix_refl _) run)

end Solnet.Daemon
