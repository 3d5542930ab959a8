import Solnet.Daemon.Concurrent
import Solnet.Lib.Expiring

/-! Bans under concurrent calls. A call that finds an expired ban removes the ban in a
later step, whatever ban is there by then. -/
namespace Solnet.Daemon
open Fallible Runs Expiring

/-- The latest ban put under each key. -/
structure Issued (P : Type) where
  ips : String → Option Nat
  peers : P → Option BanRecord

def standsIp (expiry now : Nat) : Bool := now < expiry

def Point.editsBans {P : Type} : Point P → Bool
  | .removesBan _ | .insertsBan _ _ | .removesPeerBan _ | .insertsPeerBan _ _ => true
  | _ => false

variable {C P : Type} [DecidableEq C] [DecidableEq P]

namespace Issued

def none : Issued P := ⟨fun _ => .none, fun _ => .none⟩

def noteAt (issued : Issued P) : Point P → Issued P
  | .insertsBan ip expiry =>
    { issued with ips := Function.update issued.ips ip (some expiry) }
  | .insertsPeerBan peer ban =>
    { issued with peers := Function.update issued.peers peer (some ban) }
  | _ => issued

def note (w : World C P) (event : Event C P) (issued : Issued P) : Issued P :=
  match event with
  | .advance c _ => ((w.points c).map issued.noteAt).getD issued
  | _ => issued

end Issued

abbrev BanSteps : World C P × Issued P → Event C P → World C P × Issued P → Prop :=
  Runs.Traced World.Steps Issued.note

/-- A check that reads the clock now reports every latest ban that still stands. -/
def Reported (x : World C P × Issued P) : Prop :=
  (∀ ip expiry, x.2.ips ip = some expiry → x.1.clock < expiry →
    (x.1.shared.attackPrevention.isBanned ip x.1.clock).2 = true) ∧
  ∀ peer ban, x.2.peers peer = some ban → ban.stands x.1.clock = true →
    (x.1.shared.peerGuard.isAllowed peer x.1.clock).2 = false

/-- A call that removes the expired ban it found does not find a ban that stands. -/
def NothingFresh (x : World C P × Issued P) (event : Event C P) : Prop :=
  ∀ c fetched, event = .advance c fetched →
    (∀ ip, x.1.points c = some (.removesBan ip) →
      ∀ expiry, x.1.shared.attackPrevention.bannedIps.lookup ip = some expiry →
        expiry ≤ x.1.clock) ∧
    ∀ peer, x.1.points c = some (.removesPeerBan peer) →
      ∀ ban, x.1.shared.peerGuard.banned.lookup peer = some ban → ban.stands x.1.clock = false

abbrev bannedIps (x : World C P × Issued P) : Table String Nat :=
  x.1.shared.attackPrevention.bannedIps

abbrev bannedPeers (x : World C P × Issued P) : Table P BanRecord := x.1.shared.peerGuard.banned

structure Consistent (x : World C P × Issued P) : Prop where
  ips : Current x.2.ips (bannedIps x)
  peers : Current x.2.peers (bannedPeers x)
  sweeps : ∀ c point entry now, x.1.points c = some point → point.sweeps entry = some now →
    now ≤ x.1.clock

structure BansHeld (x : World C P × Issued P) : Prop where
  ips : Held standsIp x.2.ips (bannedIps x) x.1.clock
  peers : Held BanRecord.stands x.2.peers (bannedPeers x) x.1.clock

theorem standsIp_lapses : Lapses standsIp := by
  intro expiry now later passes standing
  simp only [standsIp, decide_eq_true_eq] at standing ⊢
  omega

theorem stands_lapses : Lapses BanRecord.stands := by
  rintro ⟨reason, bannedAt, expiresAt⟩ now later passes standing
  cases expiresAt with
  | none => rfl
  | some expires =>
    simp only [BanRecord.stands, decide_eq_true_eq] at standing ⊢
    omega

section Steps

variable {s s' : Shared P} {clock : Nat} {fetched : Option Nat} {point next : Point P}

theorem advance_keeps_bans (ok : s.advance clock fetched point = .ok (s', next))
    (reads : point.editsBans = false) :
    s'.attackPrevention.bannedIps = s.attackPrevention.bannedIps ∧
      s'.peerGuard.banned = s.peerGuard.banned := by
  cases Shared.advanced ok with
  | removesBan | insertsBan | removesPeerBan | insertsPeerBan => cases reads
  | _ => exact ⟨rfl, rfl⟩

theorem visit_bans {entry : Entry P} {now : Nat} (ok : s.visit now entry = .ok s') :
    (s'.attackPrevention.bannedIps = s.attackPrevention.bannedIps ∨
      ∃ ip, Table.visit (fun _ expiry => .ok (standsIp expiry now)) s.attackPrevention.bannedIps
        ip = (.ok s'.attackPrevention.bannedIps : Checked _)) ∧
    (s'.peerGuard.banned = s.peerGuard.banned ∨
      ∃ peer, Table.visit (fun _ ban => .ok (ban.stands now)) s.peerGuard.banned peer =
        (.ok s'.peerGuard.banned : Checked _)) := by
  cases entry with
  | ip ip =>
    obtain ⟨requests, _, ok⟩ := bind_ok_iff.mp ok
    cases ok
    exact ⟨.inl rfl, .inl rfl⟩
  | bannedIp ip =>
    obtain ⟨banned, visited, ok⟩ := bind_ok_iff.mp ok
    cases ok
    exact ⟨.inr ⟨ip, visited⟩, .inl rfl⟩
  | peer peer =>
    obtain ⟨scores, _, ok⟩ := bind_ok_iff.mp ok
    cases ok
    exact ⟨.inl rfl, .inl rfl⟩
  | bannedPeer peer =>
    obtain ⟨banned, visited, ok⟩ := bind_ok_iff.mp ok
    cases ok
    exact ⟨.inl rfl, .inr ⟨peer, visited⟩⟩

end Steps

section World

variable {w : World C P} {issued : Issued P} {x y : World C P × Issued P} {event : Event C P}
  {c : C} {fetched : Option Nat} {point : Point P}

omit [DecidableEq C] in
theorem note_advance (fetched : Option Nat) (stands : w.points c = some point) :
    Issued.note w (.advance c fetched) issued = issued.noteAt point := by
  simp only [Issued.note, stands, Option.map_some, Option.getD_some]

omit [DecidableEq C] in
theorem nothingFresh_of_removes (stands : w.points c = some point)
    (ips : ∀ ip, point = .removesBan ip → ∀ expiry,
      w.shared.attackPrevention.bannedIps.lookup ip = some expiry → expiry ≤ w.clock)
    (peers : ∀ peer, point = .removesPeerBan peer → ∀ ban,
      w.shared.peerGuard.banned.lookup peer = some ban → ban.stands w.clock = false) :
    NothingFresh (w, issued) (.advance c fetched) := by
  intro c' _ same
  injection same with caller _
  subst caller
  constructor
  · intro ip removes
    exact ips ip (Option.some.inj (stands.symm.trans removes))
  · intro peer removes
    exact peers peer (Option.some.inj (stands.symm.trans removes))

theorem sweeps_step (consistent : Consistent x) (step : BanSteps x event y) (c : C)
    (point : Point P) (entry : Entry P) (now : Nat) (stands : y.1.points c = some point)
    (sweeps : point.sweeps entry = some now) : now ≤ y.1.clock := by
  obtain ⟨w, issued⟩ := x
  obtain ⟨w', issued'⟩ := y
  have took : w.Took event w' := step.1.took.2
  cases took with
  | tick later => exact (consistent.sweeps c point entry now stands sweeps).trans later
  | @start caller call fresh =>
    change (w.moveTo caller (.start call)).points c = some point at stands
    rw [World.points_moveTo] at stands
    by_cases same : c = caller
    · rw [if_pos same] at stands
      cases stands
      cases sweeps
    · rw [if_neg same] at stands
      exact consistent.sweeps c point entry now stands sweeps
  | @advance caller fetched old next shared before ok =>
    change (w.moveTo caller next).points c = some point at stands
    rw [World.points_moveTo] at stands
    by_cases same : c = caller
    · rw [if_pos same] at stands
      cases stands
      exact ((Shared.advance_next ok).2 now (Point.reading_of_sweeps sweeps)).2.le
    · rw [if_neg same] at stands
      exact consistent.sweeps c point entry now stands sweeps
  | advancePanic _ _ => exact consistent.sweeps c point entry now stands sweeps
  | visit _ _ _ => exact consistent.sweeps c point entry now stands sweeps
  | visitPanic _ _ _ => exact consistent.sweeps c point entry now stands sweeps

/-- What a step does to the ban tables and to the notes of them. -/
inductive BanChange (x : World C P × Issued P) (event : Event C P) (y : World C P × Issued P) :
    Prop where
  | quiet (later : x.1.clock ≤ y.1.clock) (ips : bannedIps y = bannedIps x)
      (peers : bannedPeers y = bannedPeers x) (issued : y.2 = x.2)
      (harmless : NothingFresh x event)
  | putsIp (ip : String) (expiry : Nat) (clock : y.1.clock = x.1.clock)
      (ips : bannedIps y = (bannedIps x).insert ip expiry) (peers : bannedPeers y = bannedPeers x)
      (issued : y.2 = { x.2 with ips := Function.update x.2.ips ip (some expiry) })
      (harmless : NothingFresh x event)
  | putsPeer (peer : P) (ban : BanRecord) (clock : y.1.clock = x.1.clock)
      (ips : bannedIps y = bannedIps x) (peers : bannedPeers y = (bannedPeers x).insert peer ban)
      (issued : y.2 = { x.2 with peers := Function.update x.2.peers peer (some ban) })
      (harmless : NothingFresh x event)
  | removesIp (ip : String) (clock : y.1.clock = x.1.clock)
      (ips : bannedIps y = (bannedIps x).erase ip) (peers : bannedPeers y = bannedPeers x)
      (issued : y.2 = x.2)
      (fresh : NothingFresh x event ↔
        ∀ expiry, (bannedIps x).lookup ip = some expiry → standsIp expiry x.1.clock = false)
  | removesPeer (peer : P) (clock : y.1.clock = x.1.clock) (ips : bannedIps y = bannedIps x)
      (peers : bannedPeers y = (bannedPeers x).erase peer) (issued : y.2 = x.2)
      (fresh : NothingFresh x event ↔
        ∀ ban, (bannedPeers x).lookup peer = some ban → ban.stands x.1.clock = false)
  | sweeps (now : Nat) (earlier : now ≤ x.1.clock) (clock : y.1.clock = x.1.clock)
      (ips : bannedIps y = bannedIps x ∨ ∃ ip, Table.visit
        (fun _ expiry => .ok (standsIp expiry now)) (bannedIps x) ip =
        (.ok (bannedIps y) : Checked _))
      (peers : bannedPeers y = bannedPeers x ∨ ∃ peer, Table.visit
        (fun _ ban => .ok (ban.stands now)) (bannedPeers x) peer =
        (.ok (bannedPeers y) : Checked _))
      (issued : y.2 = x.2) (harmless : NothingFresh x event)

theorem banChange_advance {w : World C P} {issued : Issued P} {caller : C} {fetched : Option Nat}
    {point next : Point P} {shared : Shared P} (stands : w.points caller = some point)
    (ok : w.shared.advance w.clock fetched point = .ok (shared, next)) :
    BanChange (w, issued) (.advance caller fetched)
      ({ w.moveTo caller next with shared := shared },
        Issued.note w (.advance caller fetched) issued) := by
  cases point with
  | removesBan ip =>
    cases ok
    refine .removesIp ip rfl rfl rfl (note_advance fetched stands) ?_
    constructor
    · intro nothing expiry found
      have lapsed := (nothing caller fetched rfl).1 ip stands expiry found
      simp only [standsIp, decide_eq_false_iff_not, Nat.not_lt, lapsed]
    · intro lapsed
      refine nothingFresh_of_removes stands ?_ nofun
      intro ip' same expiry found
      injection same with same
      subst same
      have ended := lapsed expiry found
      simpa only [standsIp, decide_eq_false_iff_not, Nat.not_lt] using ended
  | removesPeerBan peer =>
    cases ok
    refine .removesPeer peer rfl rfl rfl (note_advance fetched stands) ?_
    constructor
    · intro nothing ban found
      exact (nothing caller fetched rfl).2 peer stands ban found
    · intro lapsed
      refine nothingFresh_of_removes stands nofun ?_
      intro peer' same ban found
      injection same with same
      subst same
      exact lapsed ban found
  | insertsBan ip expiry =>
    cases ok
    exact .putsIp ip expiry rfl rfl rfl (note_advance fetched stands)
      (nothingFresh_of_removes stands nofun nofun)
  | insertsPeerBan peer ban =>
    cases ok
    exact .putsPeer peer ban rfl rfl rfl (note_advance fetched stands)
      (nothingFresh_of_removes stands nofun nofun)
  | _ =>
    obtain ⟨ips, peers⟩ := advance_keeps_bans ok rfl
    exact .quiet (Nat.le_refl _) ips peers (note_advance fetched stands)
      (nothingFresh_of_removes stands nofun nofun)

theorem banChange (consistent : Consistent x) (step : BanSteps x event y) :
    BanChange x event y := by
  obtain ⟨w, issued⟩ := x
  obtain ⟨w', issued'⟩ := y
  obtain ⟨steps, rfl : issued' = _⟩ := step
  have took : w.Took event w' := steps.took.2
  cases took with
  | tick later => exact .quiet later rfl rfl rfl nofun
  | start fresh => exact .quiet (Nat.le_refl _) rfl rfl rfl nofun
  | @advance caller fetched point next shared stands ok =>
    exact banChange_advance stands ok
  | @advancePanic caller fetched point halt stands error =>
    have unnoted : Issued.note w (.advance caller fetched) issued = issued ∧
        NothingFresh (w, issued) (.advance caller fetched) := by
      cases point with
      | removesBan ip => cases error
      | removesPeerBan peer => cases error
      | insertsBan ip expiry => cases error
      | insertsPeerBan peer ban => cases error
      | _ => exact ⟨note_advance fetched stands, nothingFresh_of_removes stands nofun nofun⟩
    exact .quiet (Nat.le_refl _) rfl rfl unnoted.1 unnoted.2
  | @visit caller entry point now shared stands sweeps ok =>
    obtain ⟨ips, peers⟩ := visit_bans ok
    exact .sweeps now (consistent.sweeps caller point entry now stands sweeps) rfl ips peers rfl
      nofun
  | visitPanic _ _ _ => exact .quiet (Nat.le_refl _) rfl rfl rfl nofun

theorem consistent_step (consistent : Consistent x) (step : BanSteps x event y) : Consistent y := by
  have swept := sweeps_step consistent step
  cases banChange consistent step with
  | quiet later ips peers issued harmless =>
    exact ⟨by rw [issued, ips]; exact consistent.ips, by rw [issued, peers]; exact consistent.peers,
      swept⟩
  | putsIp ip expiry clock ips peers issued harmless =>
    exact ⟨by rw [issued, ips]; exact consistent.ips.insert,
      by rw [issued, peers]; exact consistent.peers, swept⟩
  | putsPeer peer ban clock ips peers issued harmless =>
    exact ⟨by rw [issued, ips]; exact consistent.ips,
      by rw [issued, peers]; exact consistent.peers.insert, swept⟩
  | removesIp ip clock ips peers issued fresh =>
    exact ⟨by rw [issued, ips]; exact consistent.ips.erase,
      by rw [issued, peers]; exact consistent.peers, swept⟩
  | removesPeer peer clock ips peers issued fresh =>
    exact ⟨by rw [issued, ips]; exact consistent.ips,
      by rw [issued, peers]; exact consistent.peers.erase, swept⟩
  | sweeps now earlier clock ips peers issued harmless =>
    refine ⟨?_, ?_, swept⟩
    · rw [issued]
      rcases ips with same | ⟨ip, visited⟩
      · rw [same]
        exact consistent.ips
      · exact consistent.ips.visit visited
    · rw [issued]
      rcases peers with same | ⟨peer, visited⟩
      · rw [same]
        exact consistent.peers
      · exact consistent.peers.visit visited

theorem bansHeld_step_iff (consistent : Consistent x) (held : BansHeld x)
    (step : BanSteps x event y) : BansHeld y ↔ NothingFresh x event := by
  have change := banChange consistent step
  cases change with
  | quiet later ips peers issued harmless =>
    refine iff_of_true ⟨?_, ?_⟩ harmless
    · rw [issued, ips]
      exact held.ips.later standsIp_lapses later
    · rw [issued, peers]
      exact held.peers.later stands_lapses later
  | putsIp ip expiry clock ips peers issued harmless =>
    refine iff_of_true ⟨?_, ?_⟩ harmless
    · rw [issued, ips, clock]
      exact held.ips.insert
    · rw [issued, peers, clock]
      exact held.peers
  | putsPeer peer ban clock ips peers issued harmless =>
    refine iff_of_true ⟨?_, ?_⟩ harmless
    · rw [issued, ips, clock]
      exact held.ips
    · rw [issued, peers, clock]
      exact held.peers.insert
  | removesIp ip clock ips peers issued fresh =>
    have kept := held_erase_iff (a := ip) consistent.ips held.ips
    rw [fresh, ← kept]
    constructor
    · intro after
      rw [← ips, ← issued, ← clock]
      exact after.ips
    · intro after
      refine ⟨?_, ?_⟩
      · rw [ips, issued, clock]
        exact after
      · rw [peers, issued, clock]
        exact held.peers
  | removesPeer peer clock ips peers issued fresh =>
    have kept := held_erase_iff (a := peer) consistent.peers held.peers
    rw [fresh, ← kept]
    constructor
    · intro after
      rw [← peers, ← issued, ← clock]
      exact after.peers
    · intro after
      refine ⟨?_, ?_⟩
      · rw [ips, issued, clock]
        exact held.ips
      · rw [peers, issued, clock]
        exact after
  | sweeps now earlier clock ips peers issued harmless =>
    refine iff_of_true ⟨?_, ?_⟩ harmless
    · rw [issued, clock]
      rcases ips with same | ⟨ip, visited⟩
      · rw [same]
        exact held.ips
      · exact held.ips.visit standsIp_lapses earlier visited
    · rw [issued, clock]
      rcases peers with same | ⟨peer, visited⟩
      · rw [same]
        exact held.peers
      · exact held.peers.visit stands_lapses earlier visited

omit [DecidableEq C] in
theorem reported_of_held (held : BansHeld x) : Reported x := by
  constructor
  · intro ip expiry put standing
    have stored := held.ips ip expiry put (decide_eq_true standing)
    simp only [AttackPrevention.isBanned, stored, if_pos standing]
  · intro peer ban put standing
    have stored := held.peers peer ban put standing
    simp only [PeerGuard.isAllowed, stored, if_pos standing]

omit [DecidableEq C] in
theorem new_consistent (clock : Nat) :
    Consistent (World.new (C := C) clock, Issued.none (P := P)) :=
  ⟨nofun, nofun, nofun⟩

omit [DecidableEq C] in
theorem new_held (clock : Nat) : BansHeld (World.new (C := C) clock, Issued.none (P := P)) :=
  ⟨nofun, nofun⟩

omit [DecidableEq C] in
/-- A call answers in its first step what the whole check would answer. -/
theorem answers_of_held (held : BansHeld x) :
    (∀ ip expiry, x.2.ips ip = some expiry → x.1.clock < expiry →
      x.1.shared.advance x.1.clock fetched (.start (.isBanned ip)) =
        .ok (x.1.shared, .returned (some true))) ∧
    ∀ peer ban, x.2.peers peer = some ban → ban.stands x.1.clock = true →
      x.1.shared.advance x.1.clock fetched (.start (.isAllowed peer)) =
        .ok (x.1.shared, .returned (some false)) := by
  constructor
  · intro ip expiry put standing
    have stored := held.ips ip expiry put (decide_eq_true standing)
    simp only [Shared.advance, stored, if_pos standing]
  · intro peer ban put standing
    have stored := held.peers peer ban put standing
    simp only [Shared.advance, stored, if_pos standing]

/-- In a run from the start the standing bans stay stored exactly when no call removes a
fresh ban, and then every check reports them. -/
theorem bansHeld_iff_nothing_fresh (clock : Nat) (events : List (Event C P))
    (u : World C P × Issued P)
    (run : Run BanSteps (World.new clock, Issued.none) events u) :
    Always BanSteps BansHeld (World.new clock, Issued.none) events ↔
      Run (Guarded BanSteps NothingFresh) (World.new clock, Issued.none) events u :=
  always_iff_guarded World.steps_deterministic.traced
    (fun _ _ _ consistent step => consistent_step consistent step)
    (fun _ _ _ consistent held step => bansHeld_step_iff consistent held step) run
    (new_consistent clock) (new_held clock)

/-- In a run in which no call removes a fresh ban, every check reports the bans that
stand. -/
theorem bans_reported_if_nothing_fresh (clock : Nat) (events : List (Event C P))
    (u : World C P × Issued P)
    (run : Run (Guarded BanSteps NothingFresh) (World.new clock, Issued.none) events u) :
    Always BanSteps Reported (World.new clock, Issued.none) events := by
  have held := (bansHeld_iff_nothing_fresh clock events u run.unguarded).mpr run
  intro pre x sub reached
  exact reported_of_held (held pre x sub reached)

end World

/-! An address is banned again while a check that found its first ban expired is about to
remove that ban. -/

theorem banSteps_of {w w' : World C P} {issued : Issued P} {event : Event C P}
    (ok : w.step event = some w') :
    BanSteps (w, issued) event (w', Issued.note w event issued) := ⟨ok, rfl⟩

def banAndCheck : List (Event Nat Nat) :=
  [.start 0 (.banIp "10.0.0.1" 10), .advance 0 none, .advance 0 none,
    .start 1 (.isBanned "10.0.0.1"), .advance 1 none]

theorem ban_reported_after_check :
    Always BanSteps Reported (World.new 0, Issued.none) banAndCheck :=
  bans_reported_if_nothing_fresh 0 banAndCheck _
    (.cons ⟨banSteps_of rfl, nofun⟩
      (.cons ⟨banSteps_of rfl, nothingFresh_of_removes rfl nofun nofun⟩
      (.cons ⟨banSteps_of rfl, nothingFresh_of_removes rfl nofun nofun⟩
        (.cons ⟨banSteps_of rfl, nofun⟩
          (.cons ⟨banSteps_of rfl, nothingFresh_of_removes rfl nofun nofun⟩ (.nil _))))))

def banDuringCheck : List (Event Nat Nat) :=
  [.start 0 (.banIp "10.0.0.1" 10), .advance 0 none, .advance 0 none, .tick 10,
    .start 1 (.isBanned "10.0.0.1"), .advance 1 none,
    .start 2 (.banIp "10.0.0.1" 10), .advance 2 none, .advance 2 none, .advance 1 none]

theorem banDuringCheck_runs :
    ∃ u, Run BanSteps (World.new 0, Issued.none) banDuringCheck u ∧ ¬ Reported u := by
  refine ⟨_, .cons (banSteps_of rfl) (.cons (banSteps_of rfl) (.cons (banSteps_of rfl)
    (.cons (banSteps_of rfl) (.cons (banSteps_of rfl) (.cons (banSteps_of rfl)
      (.cons (banSteps_of rfl) (.cons (banSteps_of rfl) (.cons (banSteps_of rfl)
        (.cons (banSteps_of rfl) (.nil _)))))))))), ?_⟩
  rintro ⟨reported, _⟩
  have banned := reported "10.0.0.1" 20 rfl (by decide)
  cases banned

/-- The second ban is removed in place of the first, and its address passes. -/
theorem ban_lost_during_check :
    ¬ ∀ (C P : Type) [DecidableEq C] [DecidableEq P] (clock : Nat) (events : List (Event C P))
      (u : World C P × Issued P), Run BanSteps (World.new clock, Issued.none) events u →
        Always BanSteps Reported (World.new clock, Issued.none) events := by
  intro all
  obtain ⟨u, run, lost⟩ := banDuringCheck_runs
  exact lost (all Nat Nat 0 banDuringCheck u run banDuringCheck u (List.prefix_refl _) run)

end Solnet.Daemon
