import Solnet.Daemon.Concurrent

/-! The statistics of the peer guard, next to calls that change it. The length of the table of
scores is read first, and its entries are visited later. -/
namespace Solnet.Daemon
open Fallible Runs

structure PeerGuardStats where
  totalKnownPeers : Nat
  bannedPeers : Nat
  healthyPeers : Nat
  degradedPeers : Nat
  deriving DecidableEq, Repr

def PeerRecord.healthy (record : PeerRecord) : Bool := 50 ≤ record.score

def PeerGuard.getStats {P : Type} [DecidableEq P] (s : PeerGuard P) : Checked PeerGuardStats := do
  let totalPeers := s.scores.keys.length
  let bannedPeers := s.banned.keys.length
  let healthy := s.scores.entries.countP fun entry => entry.2.healthy
  let degraded ← checkedSub totalPeers healthy
  return ⟨totalPeers, bannedPeers, healthy, degraded⟩

/-- Nothing changes the table between the length and the visits of a call on its own. -/
theorem PeerGuard.getStats_ok {P : Type} [DecidableEq P] (s : PeerGuard P) :
    ∃ stats, s.getStats = .ok stats := by
  have fits : (s.scores.entries.countP fun entry => entry.2.healthy) ≤ s.scores.keys.length := by
    rw [AList.keys, List.keys, List.length_map]
    exact List.countP_le_length
  exact ⟨_, bind_ok_iff.mpr ⟨_, subWithin_ok_iff.mpr ⟨fits, rfl⟩, rfl⟩⟩

inductive GuardCall (P : Type) where
  | call (call : Call P)
  | onFailedHandshake (peer : P)
  | getStats
  deriving DecidableEq, Repr

/-- Where a call stands before its next step. The order in which the entries are visited, and
which of those that come late are, is left open. -/
inductive GuardPoint (P : Type) where
  | point (point : Point P)
  | failsHandshake (peer : P)
  | bansFailed (peer : P)
  | readsLength
  | readsBanned (totalPeers : Nat)
  | visits (totalPeers bannedPeers : Nat) (visited : List P) (healthy : Nat)
  | subtracts (totalPeers bannedPeers healthy : Nat)
  | gotStats (stats : PeerGuardStats)
  deriving DecidableEq, Repr

def GuardCall.entry {P : Type} : GuardCall P → GuardPoint P
  | .call c => .point (.start c)
  | .onFailedHandshake peer => .failsHandshake peer
  | .getStats => .readsLength

namespace GuardPoint

variable {P : Type} [DecidableEq P]

def advance (s : Shared P) (clock : Nat) (fetched : Option Nat) :
    GuardPoint P → Checked (Shared P × GuardPoint P)
  | .point p => do
    let (s', p') ← s.advance clock fetched p
    return (s', .point p')
  | .failsHandshake peer => do
    let record ← (s.peerGuard.recordOf peer clock).failed
    let s' := { s with peerGuard := s.peerGuard.setRecord peer record }
    return (s', if 5 ≤ record.failedHandshakes then .bansFailed peer else .point (.returned none))
  | .bansFailed peer => do
    let expiry ← checkedAdd 64 clock 3600
    return (s, .point (.start (.ban peer "5 failed handshakes" (some expiry))))
  | .readsLength => .ok (s, .readsBanned s.peerGuard.scores.keys.length)
  | .readsBanned totalPeers => .ok (s, .visits totalPeers s.peerGuard.banned.keys.length [] 0)
  | .visits totalPeers bannedPeers _ healthy => .ok (s, .subtracts totalPeers bannedPeers healthy)
  | .subtracts totalPeers bannedPeers healthy => do
    let degraded ← checkedSub totalPeers healthy
    return (s, .gotStats ⟨totalPeers, bannedPeers, healthy, degraded⟩)
  | .gotStats stats => .ok (s, .gotStats stats)

/-- The iteration visits the entry of a peer that it has not visited. -/
def visit (s : Shared P) (peer : P) : GuardPoint P → Option (GuardPoint P)
  | .visits totalPeers bannedPeers visited healthy =>
    if peer ∈ visited then none
    else (s.peerGuard.scores.lookup peer).map fun record =>
      .visits totalPeers bannedPeers (peer :: visited)
        (if record.healthy then healthy + 1 else healthy)
  | _ => none

def sweeps : GuardPoint P → Entry P → Option Nat
  | .point p, entry => p.sweeps entry
  | _, _ => none

end GuardPoint

structure GuardWorld (C P : Type) where
  clock : Nat
  shared : Shared P
  points : C → Option (GuardPoint P)
  halted : Option Halt

/-- A cleanup `sweeps` an entry, and statistics `visit` one. -/
inductive GuardEvent (C P : Type) where
  | tick (now : Nat)
  | start (c : C) (call : GuardCall P)
  | advance (c : C) (fetched : Option Nat)
  | sweep (c : C) (entry : Entry P)
  | visit (c : C) (peer : P)

namespace GuardWorld

variable {C P : Type} [DecidableEq C] [DecidableEq P]

def new (clock : Nat) : GuardWorld C P := ⟨clock, .new, fun _ => none, none⟩

def moveTo (w : GuardWorld C P) (c : C) (point : GuardPoint P) : GuardWorld C P :=
  { w with points := Function.update w.points c (some point) }

def step (w : GuardWorld C P) (event : GuardEvent C P) : Option (GuardWorld C P) :=
  if w.halted.isSome then none
  else
    match event with
    | .tick now => if w.clock ≤ now then some { w with clock := now } else none
    | .start c call => if (w.points c).isSome then none else some (w.moveTo c call.entry)
    | .advance c fetched =>
      (w.points c).map fun point =>
        match point.advance w.shared w.clock fetched with
        | .error halt => { w with halted := some halt }
        | .ok (shared, point) => { w.moveTo c point with shared := shared }
    | .sweep c entry =>
      ((w.points c).bind fun point => point.sweeps entry).map fun now =>
        match w.shared.visit now entry with
        | .error halt => { w with halted := some halt }
        | .ok shared => { w with shared := shared }
    | .visit c peer =>
      ((w.points c).bind fun point => point.visit w.shared peer).map fun point => w.moveTo c point

def Steps (w : GuardWorld C P) (event : GuardEvent C P) (w' : GuardWorld C P) : Prop :=
  w.step event = some w'

/-- The peers that had a record when a call read the length. -/
abbrev Known (C P : Type) := C → List P

def noteKnown (w : GuardWorld C P) (event : GuardEvent C P) (known : Known C P) : Known C P :=
  match event with
  | .advance c _ =>
    if w.points c = some .readsLength then
      Function.update known c w.shared.peerGuard.scores.keys
    else known
  | _ => known

abbrev StatsSteps : GuardWorld C P × Known C P → GuardEvent C P → GuardWorld C P × Known C P →
    Prop :=
  Runs.Traced Steps noteKnown

/-- No subtraction of the statistics underflows. -/
def NeverUnderflows (x : GuardWorld C P × Known C P) : Prop :=
  ∀ c totalPeers bannedPeers healthy,
    x.1.points c = some (.subtracts totalPeers bannedPeers healthy) → healthy ≤ totalPeers

/-- A visit finds a peer that had its record when the length was read, or one with a low score. -/
def FindsKnown (x : GuardWorld C P × Known C P) (event : GuardEvent C P) : Prop :=
  ∀ c peer record, event = .visit c peer → x.1.shared.peerGuard.scores.lookup peer = some record →
    record.healthy = true → peer ∈ x.2 c

end GuardWorld

/-- The healthy peers that are counted so far differ from one another, and had a record when the
length was read. -/
def GuardPoint.Sound {P : Type} (known : List P) : GuardPoint P → Prop
  | .readsBanned totalPeers => known.length = totalPeers
  | .visits totalPeers _ visited healthy => known.length = totalPeers ∧
    ∃ counted : List P, counted.Nodup ∧ counted ⊆ visited ∧ counted ⊆ known ∧
      counted.length = healthy
  | .subtracts totalPeers _ healthy => healthy ≤ totalPeers
  | _ => True

namespace GuardPoint

variable {P : Type} [DecidableEq P] {s s' : Shared P} {clock : Nat} {fetched : Option Nat}
  {point next : GuardPoint P} {known : List P} {peer : P}

theorem Sound.advance (sound : point.Sound known)
    (ok : point.advance s clock fetched = .ok (s', next)) :
    next.Sound (if point = .readsLength then s.peerGuard.scores.keys else known) := by
  cases point with
  | point p =>
    obtain ⟨⟨s', p'⟩, _, ok⟩ := bind_ok_iff.mp ok
    cases ok
    trivial
  | failsHandshake peer =>
    obtain ⟨record, _, ok⟩ := bind_ok_iff.mp ok
    cases ok
    rw [if_neg nofun]
    split
    · trivial
    · trivial
  | bansFailed peer =>
    obtain ⟨expiry, _, ok⟩ := bind_ok_iff.mp ok
    cases ok
    trivial
  | readsLength =>
    cases ok
    rw [if_pos rfl]
    exact rfl
  | readsBanned totalPeers =>
    cases ok
    rw [if_neg nofun]
    exact ⟨sound, [], List.nodup_nil, List.nil_subset _, List.nil_subset _, rfl⟩
  | visits totalPeers bannedPeers visited healthy =>
    cases ok
    obtain ⟨total, counted, nodup, _, had, count⟩ := sound
    have fits : counted.length ≤ known.length := (List.subperm_of_subset nodup had).length_le
    rwa [count, total] at fits
  | subtracts totalPeers bannedPeers healthy =>
    obtain ⟨degraded, _, ok⟩ := bind_ok_iff.mp ok
    cases ok
    trivial
  | gotStats stats =>
    cases ok
    trivial

theorem Sound.visit (sound : point.Sound known) (visits : point.visit s peer = some next)
    (found : ∀ record, s.peerGuard.scores.lookup peer = some record → record.healthy = true →
      peer ∈ known) : next.Sound known := by
  cases point with
  | visits totalPeers bannedPeers visited healthy =>
    simp only [GuardPoint.visit] at visits
    split at visits
    · cases visits
    rename_i fresh
    obtain ⟨record, stored, rfl⟩ := Option.map_eq_some_iff.mp visits
    obtain ⟨total, counted, nodup, sub, had, count⟩ := sound
    refine ⟨total, ?_⟩
    cases healthy_record : record.healthy with
    | true =>
      have new : peer ∉ counted := fun member => fresh (sub member)
      refine ⟨peer :: counted, List.nodup_cons.mpr ⟨new, nodup⟩, List.cons_subset_cons _ sub,
        List.cons_subset.mpr ⟨found record stored healthy_record, had⟩, ?_⟩
      rw [if_pos rfl, List.length_cons, count]
    | false =>
      refine ⟨counted, nodup, List.subset_cons_of_subset _ sub, had, ?_⟩
      rw [if_neg Bool.noConfusion, count]
  | _ => cases visits

omit [DecidableEq P] in
theorem sound_entry (call : GuardCall P) : call.entry.Sound known := by
  cases call <;> trivial

end GuardPoint

namespace GuardWorld

variable {C P : Type} [DecidableEq C] [DecidableEq P] {w w' : GuardWorld C P} {known : Known C P}
  {event : GuardEvent C P} {x y : GuardWorld C P × Known C P}

theorem steps_deterministic : Deterministic (Steps (C := C) (P := P)) :=
  deterministic_of_option step

def StatsSound (x : GuardWorld C P × Known C P) : Prop :=
  ∀ c point, x.1.points c = some point → point.Sound (x.2 c)

theorem noteKnown_advance (c c' : C) (fetched : Option Nat) :
    noteKnown w (.advance c fetched) known c' =
      if c' = c ∧ w.points c = some .readsLength then w.shared.peerGuard.scores.keys
      else known c' := by
  dsimp only [noteKnown]
  by_cases reads : w.points c = some .readsLength
  · rw [if_pos reads, Function.update_apply]
    simp only [reads, and_true]
  · rw [if_neg reads, if_neg fun both => reads both.2]

/-- What a step does to the calls. A tick and a visit of a cleanup leave them. -/
inductive Took (w : GuardWorld C P) : GuardEvent C P → GuardWorld C P → Prop where
  | start {c : C} {call : GuardCall P} : Took w (.start c call) (w.moveTo c call.entry)
  | advance {c : C} {fetched : Option Nat} {point next : GuardPoint P} {shared : Shared P}
      (stands : w.points c = some point)
      (ok : point.advance w.shared w.clock fetched = .ok (shared, next)) :
      Took w (.advance c fetched) { w.moveTo c next with shared := shared }
  | advancePanic {c : C} {fetched : Option Nat} {point : GuardPoint P} {halt : Halt}
      (stands : w.points c = some point)
      (error : point.advance w.shared w.clock fetched = .error halt) :
      Took w (.advance c fetched) { w with halted := some halt }
  | visit {c : C} {peer : P} {point next : GuardPoint P} (stands : w.points c = some point)
      (visits : point.visit w.shared peer = some next) :
      Took w (.visit c peer) (w.moveTo c next)
  | tick {now : Nat} : Took w (.tick now) { w with clock := now }
  | sweep {c : C} {entry : Entry P} {w' : GuardWorld C P} (same : w'.points = w.points) :
      Took w (.sweep c entry) w'

theorem Steps.took (step : w.Steps event w') : w.Took event w' := by
  unfold Steps GuardWorld.step at step
  split at step
  · cases step
  cases event with
  | tick now =>
    dsimp only at step
    split at step
    · cases step
      exact .tick
    · cases step
  | start c call =>
    dsimp only at step
    split at step
    · cases step
    · cases step
      exact .start
  | advance c fetched =>
    obtain ⟨point, stands, step⟩ := Option.map_eq_some_iff.mp step
    cases outcome : point.advance w.shared w.clock fetched with
    | error halt =>
      rw [outcome] at step
      cases step
      exact .advancePanic stands outcome
    | ok result =>
      rw [outcome] at step
      cases step
      exact .advance stands outcome
  | sweep c entry =>
    obtain ⟨now, _, step⟩ := Option.map_eq_some_iff.mp step
    split at step
    · cases step
      exact .sweep rfl
    · cases step
      exact .sweep rfl
  | visit c peer =>
    obtain ⟨next, found, step⟩ := Option.map_eq_some_iff.mp step
    obtain ⟨point, stands, visits⟩ := Option.bind_eq_some_iff.mp found
    cases step
    exact .visit stands visits

omit [DecidableEq P] in
/-- A step that moves one call to a sound point. -/
theorem statsSound_of_moveTo {known' : Known C P} {c : C} {point : GuardPoint P}
    (sound : StatsSound (w, known)) (moved : point.Sound (known' c))
    (same : ∀ c', c' ≠ c → known' c' = known c') (points : w'.points = (w.moveTo c point).points) :
    StatsSound (w', known') := by
  intro c' point' stands
  have moved' : (w.moveTo c point).points c' = some point' := points ▸ stands
  simp only [moveTo, Function.update_apply] at moved'
  split at moved'
  · rename_i here
    obtain rfl := Option.some.inj moved'
    exact here ▸ moved
  · rename_i other
    have kept : point'.Sound (known c') := sound c' point' moved'
    rwa [← same c' other] at kept

theorem statsSound_step (sound : StatsSound x) (step : StatsSteps x event y)
    (finds : FindsKnown x event) : StatsSound y := by
  obtain ⟨w, known⟩ := x
  obtain ⟨w', known'⟩ := y
  obtain ⟨step, rfl⟩ := step
  cases Steps.took step with
  | start => exact statsSound_of_moveTo sound (GuardPoint.sound_entry _) (fun _ _ => rfl) rfl
  | @advance c fetched point next shared stands ok =>
    refine statsSound_of_moveTo sound ?_ ?_ rfl
    · have kept := (sound c point stands).advance ok
      rw [noteKnown_advance, stands]
      simpa only [true_and, Option.some.injEq] using kept
    · intro c' other
      exact (noteKnown_advance c c' fetched).trans (if_neg fun both => other both.1)
  | @advancePanic c fetched point halt stands error =>
    intro c' point' stands'
    have known_same : noteKnown w (.advance c fetched) known c' = known c' := by
      refine (noteKnown_advance c c' fetched).trans (if_neg ?_)
      rintro ⟨_, reads⟩
      obtain rfl := Option.some.inj (stands.symm.trans reads)
      cases error
    have kept : point'.Sound (known c') := sound c' point' stands'
    rwa [← known_same] at kept
  | @visit c peer point next stands visits =>
    exact statsSound_of_moveTo sound ((sound c point stands).visit visits
      fun record stored healthy => finds c peer record rfl stored healthy) (fun _ _ => rfl) rfl
  | tick => exact sound
  | sweep same =>
    intro c' point' stands'
    exact sound c' point' (same ▸ stands')

/-- The subtraction of the statistics never underflows in a run in which each visit that counts
finds a peer that already had its record when the length was read. -/
theorem never_underflows_of_known {clock : Nat} {known : Known C P} {events : List (GuardEvent C P)}
    {x : GuardWorld C P × Known C P}
    (run : Run (Guarded StatsSteps FindsKnown) (new clock, known) events x) :
    Always StatsSteps NeverUnderflows (new clock, known) events := by
  have start : StatsSound (new clock, known) := by
    intro c point stands
    cases stands
  refine run.always (I := StatsSound) steps_deterministic.traced ?_ ?_ start
  · intro x event y sound step finds
    exact statsSound_step sound step finds
  · intro x sound c totalPeers bannedPeers healthy stands
    exact sound c _ stands

/-! The steps of the statistics with nothing between them. -/

omit [DecidableEq P] in
theorem moveTo_points (w : GuardWorld C P) (c : C) (point : GuardPoint P) :
    (w.moveTo c point).points c = some point :=
  Function.update_self ..

omit [DecidableEq P] in
theorem moveTo_running (running : w.halted = none) (c : C) (point : GuardPoint P) :
    (w.moveTo c point).halted.isSome = false := by
  rw [moveTo, running]
  rfl

theorem advance_moveTo {c : C} {point next : GuardPoint P} (running : w.halted = none)
    (ok : point.advance w.shared w.clock none = .ok (w.shared, next)) :
    Steps (w.moveTo c point) (.advance c none) (w.moveTo c next) := by
  unfold Steps GuardWorld.step
  rw [moveTo_running running, if_neg Bool.noConfusion]
  dsimp only
  rw [moveTo_points, Option.map_some]
  dsimp only [moveTo] at ok ⊢
  rw [ok]
  simp only [Function.update_idem]

theorem visit_moveTo {c : C} {peer : P} {point next : GuardPoint P} (running : w.halted = none)
    (visits : point.visit w.shared peer = some next) :
    Steps (w.moveTo c point) (.visit c peer) (w.moveTo c next) := by
  unfold Steps GuardWorld.step
  rw [moveTo_running running, if_neg Bool.noConfusion]
  dsimp only
  rw [moveTo_points, Option.bind_some]
  dsimp only [moveTo] at visits ⊢
  rw [visits]
  simp only [Option.map_some, Function.update_idem]

/-- Visits of entries of the table count those that are healthy. -/
theorem visits_run (running : w.halted = none) (c : C) (totalPeers bannedPeers : Nat)
    (entries : List (Sigma fun _ : P => PeerRecord)) (visited : List P) (healthy : Nat)
    (nodup : entries.NodupKeys) (fresh : ∀ entry ∈ entries, entry.1 ∉ visited)
    (stored : ∀ entry ∈ entries, w.shared.peerGuard.scores.lookup entry.1 = some entry.2) :
    ∃ visited', Run Steps (w.moveTo c (.visits totalPeers bannedPeers visited healthy))
      (entries.map fun entry => .visit c entry.1)
      (w.moveTo c (.visits totalPeers bannedPeers visited'
        (healthy + entries.countP fun entry => entry.2.healthy))) := by
  induction entries generalizing visited healthy with
  | nil => exact ⟨visited, .nil _⟩
  | cons entry entries ih =>
    obtain ⟨peer, record⟩ := entry
    obtain ⟨new, nodup⟩ := List.nodupKeys_cons.mp nodup
    obtain ⟨unvisited, fresh⟩ := List.forall_mem_cons.mp fresh
    obtain ⟨here, stored⟩ := List.forall_mem_cons.mp stored
    have visits : (GuardPoint.visits totalPeers bannedPeers visited healthy).visit w.shared peer =
        some (.visits totalPeers bannedPeers (peer :: visited)
          (if record.healthy then healthy + 1 else healthy)) := by
      rw [GuardPoint.visit, if_neg unvisited, here, Option.map_some]
    have later : ∀ entry ∈ entries, entry.1 ∉ peer :: visited := by
      intro entry member visited_later
      rcases List.mem_cons.mp visited_later with same | earlier
      · have listed : entry.1 ∈ entries.keys := List.mem_keys_of_mem member
        exact new (same ▸ listed)
      · exact fresh entry member earlier
    obtain ⟨visited', rest⟩ := ih (peer :: visited)
      (if record.healthy then healthy + 1 else healthy) nodup later stored
    have count : (if record.healthy then healthy + 1 else healthy) +
        (entries.countP fun entry => entry.2.healthy) =
          healthy + (⟨peer, record⟩ :: entries).countP fun entry => entry.2.healthy := by
      rw [List.countP_cons]
      split <;> omega
    exact ⟨visited', .cons (visit_moveTo running visits) (count ▸ rest)⟩

/-- A call of `get_stats` on its own takes its steps to the statistics of the guard. -/
theorem getStats_run {c : C} (running : w.halted = none) (idle : w.points c = none) :
    ∃ stats, w.shared.peerGuard.getStats = .ok stats ∧
      Run Steps w (.start c .getStats :: .advance c none :: .advance c none ::
        (w.shared.peerGuard.scores.entries.map fun entry => .visit c entry.1) ++
          [.advance c none, .advance c none]) (w.moveTo c (.gotStats stats)) := by
  obtain ⟨stats, got⟩ := w.shared.peerGuard.getStats_ok
  refine ⟨stats, got, ?_⟩
  have starts : Steps w (.start c .getStats) (w.moveTo c .readsLength) := by
    simp only [Steps, GuardWorld.step, running, idle, Option.isSome_none, Bool.false_eq_true,
      if_false]
    rfl
  obtain ⟨visited, visits⟩ := visits_run running c w.shared.peerGuard.scores.keys.length
    w.shared.peerGuard.banned.keys.length w.shared.peerGuard.scores.entries [] 0
    w.shared.peerGuard.scores.nodupKeys (fun _ _ => List.not_mem_nil)
    (fun entry member => AList.mem_lookup_iff.mpr member)
  obtain ⟨degraded, subtracted, same⟩ := bind_ok_iff.mp got
  obtain rfl := Except.ok.inj same
  rw [Nat.zero_add] at visits
  refine .cons starts (.cons (advance_moveTo running rfl) (.cons (advance_moveTo running rfl)
    (run_append_iff.mpr ⟨_, visits, .cons (advance_moveTo running rfl)
      (.cons (advance_moveTo running ?_) (.nil _))⟩)))
  rw [GuardPoint.advance, subtracted]
  rfl

/-! The statistics of one peer, and of a peer that connects after the length is read. -/

def connects : List (GuardEvent Nat Unit) :=
  [.start 1 (.call (.onConnected ())), .advance 1 none, .advance 1 none]

def countsFirst : List (GuardEvent Nat Unit) :=
  connects ++ [.start 0 .getStats, .advance 0 none, .advance 0 none, .visit 0 (), .advance 0 none]

def connectsBetween : List (GuardEvent Nat Unit) :=
  [.start 0 .getStats, .advance 0 none, .advance 0 none] ++ connects ++
    [.visit 0 (), .advance 0 none]

theorem countsFirst_never_underflows :
    Always StatsSteps NeverUnderflows (new 0, fun _ => []) countsFirst := by
  have quiet (x : GuardWorld Nat Unit × Known Nat Unit) (event : GuardEvent Nat Unit)
      (other : ∀ c peer, event ≠ .visit c peer) : FindsKnown x event :=
    fun c peer _ same => absurd same (other c peer)
  have knows (w : GuardWorld Nat Unit) (known : Known Nat Unit) (listed : known 0 = [()]) :
      FindsKnown (w, known) (.visit 0 ()) := by
    intro c peer record same _ _
    injection same with same
    subst same
    have here : () ∈ known 0 := listed ▸ List.mem_singleton_self ()
    exact here
  have run : Run (Guarded StatsSteps FindsKnown) (new 0, fun _ => []) countsFirst _ :=
    .cons ⟨traced_of rfl _, quiet _ _ nofun⟩ <| .cons ⟨traced_of rfl _, quiet _ _ nofun⟩ <|
      .cons ⟨traced_of rfl _, quiet _ _ nofun⟩ <| .cons ⟨traced_of rfl _, quiet _ _ nofun⟩ <|
      .cons ⟨traced_of rfl _, quiet _ _ nofun⟩ <| .cons ⟨traced_of rfl _, quiet _ _ nofun⟩ <|
      .cons ⟨traced_of rfl _, knows _ _ rfl⟩ <| .cons ⟨traced_of rfl _, quiet _ _ nofun⟩ <| .nil _
  exact never_underflows_of_known run

theorem stats_underflow : ¬ ∀ (C P : Type) [DecidableEq C] [DecidableEq P] (clock : Nat)
    (events : List (GuardEvent C P)) (w : GuardWorld C P), Run Steps (new clock) events w →
      ∀ c totalPeers bannedPeers healthy,
        w.points c = some (.subtracts totalPeers bannedPeers healthy) → healthy ≤ totalPeers := by
  intro all
  have run : Run Steps (new 0) connectsBetween _ :=
    .cons rfl <| .cons rfl <| .cons rfl <| .cons rfl <| .cons rfl <| .cons rfl <| .cons rfl <|
      .cons rfl <| .nil _
  exact absurd (all Nat Unit 0 connectsBetween _ run 0 0 0 1 rfl) (by decide)

end GuardWorld

end Solnet.Daemon
