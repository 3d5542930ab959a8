import Solnet.Native.RelayClient

/-! How long a started relay lives. A start that has returned leaves a loop behind that goes on
until the relay is stopped, unless the loop has looked at the flag before the start set it. -/
namespace Solnet.Native
open Runs

namespace RelayClient

/-- The steps of the client and its loops when each HTTP client can be built. -/
def Builds (w : World) (e : Event) (w' : World) : Prop :=
  Step w e w' ∧ ∀ i, e ≠ .loop i (.build false)

/-- From the return of a start to the next stop the loop is there, and so it is as long as the
stats say that the relay is running. -/
def KeptAlive (w : World) : Prop :=
  (w.returned = some (.start (.ok ())) → w.relayRunning = true ∧ w.Live) ∧
    (w.relayRunning = true → w.Live)

/-- No loop looks at the flag, as long as it is not set, while the start that spawned it is in
progress, except in a start that finds another runtime stored. -/
def ChecksInTime (w : World) : Event → Prop
  | .loop i .check => w.relayRunning = true ∨
    ∀ point, w.call = some (i, point) → ∃ m, w.relayRt = some m ∧ m ≠ i
  | _ => True

/-- The states of a relay whose loops have looked in time. -/
inductive Alive : World → Prop
  | fresh {now : Nat} {returned : Option Reply} (quiet : returned ≠ some (.start (.ok ()))) :
      Alive ⟨none, none, false, now, [], none, returned⟩
  | starting {now : Nat} (point : StartPoint) {returned : Option Reply} {loop : LoopState}
      (quiet : returned ≠ some (.start (.ok ()))) (early : loop = .building ∨ loop = .checking) :
      Alive ⟨(stored point).1, (stored point).2, false, now, [loop], some (0, point), returned⟩
  | up {now : Nat} {loop : LoopState} (lives : loop ≠ .exited) :
      Alive ⟨some 0, some 0, true, now, [loop], none, some (.start (.ok ()))⟩
  | down {now : Nat} {loops : List LoopState} {returned : Option Reply}
      (quiet : returned ≠ some (.start (.ok ()))) (spawned : loops ≠ []) :
      Alive ⟨some 0, some 0, false, now, loops, none, returned⟩
  | restarting {now n : Nat} {loops : List LoopState} {returned : Option Reply}
      (quiet : returned ≠ some (.start (.ok ()))) (spawned : loops ≠ []) (later : n ≠ 0) :
      Alive ⟨some 0, some 0, false, now, loops, some (n, .setsRuntime), returned⟩

/-- The states in which a start has returned, or will, and its loop has exited. -/
inductive Lost : World → Prop
  | dead {now : Nat} (point : StartPoint) {returned : Option Reply} :
      Lost ⟨(stored point).1, (stored point).2, false, now, [.exited], some (0, point), returned⟩
  | returned {now : Nat} :
      Lost ⟨some 0, some 0, true, now, [.exited], none, some (.start (.ok ()))⟩

theorem builds_deterministic : Deterministic Builds := by
  rintro w e t u ⟨left, _⟩ ⟨right, _⟩
  exact step_deterministic w e t u left right

variable {w w' : World} {e : Event}

theorem Alive.keptAlive (alive : Alive w) : KeptAlive w := by
  cases alive with
  | fresh quiet => exact ⟨fun same => absurd same quiet, nofun⟩
  | starting point quiet early => exact ⟨fun same => absurd same quiet, nofun⟩
  | @up now loop lives =>
    have live : World.Live ⟨some 0, some 0, true, now, [loop], none, some (.start (.ok ()))⟩ :=
      (live_iff rfl rfl).mpr lives
    exact ⟨fun _ => ⟨rfl, live⟩, fun _ => live⟩
  | down quiet spawned => exact ⟨fun same => absurd same quiet, nofun⟩
  | restarting quiet spawned later => exact ⟨fun same => absurd same quiet, nofun⟩

theorem alive_start {now : Nat} (alive : Alive w) (step : Step w (.start now) w') : Alive w' := by
  cases alive with
  | fresh quiet =>
    obtain rfl := Option.some.inj step
    exact .starting .setsRuntime quiet (.inl rfl)
  | starting point quiet early => cases step
  | up lives =>
    obtain rfl := Option.some.inj step
    exact .up lives
  | down quiet spawned =>
    obtain rfl := Option.some.inj step
    apply Alive.restarting quiet
    · exact List.append_ne_nil_of_right_ne_nil _ (List.cons_ne_nil _ _)
    · exact fun none => spawned (List.eq_nil_of_length_eq_zero none)
  | restarting quiet spawned later => cases step

theorem alive_stop (alive : Alive w) (step : Step w .stop w') : Alive w' := by
  cases alive with
  | fresh quiet =>
    obtain rfl := Option.some.inj step
    exact .fresh nofun
  | starting point quiet early => cases step
  | up lives =>
    obtain rfl := Option.some.inj step
    exact .down nofun (List.cons_ne_nil _ _)
  | down quiet spawned =>
    obtain rfl := Option.some.inj step
    exact .down nofun spawned
  | restarting quiet spawned later => cases step

theorem alive_proceed (alive : Alive w) (step : Step w .proceed w') : Alive w' := by
  cases alive with
  | fresh quiet => cases step
  | starting point quiet early =>
    obtain ⟨next, rfl⟩ | rfl := proceed_first step
    · exact .starting next quiet early
    · apply Alive.up
      rintro rfl
      simp at early
  | up lives => cases step
  | down quiet spawned => cases step
  | restarting quiet spawned later =>
    obtain rfl := Option.some.inj step
    apply Alive.down
    · exact nofun
    · exact mt (List.set_eq_nil_iff _ _).mp spawned

theorem only_index {i : Nat} {loop : LoopState} {event : LoopEvent} (only : w.loops = [loop])
    (step : Step w (.loop i event) w') : i = 0 := by
  obtain ⟨found, next, here, _, _⟩ := loop_iff.mp step
  rw [only] at here
  cases i with
  | zero => rfl
  | succ i => cases here

/-- The runtime that a first start stores is its own. -/
theorem checks_early {now : Nat} (point : StartPoint) {returned : Option Reply}
    {loop : LoopState} :
    ¬ ChecksInTime ⟨(stored point).1, (stored point).2, false, now, [loop], some (0, point),
      returned⟩ (.loop 0 .check) := by
  rintro (running | taken)
  · cases running
  · obtain ⟨m, runtime, other⟩ := taken point rfl
    cases point with
    | setsRuntime => cases runtime
    | setsSender => exact other (Option.some.inj runtime).symm
    | setsRunning => exact other (Option.some.inj runtime).symm

theorem alive_loop {i : Nat} {event : LoopEvent} (alive : Alive w)
    (step : Builds w (.loop i event) w') :
    ChecksInTime w (.loop i event) ∧ Alive w' ∨ ¬ ChecksInTime w (.loop i event) ∧ Lost w' := by
  obtain ⟨step, builds⟩ := step
  cases alive with
  | fresh quiet =>
    obtain ⟨_, _, here, _⟩ := loop_iff.mp step
    cases here
  | @starting now point returned loop quiet early =>
    obtain ⟨next, moves, rfl⟩ := only_loop rfl step
    rcases early_moves early moves with ⟨rfl, rfl⟩ | ⟨rfl, _⟩ | ⟨rfl, rfl⟩
    · exact .inl ⟨trivial, .starting point quiet (.inr rfl)⟩
    · exact absurd rfl (builds i)
    · obtain rfl := only_index rfl step
      exact .inr ⟨checks_early point, .dead point⟩
  | @up now loop lives =>
    obtain ⟨next, moves, rfl⟩ := only_loop rfl step
    refine .inl ⟨?_, .up ?_⟩
    · cases event with
      | check => exact .inl rfl
      | _ => trivial
    · rintro rfl
      rcases exits_iff.mp moves with ⟨_, rfl⟩ | ⟨_, _, stopped⟩ | ⟨_, _, closed⟩
      · exact absurd rfl (builds i)
      · cases stopped
      · cases closed
  | @down now loops returned quiet spawned =>
    obtain ⟨loop, next, _, _, rfl⟩ := loop_iff.mp step
    refine .inl ⟨?_, .down quiet (mt (List.set_eq_nil_iff _ _).mp spawned)⟩
    cases event with
    | check => exact .inr nofun
    | _ => trivial
  | @restarting now n loops returned quiet spawned later =>
    obtain ⟨loop, next, _, _, rfl⟩ := loop_iff.mp step
    refine .inl ⟨?_, .restarting quiet (mt (List.set_eq_nil_iff _ _).mp spawned) later⟩
    cases event with
    | check =>
      right
      rintro point calls
      obtain ⟨rfl, _⟩ := Prod.mk.inj (Option.some.inj calls)
      exact ⟨0, rfl, Ne.symm later⟩
    | _ => trivial

theorem alive_step (w : World) (e : Event) (w' : World) (alive : Alive w) (step : Builds w e w') :
    ChecksInTime w e ∧ Alive w' ∨ ¬ ChecksInTime w e ∧ Lost w' := by
  cases e with
  | start now => exact .inl ⟨trivial, alive_start alive step.1⟩
  | stop => exact .inl ⟨trivial, alive_stop alive step.1⟩
  | proceed => exact .inl ⟨trivial, alive_proceed alive step.1⟩
  | loop i event => exact alive_loop alive step

theorem lost_step {now : Nat} {point : StartPoint} {returned : Option Reply}
    (step : Step ⟨(stored point).1, (stored point).2, false, now, [.exited], some (0, point),
      returned⟩ e w') : Lost w' := by
  obtain ⟨next, rfl⟩ | rfl := exited_first step
  · exact .dead next
  · exact .returned

/-- When the start has returned, the loop is not there. -/
theorem lost_run (w : World) (events : List Event) (u : World) (lost : Lost w)
    (run : Run Builds w events u) (idle : u.call = none) : ¬ Always Builds KeptAlive w events := by
  induction run with
  | nil w =>
    intro all
    cases lost with
    | dead point => cases idle
    | @returned now =>
      have live := (all [] _ List.nil_prefix (.nil _)).2 rfl
      exact (live_iff rfl rfl).mp live rfl
  | cons step _ ih =>
    intro all
    obtain ⟨here, later⟩ := (always_cons_iff builds_deterministic step).mp all
    cases lost with
    | dead point => exact ih (lost_step step.1) idle later
    | returned => exact (live_iff rfl rfl).mp (here.2 rfl) rfl

/-- If the HTTP clients are built, the loop of a start that has returned lives until the relay
is stopped as long as each loop looks at the flag in time; and it does so only then, in a run
that ends between the calls. -/
theorem stays_alive_iff (events : List Event) (w : World) (run : Run Builds .new events w) :
    (Run (Guarded Builds ChecksInTime) .new events w → Always Builds KeptAlive .new events) ∧
      (w.call = none → Always Builds KeptAlive .new events →
        Run (Guarded Builds ChecksInTime) .new events w) := by
  constructor
  · intro guarded
    refine guarded.always (I := Alive) builds_deterministic ?_ (fun w alive => alive.keptAlive)
      (.fresh nofun)
    intro w e w' alive step inTime
    rcases alive_step w e w' alive step with ⟨_, kept⟩ | ⟨early, _⟩
    · exact kept
    · exact absurd inTime early
  · intro idle
    exact (always_iff_guarded_of_dooms builds_deterministic (fun w alive => alive.keptAlive)
      alive_step lost_run run idle (.fresh nofun)).mp

theorem startedTwice_alive : Always Builds KeptAlive .new startedTwice := by
  have guarded : ∃ w, Run (Guarded Builds ChecksInTime) .new startedTwice w :=
    ⟨_, .cons ⟨⟨rfl, nofun⟩, trivial⟩ (.cons ⟨⟨rfl, nofun⟩, trivial⟩
      (.cons ⟨⟨rfl, nofun⟩, trivial⟩ (.cons ⟨⟨rfl, nofun⟩, trivial⟩
        (.cons ⟨⟨rfl, nofun⟩, trivial⟩ (.cons ⟨⟨rfl, nofun⟩, .inl rfl⟩
          (.cons ⟨⟨rfl, nofun⟩, trivial⟩ (.cons ⟨⟨rfl, nofun⟩, trivial⟩
            (.cons ⟨⟨rfl, nofun⟩, trivial⟩ (.cons ⟨⟨rfl, nofun⟩, .inr nofun⟩
              (.nil _))))))))))⟩
  obtain ⟨w, guarded⟩ := guarded
  exact (stays_alive_iff _ w guarded.unguarded).1 guarded

/-- The loop is faster than the start that spawned it. -/
theorem early_check_exits :
    ¬ ∀ (events : List Event) (w : World), Run Builds .new events w →
      Always Builds KeptAlive .new events := by
  intro alive
  have run : ∃ w, Run Builds .new [.start 1700000000, .loop 0 (.build true), .loop 0 .check,
      .proceed, .proceed, .proceed] w ∧ w.relayRunning = true ∧ w.relayTx = some 0 ∧
      w.loops = [.exited] :=
    ⟨_, .cons ⟨rfl, nofun⟩ (.cons ⟨rfl, nofun⟩ (.cons ⟨rfl, nofun⟩ (.cons ⟨rfl, nofun⟩
      (.cons ⟨rfl, nofun⟩ (.cons ⟨rfl, nofun⟩ (.nil _)))))), rfl, rfl, rfl⟩
  obtain ⟨w, run, running, sender, only⟩ := run
  have live := (alive _ w run _ w (List.prefix_refl _) run).2 running
  exact (live_iff sender only).mp live rfl

end RelayClient

end Solnet.Native
