import Solnet.Lib.Runs

/-! The mobile relay client. The runtime and the sender are written once, and a start spawns
its loop before it sets the flag that the loop checks. -/
namespace Solnet.Native
open Runs

def setOnce {α : Type} (cell : Option α) (value : α) : Except α (Option α) :=
  match cell with
  | none => .ok (some value)
  | some _ => .error value

inductive LoopState where
  | building
  | checking
  | receiving
  | exited
  deriving DecidableEq, Repr

inductive LoopEvent where
  | build (built : Bool)
  | check
  | receive
  | close
  deriving DecidableEq, Repr

/-- `relay_loop`, as far as it lives. A request and the timeout both end in the next check. -/
def relayLoop (relayRunning senderLives : Bool) : LoopState → LoopEvent → Option LoopState
  | .building, .build built => some (if built then .checking else .exited)
  | .checking, .check => some (if relayRunning then .receiving else .exited)
  | .receiving, .receive => some .checking
  | .receiving, .close => if senderLives then none else some .exited
  | _, _ => none

inductive StartPoint where
  | setsRuntime
  | setsSender
  | setsRunning
  deriving DecidableEq, Repr

inductive Reply where
  | start (result : Except String Unit)
  | stop (result : Bool)

namespace RelayClient

/-- The statics, the loops spawned so far, the start in progress and the last reply. A runtime,
its channel and its loop have one number. -/
structure World where
  relayRt : Option Nat
  relayTx : Option Nat
  relayRunning : Bool
  uptimeStartSecs : Nat
  loops : List LoopState
  call : Option (Nat × StartPoint)
  returned : Option Reply

namespace World

def new : World := ⟨none, none, false, 0, [], none, none⟩

def senderLives (w : World) (i : Nat) : Bool :=
  w.relayTx = some i || w.call.map Prod.fst = some i

/-- The request loop that the stored sender feeds has not exited. -/
def Live (w : World) : Prop :=
  ∃ i loop, w.relayTx = some i ∧ w.loops[i]? = some loop ∧ loop ≠ .exited

/-- The building of the runtime succeeds: the start that fails with `Runtime build failed`, and
changes nothing, is left out. -/
def start (w : World) (now : Nat) : World :=
  if w.relayRunning then { w with returned := some (.start (.ok ())) }
  else { w with
    uptimeStartSecs := now
    loops := w.loops ++ [.building]
    call := some (w.loops.length, .setsRuntime) }

def stop (w : World) : World :=
  if !w.relayRunning then { w with returned := some (.stop true) }
  else { w with relayRunning := false, returned := some (.stop true) }

def proceed (w : World) (n : Nat) : StartPoint → World
  | .setsRuntime =>
    match setOnce w.relayRt n with
    | .ok relayRt => { w with relayRt := relayRt, call := some (n, .setsSender) }
    -- The runtime that was not stored is dropped, and its loop with it.
    | .error _ => { w with
        loops := w.loops.set n .exited
        call := none
        returned := some (.start (.error "Runtime already set")) }
  | .setsSender =>
    match setOnce w.relayTx n with
    | .ok relayTx => { w with relayTx := relayTx, call := some (n, .setsRunning) }
    | .error _ => { w with
        call := none
        returned := some (.start (.error "TX already set")) }
  | .setsRunning => { w with
      relayRunning := true
      call := none
      returned := some (.start (.ok ())) }

end World

/-- Calls follow each other; the loops run beside them. -/
inductive Event where
  | start (now : Nat)
  | stop
  | proceed
  | loop (i : Nat) (event : LoopEvent)
  deriving DecidableEq, Repr

def advance (w : World) : Event → Option World
  | .start now => if w.call = none then some (w.start now) else none
  | .stop => if w.call = none then some w.stop else none
  | .proceed => w.call.map fun (n, point) => w.proceed n point
  | .loop i event =>
    match w.loops[i]? with
    | some loop =>
      (relayLoop w.relayRunning (w.senderLives i) loop event).map fun next =>
        { w with loops := w.loops.set i next }
    | none => none

def Step (w : World) (e : Event) (w' : World) : Prop := advance w e = some w'

theorem step_deterministic : Deterministic Step :=
  deterministic_of_option advance

theorem loop_iff {w w' : World} {i : Nat} {event : LoopEvent} :
    Step w (.loop i event) w' ↔ ∃ loop next, w.loops[i]? = some loop ∧
      relayLoop w.relayRunning (w.senderLives i) loop event = some next ∧
      { w with loops := w.loops.set i next } = w' := by
  simp only [Step, advance]
  cases found : w.loops[i]? with
  | none => simp
  | some loop => simp [Option.map_eq_some_iff]

/-- What the callers are promised once a call has returned. -/
def AsAsked (w : World) : Prop :=
  w.call = none →
    match w.returned with
    | none => ¬ (w.relayRunning = true ∧ w.Live)
    | some (.start result) => result = .ok () ∧ w.relayRunning = true ∧ w.Live
    | some (.stop result) => result = true ∧ ¬ (w.relayRunning = true ∧ w.Live)

/-- A start finds the relay running, or no runtime stored. A loop checks the flag when no start
is in progress, and fails to build its client only while the relay is stopped. -/
def Sound (w : World) : Event → Prop
  | .start _ => w.relayRunning = true ∨ w.relayRt = none
  | .loop _ (.build built) => built = true ∨ w.call = none ∧ w.relayRunning = false
  | .loop _ .check => w.relayRunning = true ∨ w.call = none
  | _ => True

/-- The runtime stored when a first start has got to a point, and the sender. -/
def stored : StartPoint → Option Nat × Option Nat
  | .setsRuntime => (none, none)
  | .setsSender => (some 0, none)
  | .setsRunning => (some 0, some 0)

/-- The states of a relay that has been started once at most. -/
inductive Stage : World → Prop where
  | fresh {now : Nat} {returned : Option Reply}
      (quiet : ∀ reply, returned = some reply → reply = .stop true) :
      Stage ⟨none, none, false, now, [], none, returned⟩
  | starting {now : Nat} (point : StartPoint) {returned : Option Reply} {loop : LoopState}
      (early : loop = .building ∨ loop = .checking) :
      Stage ⟨(stored point).1, (stored point).2, false, now, [loop], some (0, point), returned⟩
  | up {now : Nat} {loop : LoopState} (lives : loop ≠ .exited) :
      Stage ⟨some 0, some 0, true, now, [loop], none, some (.start (.ok ()))⟩
  | down {now : Nat} {loop : LoopState} :
      Stage ⟨some 0, some 0, false, now, [loop], none, some (.stop true)⟩

/-- The states in which a reply to come, or the last one, is wrong. -/
inductive Doomed : World → Prop where
  | taken {w : World} {n m : Nat} (calls : w.call = some (n, .setsRuntime))
      (stored : w.relayRt = some m) : Doomed w
  | dead {now : Nat} (point : StartPoint) {returned : Option Reply} :
      Doomed ⟨(stored point).1, (stored point).2, false, now, [.exited], some (0, point), returned⟩
  | broken {w : World} (idle : w.call = none) (wrong : ¬ AsAsked w) : Doomed w

theorem exits_iff {relayRunning senderLives : Bool} {loop : LoopState} {event : LoopEvent} :
    relayLoop relayRunning senderLives loop event = some .exited ↔
      loop = .building ∧ event = .build false ∨
      loop = .checking ∧ event = .check ∧ relayRunning = false ∨
      loop = .receiving ∧ event = .close ∧ senderLives = false := by
  cases loop <;> cases event <;> simp [relayLoop]

theorem relayLoop_exited (relayRunning senderLives : Bool) (event : LoopEvent) :
    relayLoop relayRunning senderLives .exited event = none := by
  cases event <;> rfl

variable {w w' : World} {e : Event}

theorem only_loop {i : Nat} {loop : LoopState} {event : LoopEvent} (only : w.loops = [loop])
    (step : Step w (.loop i event) w') :
    ∃ next, relayLoop w.relayRunning (w.senderLives 0) loop event = some next ∧
      { w with loops := [next] } = w' := by
  obtain ⟨found, next, here, moves, rfl⟩ := loop_iff.mp step
  rw [only, List.getElem?_singleton] at here
  split at here
  · rename_i first
    obtain rfl := Option.some.inj here
    subst first
    exact ⟨next, moves, by rw [only]; rfl⟩
  · cases here

theorem live_iff {loop : LoopState} (sender : w.relayTx = some 0) (only : w.loops = [loop]) :
    w.Live ↔ loop ≠ .exited := by
  constructor
  · rintro ⟨i, found, feeds, here, lives⟩
    obtain rfl : 0 = i := Option.some.inj (sender.symm.trans feeds)
    rw [only] at here
    exact Option.some.inj here ▸ lives
  · intro lives
    exact ⟨0, loop, sender, by rw [only]; rfl, lives⟩

/-- A first start stores its runtime and its sender, then it sets the flag and returns. -/
theorem proceed_first {now : Nat} {point : StartPoint} {returned : Option Reply} {loop : LoopState}
    (step : Step ⟨(stored point).1, (stored point).2, false, now, [loop], some (0, point),
      returned⟩ .proceed w') :
    (∃ next, w' = ⟨(stored next).1, (stored next).2, false, now, [loop], some (0, next),
      returned⟩) ∨ w' = ⟨some 0, some 0, true, now, [loop], none, some (.start (.ok ()))⟩ := by
  cases point with
  | setsRuntime =>
    obtain rfl := Option.some.inj step
    exact .inl ⟨.setsSender, rfl⟩
  | setsSender =>
    obtain rfl := Option.some.inj step
    exact .inl ⟨.setsRunning, rfl⟩
  | setsRunning =>
    obtain rfl := Option.some.inj step
    exact .inr rfl

/-- Nothing but the start goes on when its loop has exited. -/
theorem exited_first {now : Nat} {point : StartPoint} {returned : Option Reply}
    (step : Step ⟨(stored point).1, (stored point).2, false, now, [.exited], some (0, point),
      returned⟩ e w') :
    (∃ next, w' = ⟨(stored next).1, (stored next).2, false, now, [.exited], some (0, next),
      returned⟩) ∨ w' = ⟨some 0, some 0, true, now, [.exited], none, some (.start (.ok ()))⟩ := by
  cases e with
  | start now => cases step
  | stop => cases step
  | proceed => exact proceed_first step
  | loop i event =>
    obtain ⟨next, moves, _⟩ := only_loop rfl step
    rw [relayLoop_exited] at moves
    cases moves

/-- What a loop does as long as the flag is not set. -/
theorem early_moves {senderLives : Bool} {loop next : LoopState} {event : LoopEvent}
    (early : loop = .building ∨ loop = .checking)
    (moves : relayLoop false senderLives loop event = some next) :
    event = .build true ∧ next = .checking ∨ event = .build false ∧ next = .exited ∨
      event = .check ∧ next = .exited := by
  rcases early with rfl | rfl
  · cases event with
    | build built =>
      obtain rfl := Option.some.inj moves
      cases built with
      | true => exact .inl ⟨rfl, rfl⟩
      | false => exact .inr (.inl ⟨rfl, rfl⟩)
    | check => cases moves
    | receive => cases moves
    | close => cases moves
  · cases event with
    | build built => cases moves
    | check =>
      obtain rfl := Option.some.inj moves
      exact .inr (.inr ⟨rfl, rfl⟩)
    | receive => cases moves
    | close => cases moves

theorem Stage.asAsked (stage : Stage w) : AsAsked w := by
  intro idle
  cases stage with
  | @fresh now returned quiet =>
    cases returned with
    | none => simp
    | some reply =>
      obtain rfl := quiet reply rfl
      simp
  | starting _ early => cases idle
  | up lives => exact ⟨rfl, rfl, (live_iff rfl rfl).mpr lives⟩
  | down => simp

theorem stage_start {now : Nat} (stage : Stage w) (step : Step w (.start now) w') :
    Sound w (.start now) ∧ Stage w' ∨ ¬ Sound w (.start now) ∧ Doomed w' := by
  cases stage with
  | fresh quiet =>
    obtain rfl := Option.some.inj step
    exact .inl ⟨.inr rfl, .starting .setsRuntime (.inl rfl)⟩
  | starting _ early => cases step
  | up lives =>
    obtain rfl := Option.some.inj step
    exact .inl ⟨.inl rfl, .up lives⟩
  | down =>
    obtain rfl := Option.some.inj step
    exact .inr ⟨by simp [Sound], .taken rfl rfl⟩

theorem stage_stop (stage : Stage w) (step : Step w .stop w') : Stage w' := by
  cases stage with
  | fresh quiet =>
    obtain rfl := Option.some.inj step
    exact .fresh fun reply same => (Option.some.inj same).symm
  | starting _ early => cases step
  | up lives =>
    obtain rfl := Option.some.inj step
    exact .down
  | down =>
    obtain rfl := Option.some.inj step
    exact .down

theorem stage_proceed (stage : Stage w) (step : Step w .proceed w') : Stage w' := by
  cases stage with
  | fresh quiet => cases step
  | starting point early =>
    obtain ⟨next, rfl⟩ | rfl := proceed_first step
    · exact .starting next early
    · apply Stage.up
      rintro rfl
      simp at early
  | up lives => cases step
  | down => cases step

theorem stage_loop {i : Nat} {event : LoopEvent} (stage : Stage w)
    (step : Step w (.loop i event) w') :
    Sound w (.loop i event) ∧ Stage w' ∨ ¬ Sound w (.loop i event) ∧ Doomed w' := by
  cases stage with
  | fresh quiet =>
    obtain ⟨_, _, here, _⟩ := loop_iff.mp step
    cases here
  | starting point early =>
    obtain ⟨next, moves, rfl⟩ := only_loop rfl step
    rcases early_moves early moves with ⟨rfl, rfl⟩ | ⟨rfl, rfl⟩ | ⟨rfl, rfl⟩
    · exact .inl ⟨.inl rfl, .starting point (.inr rfl)⟩
    · exact .inr ⟨by simp [Sound], .dead point⟩
    · exact .inr ⟨by simp [Sound], .dead point⟩
  | @up now loop lives =>
    obtain ⟨next, moves, rfl⟩ := only_loop rfl step
    by_cases exits : next = .exited
    · subst exits
      rcases exits_iff.mp moves with ⟨rfl, rfl⟩ | ⟨_, _, stopped⟩ | ⟨_, _, closed⟩
      · refine .inr ⟨by simp [Sound], .broken rfl fun asked => ?_⟩
        exact (live_iff rfl rfl).mp (asked rfl).2.2 rfl
      · cases stopped
      · cases closed
    · refine .inl ⟨?_, .up exits⟩
      cases event with
      | build built =>
        cases built with
        | false =>
          cases loop with
          | building => exact absurd (Option.some.inj moves).symm exits
          | checking => cases moves
          | receiving => cases moves
          | exited => cases moves
        | true => exact .inl rfl
      | check => exact .inl rfl
      | receive => trivial
      | close => trivial
  | down =>
    obtain ⟨next, _, rfl⟩ := only_loop rfl step
    refine .inl ⟨?_, .down⟩
    cases event with
    | build built => exact .inr ⟨rfl, rfl⟩
    | check => exact .inr rfl
    | receive => trivial
    | close => trivial

theorem stage_step (w : World) (e : Event) (w' : World) (stage : Stage w) (step : Step w e w') :
    Sound w e ∧ Stage w' ∨ ¬ Sound w e ∧ Doomed w' := by
  cases e with
  | start now => exact stage_start stage step
  | stop => exact .inl ⟨trivial, stage_stop stage step⟩
  | proceed => exact .inl ⟨trivial, stage_proceed stage step⟩
  | loop i event => exact stage_loop stage step

theorem taken_step {n m : Nat} (calls : w.call = some (n, .setsRuntime))
    (stored : w.relayRt = some m) (step : Step w e w') : Doomed w' := by
  cases e with
  | start now =>
    rw [Step, advance, if_neg (by rw [calls]; exact nofun)] at step
    cases step
  | stop =>
    rw [Step, advance, if_neg (by rw [calls]; exact nofun)] at step
    cases step
  | proceed =>
    rw [Step, advance, calls] at step
    obtain rfl := Option.some.inj step
    simp only [World.proceed, stored, setOnce]
    exact .broken rfl fun asked => nomatch (asked rfl).1
  | loop i event =>
    obtain ⟨_, _, _, _, rfl⟩ := loop_iff.mp step
    exact .taken calls stored

theorem dead_step {now : Nat} {point : StartPoint} {returned : Option Reply}
    (step : Step ⟨(stored point).1, (stored point).2, false, now, [.exited], some (0, point),
      returned⟩ e w') : Doomed w' := by
  obtain ⟨next, rfl⟩ | rfl := exited_first step
  · exact .dead next
  · apply Doomed.broken rfl
    intro asked
    exact (live_iff rfl rfl).mp (asked rfl).2.2 rfl

/-- A run that goes on until no start is in progress comes to a wrong reply. -/
theorem doomed_run (w : World) (events : List Event) (u : World) (doomed : Doomed w)
    (run : Run Step w events u) (idle : u.call = none) : ¬ Always Step AsAsked w events := by
  induction run with
  | nil w =>
    intro all
    cases doomed with
    | taken calls _ => exact absurd (calls.symm.trans idle) nofun
    | dead _ => cases idle
    | broken _ wrong => exact wrong (all [] w List.nil_prefix (.nil w))
  | cons step _ ih =>
    intro all
    obtain ⟨here, later⟩ := (always_cons_iff step_deterministic step).mp all
    cases doomed with
    | taken calls stored => exact ih (taken_step calls stored step) idle later
    | dead _ => exact ih (dead_step step) idle later
    | broken _ wrong => exact wrong here

/-- Each call of a run returns what was asked for exactly when no start finds the runtime stored
and the relay stopped, no loop checks the flag before its start has set it, and none that is to
run fails to build its client. -/
theorem restarts_iff (events : List Event) (w : World) (run : Run Step .new events w)
    (idle : w.call = none) :
    Always Step AsAsked .new events ↔ Run (Guarded Step Sound) .new events w :=
  always_iff_guarded_of_dooms step_deterministic (fun _ stage => stage.asAsked) stage_step
    doomed_run run idle (.fresh nofun)

def startedTwice : List Event :=
  [.start 1700000000, .proceed, .proceed, .proceed, .loop 0 (.build true), .loop 0 .check,
    .start 1700000001, .loop 0 .receive, .stop, .loop 0 .check]

theorem startedTwice_asAsked : Always Step AsAsked .new startedTwice := by
  have guarded : ∃ w, Run (Guarded Step Sound) .new startedTwice w ∧ w.call = none :=
    ⟨_, .cons ⟨rfl, .inr rfl⟩ (.cons ⟨rfl, trivial⟩ (.cons ⟨rfl, trivial⟩ (.cons ⟨rfl, trivial⟩
      (.cons ⟨rfl, .inl rfl⟩ (.cons ⟨rfl, .inl rfl⟩ (.cons ⟨rfl, .inl rfl⟩ (.cons ⟨rfl, trivial⟩
        (.cons ⟨rfl, trivial⟩ (.cons ⟨rfl, .inr rfl⟩ (.nil _)))))))))), rfl⟩
  obtain ⟨w, guarded, idle⟩ := guarded
  exact (restarts_iff _ w guarded.unguarded idle).mpr guarded

theorem restart_fails :
    ¬ ∀ (events : List Event) (w : World), Run Step .new events w → w.call = none →
      Always Step AsAsked .new events := by
  intro asked
  have run : ∃ w, Run Step .new [.start 1700000000, .proceed, .proceed, .proceed,
      .loop 0 (.build true), .loop 0 .check, .stop, .start 1700000060, .proceed] w ∧
      w.call = none ∧ w.returned = some (.start (.error "Runtime already set")) :=
    ⟨_, .cons rfl (.cons rfl (.cons rfl (.cons rfl (.cons rfl (.cons rfl (.cons rfl (.cons rfl
      (.cons rfl (.nil _))))))))), rfl, rfl⟩
  obtain ⟨w, run, idle, returned⟩ := run
  have promised := asked _ w run idle _ w (List.prefix_refl _) run idle
  rw [returned] at promised
  cases promised.1

end RelayClient

end Solnet.Native
