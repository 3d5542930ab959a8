import Solnet.Native.Ffi

/-! The throttle state set from several threads. A call stores it in three places, one after
the other, and other calls may come in between. -/
namespace Solnet.Native
open Runs Bytes Solnet.Daemon

def ThrottleState.asU8 : ThrottleState → Nat
  | .fullPower => 0
  | .conserve => 1
  | .standby => 2

theorem ThrottleState.asU8_fromU8 {n : Nat} (valid : n ≤ 2) :
    (ThrottleState.fromU8 n).asU8 = n := by
  match n with
  | 0 => rfl
  | 1 => rfl
  | 2 => rfl
  | n + 3 => omega

def MobileGovernor.getState (governor : MobileGovernor) : ThrottleState := governor.state

namespace Process

def getThrottleState (p : Process) : Nat := p.governorState

/-- The governor, which whoever comes first creates. -/
def governorRef (p : Process) : MobileGovernor := p.governor.getD .new

/-- What the stats say. -/
def currentState (p : Process) : Nat := p.globalGovernorState

/-- The three copies hold the same value. -/
def CopiesAgree (p : Process) : Prop :=
  p.governorRef.getState.asU8 = p.getThrottleState ∧ p.currentState = p.getThrottleState

end Process

/-- The clamped states of the calls in progress, by the number of copies they have stored, and
in the order in which they have stored the last one. -/
structure Setters where
  process : Process
  entered : List Nat
  stored : List Nat
  swapped : List Nat

inductive SetterEvent where
  | call (state : UInt8) (token : Token)
  | store (k : Nat)
  | swap (k : Nat)
  | update (k : Nat)

namespace Setters

def new (governorToken : Option (Block 32)) : Setters :=
  ⟨{ Process.new with governorToken := governorToken }, [], [], []⟩

def advance (w : Setters) : SetterEvent → Option Setters
  | .call state token =>
    if !checkAuth w.process.governorToken token then some w
    else some { w with entered := w.entered ++ [min state.toNat 2] }
  | .store k => w.entered[k]?.map fun clamped => { w with
      process := { w.process with governorState := clamped }
      entered := w.entered.eraseIdx k
      stored := w.stored ++ [clamped] }
  | .swap k => w.stored[k]?.map fun clamped => { w with
      process := { w.process with
        governor := some (w.process.governorRef.setState (.fromU8 clamped)) }
      stored := w.stored.eraseIdx k
      swapped := w.swapped ++ [clamped] }
  | .update k => w.swapped[k]?.map fun clamped => { w with
      process := { w.process with globalGovernorState := clamped }
      swapped := w.swapped.eraseIdx k }

def Step (w : Setters) (e : SetterEvent) (w' : Setters) : Prop := w.advance e = some w'

def Idle (w : Setters) : Prop := w.entered = [] ∧ w.stored = [] ∧ w.swapped = []

def AgreeAtRest (w : Setters) : Prop := w.Idle → w.process.CopiesAgree

/-- No call stores a copy before a call that has stored the one before earlier, unless they set
the same state. -/
def InOrder (w : Setters) : SetterEvent → Prop
  | .swap k => ∀ earlier ∈ w.stored.take k, w.stored[k]? = some earlier
  | .update k => ∀ earlier ∈ w.swapped.take k, w.swapped[k]? = some earlier
  | _ => True

theorem step_deterministic : Deterministic Step :=
  deterministic_of_option advance

structure Clamped (w : Setters) : Prop where
  entered : ∀ n ∈ w.entered, n ≤ 2
  stored : ∀ n ∈ w.stored, n ≤ 2
  swapped : ∀ n ∈ w.swapped, n ≤ 2

/-- Each copy holds the state of the latest of the calls that have stored it and not yet the
next copy, or else what the next copy holds. -/
structure Chained (w : Setters) : Prop where
  clamped : w.Clamped
  first : w.process.getThrottleState =
    w.stored.getLast?.getD w.process.governorRef.getState.asU8
  second : w.process.governorRef.getState.asU8 =
    w.swapped.getLast?.getD w.process.currentState

/-- A call that leaves the list in order leaves what the list ends with as it is, or else its own
state is what counts next. -/
theorem getLast_eraseIdx {pending : List Nat} {k n before : Nat} (found : pending[k]? = some n)
    (inOrder : ∀ earlier ∈ pending.take k, pending[k]? = some earlier) :
    pending.getLast?.getD before = (pending.eraseIdx k).getLast?.getD n := by
  obtain ⟨inside, here⟩ := List.getElem?_eq_some_iff.mp found
  rw [List.eraseIdx_eq_take_drop_succ, List.getLast?_append, List.getLast?_drop]
  by_cases last : pending.length ≤ k + 1
  · have length : pending.length - 1 = k := by omega
    rw [if_pos last, Option.none_or, List.getLast?_eq_getElem?, length, found]
    cases front : (pending.take k).getLast? with
    | none => rfl
    | some earlier =>
      have same := inOrder earlier (List.mem_of_getLast? front)
      exact Option.some.inj (found.symm.trans same)
  · rw [if_neg last]
    cases ends : pending.getLast? with
    | none =>
      rw [List.getLast?_eq_none_iff.mp ends] at inside
      cases inside
    | some latest => rfl

variable {w w' : Setters} {e : SetterEvent} {governorToken : Option (Block 32)}

theorem clamped_step (clamped : w.Clamped) (step : w.Step e w') : w'.Clamped := by
  obtain ⟨entered, stored, swapped⟩ := clamped
  cases e with
  | call state token =>
    simp only [Step, advance] at step
    split at step
    · obtain rfl := Option.some.inj step
      exact ⟨entered, stored, swapped⟩
    · obtain rfl := Option.some.inj step
      refine ⟨?_, stored, swapped⟩
      intro n member
      rcases List.mem_append.mp member with old | new
      · exact entered n old
      · rw [List.mem_singleton.mp new]
        exact Nat.min_le_right _ _
  | store k =>
    obtain ⟨n, found, rfl⟩ := Option.map_eq_some_iff.mp step
    refine ⟨fun m member => entered m (List.mem_of_mem_eraseIdx member), ?_, swapped⟩
    intro m member
    rcases List.mem_append.mp member with old | new
    · exact stored m old
    · rw [List.mem_singleton.mp new]
      exact entered n (List.mem_of_getElem? found)
  | swap k =>
    obtain ⟨n, found, rfl⟩ := Option.map_eq_some_iff.mp step
    refine ⟨entered, fun m member => stored m (List.mem_of_mem_eraseIdx member), ?_⟩
    intro m member
    rcases List.mem_append.mp member with old | new
    · exact swapped m old
    · rw [List.mem_singleton.mp new]
      exact stored n (List.mem_of_getElem? found)
  | update k =>
    obtain ⟨n, found, rfl⟩ := Option.map_eq_some_iff.mp step
    exact ⟨entered, stored, fun m member => swapped m (List.mem_of_mem_eraseIdx member)⟩

theorem chained_step (chained : w.Chained) (step : w.Step e w') (inOrder : w.InOrder e) :
    w'.Chained := by
  have clamped' := clamped_step chained.clamped step
  obtain ⟨⟨_, stored, _⟩, first, second⟩ := chained
  cases e with
  | call state token =>
    simp only [Step, advance] at step
    split at step
    · obtain rfl := Option.some.inj step
      exact ⟨clamped', first, second⟩
    · obtain rfl := Option.some.inj step
      exact ⟨clamped', first, second⟩
  | store k =>
    obtain ⟨n, found, rfl⟩ := Option.map_eq_some_iff.mp step
    refine ⟨clamped', ?_, second⟩
    rw [List.getLast?_concat]
    rfl
  | swap k =>
    obtain ⟨n, found, rfl⟩ := Option.map_eq_some_iff.mp step
    have sets : (ThrottleState.fromU8 n).asU8 = n :=
      ThrottleState.asU8_fromU8 (stored n (List.mem_of_getElem? found))
    refine ⟨clamped', ?_, ?_⟩
    · have kept := first.trans (getLast_eraseIdx found inOrder)
      exact kept.trans (congrArg ((w.stored.eraseIdx k).getLast?.getD ·) sets.symm)
    · rw [List.getLast?_concat]
      exact sets
  | update k =>
    obtain ⟨n, found, rfl⟩ := Option.map_eq_some_iff.mp step
    exact ⟨clamped', first, second.trans (getLast_eraseIdx found inOrder)⟩

theorem Chained.agreeAtRest (chained : w.Chained) : w.AgreeAtRest := by
  rintro ⟨_, stored, swapped⟩
  obtain ⟨_, first, second⟩ := chained
  rw [stored] at first
  rw [swapped] at second
  exact ⟨first.symm, second.symm.trans first.symm⟩

theorem chained_new (governorToken : Option (Block 32)) : (new governorToken).Chained :=
  ⟨⟨nofun, nofun, nofun⟩, rfl, rfl⟩

/-- The copies agree at rest in every run whose calls store them in order. -/
theorem copies_agree_of_inOrder {events : List SetterEvent}
    (run : Run (Guarded Step InOrder) (new governorToken) events w) :
    Always Step AgreeAtRest (new governorToken) events :=
  run.always (I := Chained) step_deterministic
    (fun _ _ _ chained step inOrder => chained_step chained step inOrder)
    (fun _ chained => chained.agreeAtRest) (chained_new governorToken)

theorem step_call {state : UInt8} {token : Token}
    (authorised : checkAuth w.process.governorToken token = true) :
    w.Step (.call state token) { w with entered := w.entered ++ [min state.toNat 2] } := by
  simp [Step, advance, authorised]

theorem session_authorised : checkAuth session.arr session = true :=
  checkAuth_iff.mpr ⟨_, rfl, rfl⟩

/-- A call alone does what the call does in one piece. -/
theorem alone_eq_setThrottleState {p : Process} {state : UInt8} {token : Token}
    (authorised : checkAuth p.governorToken token = true) :
    Run Step ⟨p, [], [], []⟩ [.call state token, .store 0, .swap 0, .update 0]
      ⟨(p.setThrottleState state token).1, [], [], []⟩ := by
  have called : (Setters.mk p [] [] []).Step (.call state token)
      ⟨p, [min state.toNat 2], [], []⟩ := step_call authorised
  have whole : (p.setThrottleState state token).1 = { p with
      governorState := min state.toNat 2
      governor := some (p.governorRef.setState (.fromU8 (min state.toNat 2)))
      globalGovernorState := min state.toNat 2 } := by
    simp [Process.setThrottleState, authorised, Process.governorRef]
  rw [whole]
  exact .cons called (.cons rfl (.cons rfl (.cons rfl (.nil _))))

/-- Two calls, one of which begins while the other is in progress. -/
def twoSetters : List SetterEvent :=
  [.call 0 session, .store 0, .call 1 session, .swap 0, .store 0, .update 0, .swap 0, .update 0]

theorem twoSetters_agree : Always Step AgreeAtRest (new session.arr) twoSetters := by
  have run : ∃ w, Run (Guarded Step InOrder) (new session.arr) twoSetters w :=
    ⟨_, .cons ⟨step_call session_authorised, trivial⟩ (.cons ⟨rfl, trivial⟩
      (.cons ⟨step_call session_authorised, trivial⟩ (.cons ⟨rfl, nofun⟩ (.cons ⟨rfl, trivial⟩
        (.cons ⟨rfl, nofun⟩ (.cons ⟨rfl, nofun⟩ (.cons ⟨rfl, nofun⟩ (.nil _))))))))⟩
  obtain ⟨w, run⟩ := run
  exact copies_agree_of_inOrder run

/-- The second call overtakes the first one after their first stores. -/
theorem overtaken_copies_differ :
    ¬ ∀ (governorToken : Option (Block 32)) (events : List SetterEvent) (w : Setters),
      Run Step (new governorToken) events w →
      Always Step AgreeAtRest (new governorToken) events := by
  intro agree
  have run : ∃ w, Run Step (new session.arr) [.call 0 session, .call 1 session, .store 0,
      .store 0, .swap 1, .update 0, .swap 0, .update 0] w ∧ w.Idle ∧
      w.process.getThrottleState = 1 ∧ w.process.currentState = 0 :=
    ⟨_, .cons (step_call session_authorised) (.cons (step_call session_authorised)
      (.cons rfl (.cons rfl (.cons rfl (.cons rfl (.cons rfl (.cons rfl (.nil _)))))))),
      ⟨rfl, rfl, rfl⟩, rfl, rfl⟩
  obtain ⟨w, run, idle, first, stats⟩ := run
  obtain ⟨_, same⟩ := agree _ _ w run _ w (List.prefix_refl _) run idle
  rw [first, stats] at same
  exact absurd same (by decide)

end Setters

end Solnet.Native
