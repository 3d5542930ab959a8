import Solnet.Daemon.RpcProxy
import Solnet.Lib.Runs
import Mathlib.Data.List.InsertIdx
import Mathlib.Data.List.Perm.Basic
import Mathlib.Tactic.ByContra

/-! The executor under interleaving. An acquire waits for a global permit, then looks up the
lock of its account; the lock is made and dropped, and never waited for. -/
namespace Solnet.Daemon
open Fallible Runs

/-- `entry(key).or_insert_with(..)`: the lock of an account, with one permit when new. -/
def ParallelExecutor.lookUpLock (executor : ParallelExecutor) :
    Option String → ParallelExecutor
  | some key =>
    if key ∈ executor.accountLocks then executor
    else { executor with accountLocks := executor.accountLocks.insert key 1 }
  | none => executor

def ParallelExecutor.cleanupEntry (executor : ParallelExecutor) (key : String) : ParallelExecutor :=
  match executor.accountLocks.lookup key with
  | some 0 => executor
  | _ => { executor with accountLocks := executor.accountLocks.erase key }

/-- A global permit that some call got. `acquire` hands it out after the look-up. -/
structure Permit where
  accountKey : Option String
  returned : Bool
  deriving DecidableEq, Repr

namespace Execution

structure World where
  executor : ParallelExecutor
  waiting : List (Option String)
  held : List Permit

def start (maxConcurrent : Nat) : World := ⟨.new maxConcurrent, [], []⟩

/-- Permits are named by their place. -/
inductive Event where
  | acquire (accountKey : Option String)
  | grant
  | lookUp (i : Nat)
  | drop (i : Nat)
  | cleanup (key : String)
  deriving DecidableEq, Repr

def advance (w : World) : Event → Option World
  | .acquire accountKey => some { w with waiting := w.waiting ++ [accountKey] }
  | .grant =>
    -- The semaphore is fair: the call that waits longest comes first.
    match w.waiting with
    | accountKey :: waiting =>
      if w.executor.globalPermits = 0 then none
      else some {
        executor := { w.executor with globalPermits := w.executor.globalPermits - 1 }
        waiting := waiting
        held := w.held ++ [⟨accountKey, false⟩] }
    | [] => none
  | .lookUp i =>
    match w.held[i]? with
    | some ⟨accountKey, false⟩ =>
      some { w with
        executor := w.executor.lookUpLock accountKey
        held := w.held.set i ⟨accountKey, true⟩ }
    | _ => none
  | .drop i =>
    match w.held[i]? with
    | some ⟨_, true⟩ =>
      some { w with
        executor := { w.executor with globalPermits := w.executor.globalPermits + 1 }
        held := w.held.eraseIdx i }
    | _ => none
  | .cleanup key => some { w with executor := w.executor.cleanupEntry key }

def Step (w : World) (e : Event) (w' : World) : Prop := advance w e = some w'

theorem step_deterministic : Deterministic Step :=
  deterministic_of_option advance

theorem grant_iff {w w' : World} :
    Step w .grant w' ↔ ∃ accountKey waiting, w.waiting = accountKey :: waiting ∧
      w.executor.globalPermits ≠ 0 ∧
      { executor := { w.executor with globalPermits := w.executor.globalPermits - 1 }
        waiting := waiting
        held := w.held ++ [⟨accountKey, false⟩] : World } = w' := by
  simp only [Step, advance]
  cases queue : w.waiting with
  | nil => simp
  | cons accountKey waiting =>
    by_cases exhausted : w.executor.globalPermits = 0
    · simp [exhausted]
    · simp only [if_neg exhausted, Option.some.injEq, List.cons.injEq]
      constructor
      · rintro rfl
        exact ⟨accountKey, waiting, ⟨rfl, rfl⟩, exhausted, rfl⟩
      · rintro ⟨_, _, ⟨rfl, rfl⟩, _, same⟩
        exact same

theorem lookUp_iff {w w' : World} {i : Nat} :
    Step w (.lookUp i) w' ↔ ∃ accountKey, w.held[i]? = some ⟨accountKey, false⟩ ∧
      { w with
        executor := w.executor.lookUpLock accountKey
        held := w.held.set i ⟨accountKey, true⟩ } = w' := by
  simp only [Step, advance]
  split
  · rename_i accountKey found
    simp [found]
  · rename_i other
    simp only [reduceCtorEq, false_iff]
    rintro ⟨accountKey, found, _⟩
    exact other accountKey found

theorem drop_iff {w w' : World} {i : Nat} :
    Step w (.drop i) w' ↔ (∃ accountKey, w.held[i]? = some ⟨accountKey, true⟩) ∧
      { w with
        executor := { w.executor with globalPermits := w.executor.globalPermits + 1 }
        held := w.held.eraseIdx i } = w' := by
  simp only [Step, advance]
  split
  · rename_i accountKey found
    simp [found]
  · rename_i other
    simp only [reduceCtorEq, false_iff]
    rintro ⟨⟨accountKey, found⟩, _⟩
    exact other accountKey found

theorem acquire_eq (executor : ParallelExecutor) (accountKey : Option String) :
    executor.acquire accountKey =
      if executor.globalPermits = 0 then .error .waits
      else .ok (executor.lookUpLock accountKey) := by
  unfold ParallelExecutor.acquire ParallelExecutor.lookUpLock
  cases accountKey with
  | none => rfl
  | some key =>
    by_cases none_left : executor.globalPermits = 0
    · rw [if_pos none_left, if_pos none_left]
    · rw [if_neg none_left, if_neg none_left]
      dsimp only
      split <;> rfl

def Serialised (w : World) : Prop := ∀ key, w.held.count ⟨some key, true⟩ ≤ 1

def World.outstanding (w : World) : List (Option String) :=
  w.waiting ++ w.held.map Permit.accountKey

def OneRequestEach (w : World) : Prop := ∀ key, w.outstanding.count (some key) ≤ 1

/-- A call names an account key only when no earlier request for it is outstanding. -/
def CallsFreeKey (w : World) : Event → Prop
  | .acquire (some key) => some key ∉ w.outstanding
  | _ => True

def NoCall (_ : World) : Event → Prop
  | .acquire _ => False
  | _ => True

variable {w w' : World} {e : Event} {maxConcurrent : Nat}

theorem callsFreeKey_of_noCall (quiet : NoCall w e) : CallsFreeKey w e := by
  cases e with
  | acquire accountKey => exact quiet.elim
  | grant => trivial
  | lookUp i => trivial
  | drop i => trivial
  | cleanup key => trivial

theorem count_held_le (key : String) :
    w.held.count ⟨some key, true⟩ ≤ w.outstanding.count (some key) := by
  calc w.held.count ⟨some key, true⟩
      ≤ (w.held.map Permit.accountKey).count (some key) :=
        List.count_le_count_map (f := Permit.accountKey)
    _ ≤ w.outstanding.count (some key) := by
        rw [World.outstanding, List.count_append]
        exact Nat.le_add_left _ _

theorem OneRequestEach.serialised (each : OneRequestEach w) : Serialised w :=
  fun key => (count_held_le key).trans (each key)

theorem acquire_outstanding {accountKey : Option String} (step : Step w (.acquire accountKey) w') :
    w'.outstanding.Perm (accountKey :: w.outstanding) := by
  obtain rfl := Option.some.inj step
  rw [World.outstanding, List.append_assoc]
  exact List.perm_middle

theorem grant_outstanding (step : Step w .grant w') : w'.outstanding.Perm w.outstanding := by
  obtain ⟨accountKey, waiting, queue, _, rfl⟩ := grant_iff.mp step
  rw [World.outstanding, World.outstanding, queue, List.map_append, ← List.append_assoc]
  exact List.perm_append_singleton _ _

theorem lookUp_outstanding {i : Nat} (step : Step w (.lookUp i) w') :
    w'.outstanding = w.outstanding := by
  obtain ⟨accountKey, found, rfl⟩ := lookUp_iff.mp step
  obtain ⟨inside, here⟩ := List.getElem?_eq_some_iff.mp found
  have inKeys : i < (w.held.map Permit.accountKey).length := by rwa [List.length_map]
  have key : (w.held.map Permit.accountKey)[i] = accountKey := by rw [List.getElem_map, here]
  rw [World.outstanding, World.outstanding, List.map_set, ← key, List.set_getElem_self]

theorem drop_outstanding {i : Nat} {accountKey : Option String}
    (found : w.held[i]? = some ⟨accountKey, true⟩) (step : Step w (.drop i) w') :
    (accountKey :: w'.outstanding).Perm w.outstanding := by
  obtain ⟨_, rfl⟩ := drop_iff.mp step
  obtain ⟨inside, here⟩ := List.getElem?_eq_some_iff.mp found
  have whole := (List.getElem_cons_eraseIdx_perm inside).map Permit.accountKey
  rw [here, List.map_cons] at whole
  exact List.perm_middle.symm.trans (whole.append_left w.waiting)

theorem step_oneRequestEach (each : OneRequestEach w) (step : Step w e w')
    (free : CallsFreeKey w e) : OneRequestEach w' := by
  intro key
  cases e with
  | acquire accountKey =>
    rw [(acquire_outstanding step).count_eq, List.count_cons]
    split
    · rename_i same
      obtain rfl : accountKey = some key := eq_of_beq same
      have unheld := List.count_eq_zero.mpr free
      omega
    · exact each key
  | grant =>
    rw [(grant_outstanding step).count_eq]
    exact each key
  | lookUp i =>
    rw [lookUp_outstanding step]
    exact each key
  | drop i =>
    obtain ⟨⟨accountKey, found⟩, _⟩ := drop_iff.mp step
    have count := (drop_outstanding found step).count_eq (some key)
    rw [List.count_cons] at count
    have before := each key
    omega
  | cleanup key =>
    obtain rfl := Option.some.inj step
    exact each _

def Conserved (maxConcurrent : Nat) (w : World) : Prop :=
  w.executor.globalPermits + w.held.length = maxConcurrent

theorem lookUpLock_globalPermits (executor : ParallelExecutor) (accountKey : Option String) :
    (executor.lookUpLock accountKey).globalPermits = executor.globalPermits := by
  cases accountKey with
  | none => rfl
  | some key =>
    unfold ParallelExecutor.lookUpLock
    dsimp only
    split <;> rfl

theorem cleanupEntry_globalPermits (executor : ParallelExecutor) (key : String) :
    (executor.cleanupEntry key).globalPermits = executor.globalPermits := by
  unfold ParallelExecutor.cleanupEntry
  split <;> rfl

theorem step_conserved (w : World) (e : Event) (w' : World) (conserved : Conserved maxConcurrent w)
    (step : Step w e w') : Conserved maxConcurrent w' := by
  unfold Conserved at conserved ⊢
  cases e with
  | acquire accountKey =>
    obtain rfl := Option.some.inj step
    exact conserved
  | grant =>
    obtain ⟨accountKey, waiting, _, available, rfl⟩ := grant_iff.mp step
    rw [List.length_append, List.length_singleton]
    dsimp only
    omega
  | lookUp i =>
    obtain ⟨accountKey, _, rfl⟩ := lookUp_iff.mp step
    rw [lookUpLock_globalPermits, List.length_set]
    exact conserved
  | drop i =>
    obtain ⟨⟨accountKey, found⟩, rfl⟩ := drop_iff.mp step
    obtain ⟨inside, _⟩ := List.getElem?_eq_some_iff.mp found
    rw [List.length_eraseIdx_of_lt inside]
    dsimp only
    omega
  | cleanup key =>
    obtain rfl := Option.some.inj step
    rw [cleanupEntry_globalPermits]
    exact conserved

theorem run_conserved {events : List Event} (run : Run Step (start maxConcurrent) events w) :
    Conserved maxConcurrent w :=
  run.invariant step_conserved (Nat.add_zero _)

/-- What is left to do until only returned permits of one key are held. -/
def World.toDo (w : World) : Nat :=
  3 * w.waiting.length + w.held.length + w.held.countP (! Permit.returned ·)

theorem grant_toDo (step : Step w .grant w') : w'.toDo < w.toDo := by
  obtain ⟨accountKey, waiting, queue, _, rfl⟩ := grant_iff.mp step
  have granted : (w.held ++ [(⟨accountKey, false⟩ : Permit)]).countP (! Permit.returned ·) =
      w.held.countP (! Permit.returned ·) + 1 := List.countP_append
  simp only [World.toDo, granted, queue, List.length_append, List.length_cons, List.length_nil]
  omega

theorem lookUp_toDo {i : Nat} (step : Step w (.lookUp i) w') : w'.toDo < w.toDo := by
  obtain ⟨accountKey, found, rfl⟩ := lookUp_iff.mp step
  obtain ⟨inside, here⟩ := List.getElem?_eq_some_iff.mp found
  have pending : 0 < w.held.countP (! Permit.returned ·) :=
    List.countP_pos_iff.mpr ⟨_, List.getElem_mem inside, by rw [here]; rfl⟩
  have returned : (w.held.set i ⟨accountKey, true⟩).countP (! Permit.returned ·) =
      w.held.countP (! Permit.returned ·) - 1 := by
    rw [List.countP_set inside, here]
    rfl
  simp only [World.toDo, returned, List.length_set]
  omega

theorem drop_toDo {i : Nat} (step : Step w (.drop i) w') : w'.toDo < w.toDo := by
  obtain ⟨⟨accountKey, found⟩, rfl⟩ := drop_iff.mp step
  obtain ⟨inside, _⟩ := List.getElem?_eq_some_iff.mp found
  have fewer := (List.eraseIdx_sublist w.held i).countP_le (p := (! Permit.returned ·))
  simp only [World.toDo, List.length_eraseIdx_of_lt inside]
  omega

/-- With two slots and two requests for a key, some step of the executor or of a holder of
another permit brings the two permits closer. -/
theorem closer_to_two (key : String) (slots : 2 ≤ maxConcurrent)
    (conserved : Conserved maxConcurrent w) (two : 2 ≤ w.outstanding.count (some key))
    (short : ¬ 2 ≤ w.held.count ⟨some key, true⟩) :
    ∃ e w', Step w e w' ∧ NoCall w e ∧ 2 ≤ w'.outstanding.count (some key) ∧
      w'.toDo < w.toDo := by
  by_cases pending : ∃ (i : Nat) (accountKey : Option String),
      w.held[i]? = some ⟨accountKey, false⟩
  · obtain ⟨i, accountKey, found⟩ := pending
    have step := lookUp_iff.mpr ⟨accountKey, found, rfl⟩
    exact ⟨.lookUp i, _, step, trivial, lookUp_outstanding step ▸ two, lookUp_toDo step⟩
  by_cases other : ∃ (i : Nat) (accountKey : Option String),
      w.held[i]? = some ⟨accountKey, true⟩ ∧ accountKey ≠ some key
  · obtain ⟨i, accountKey, found, different⟩ := other
    have step := drop_iff.mpr ⟨⟨accountKey, found⟩, rfl⟩
    have count := (drop_outstanding found step).count_eq (some key)
    rw [List.count_cons_of_ne different] at count
    exact ⟨.drop i, _, step, trivial, count ▸ two, drop_toDo step⟩
  -- Every permit held is a returned one of the key, so at most one is held.
  have all : ∀ permit ∈ w.held, (⟨some key, true⟩ : Permit) = permit := by
    intro permit held
    obtain ⟨i, found⟩ := List.getElem?_of_mem held
    cases permit with
    | mk accountKey returned =>
      cases returned with
      | false => exact absurd ⟨i, accountKey, found⟩ pending
      | true =>
        by_contra different
        exact other ⟨i, accountKey, found, fun same => different (by rw [same])⟩
  have few : w.held.length ≤ 1 := by
    rw [List.count_eq_length.mpr all] at short
    omega
  cases queue : w.waiting with
  | nil =>
    have count : w.outstanding.count (some key) ≤ w.outstanding.length := List.count_le_length
    rw [World.outstanding, queue, List.nil_append, List.length_map] at count
    rw [World.outstanding, queue, List.nil_append] at two
    omega
  | cons accountKey waiting =>
    unfold Conserved at conserved
    have step := grant_iff.mpr ⟨accountKey, waiting, queue, by omega, rfl⟩
    exact ⟨.grant, _, step, trivial, (grant_outstanding step).count_eq _ ▸ two, grant_toDo step⟩

theorem stays_serialised_iff (conserved : Conserved maxConcurrent w) :
    (∀ later w', Run (Guarded Step NoCall) w later w' → Serialised w') ↔
      maxConcurrent ≤ 1 ∨ OneRequestEach w := by
  constructor
  · intro stays
    by_contra breaks
    obtain ⟨slots, twice⟩ := not_or.mp breaks
    obtain ⟨key, two⟩ := not_forall.mp twice
    obtain ⟨later, w', run, lost⟩ := exists_run_of_measure (R := Guarded Step NoCall)
      (I := fun w => Conserved maxConcurrent w ∧ 2 ≤ w.outstanding.count (some key))
      (P := fun w => 2 ≤ w.held.count ⟨some key, true⟩) World.toDo
      (fun w ⟨conserved, two⟩ short => by
        obtain ⟨e, w', step, quiet, still, less⟩ :=
          closer_to_two key (by omega) conserved two short
        exact ⟨e, w', ⟨step, quiet⟩, ⟨step_conserved w e w' conserved step, still⟩, less⟩)
      ⟨conserved, by omega⟩
    have once := stays later w' run key
    omega
  · rintro (slot | each) later w' run key
    · have kept : Conserved maxConcurrent w' := run.unguarded.invariant step_conserved conserved
      have count : w'.held.count ⟨some key, true⟩ ≤ w'.held.length := List.count_le_length
      unfold Conserved at kept
      omega
    · have kept : OneRequestEach w' := run.invariant (I := OneRequestEach)
        (fun w e w' each step => step_oneRequestEach each step.1 (callsFreeKey_of_noCall step.2))
        each
      exact kept.serialised key

/-- Permits of one key exclude each other along a run with one slot, or whose callers name a key
only while no request for it is outstanding. In a state where a key has two requests and two
slots exist, some schedule hands out both permits. Whatever the keys, the call that waits longest
is granted a permit as long as fewer than the maximum are held. -/
theorem serialised_for_single_requests (maxConcurrent : Nat) (events : List Event) (w : World)
    (run : Run Step (start maxConcurrent) events w) :
    (maxConcurrent ≤ 1 ∨ Run (Guarded Step CallsFreeKey) (start maxConcurrent) events w →
      Always Step Serialised (start maxConcurrent) events) ∧
    ((∀ later w', Run (Guarded Step NoCall) w later w' → Serialised w') ↔
      maxConcurrent ≤ 1 ∨ OneRequestEach w) ∧
    w.held.length ≤ maxConcurrent ∧
    (w.waiting ≠ [] → ((∃ w', Step w .grant w') ↔ w.held.length < maxConcurrent)) := by
  have conserved := run_conserved run
  refine ⟨?_, stays_serialised_iff conserved, ?_, ?_⟩
  · rintro (slot | guarded)
    · intro pre w' _ part
      exact (stays_serialised_iff (run_conserved part)).mpr (.inl slot) [] w' (.nil w')
    · exact guarded.always step_deterministic
        (fun w e w' each step free => step_oneRequestEach each step free)
        (fun w each => each.serialised) fun key => Nat.zero_le 1
  · unfold Conserved at conserved
    omega
  · intro waits
    unfold Conserved at conserved
    obtain ⟨accountKey, waiting, queue⟩ := List.exists_cons_of_ne_nil waits
    constructor
    · rintro ⟨w', step⟩
      obtain ⟨_, _, _, available, _⟩ := grant_iff.mp step
      omega
    · intro room
      exact ⟨_, grant_iff.mpr ⟨accountKey, waiting, queue, by omega, rfl⟩⟩

/-! Two calls for one account. -/

def oneAfterTheOther : List Event :=
  [.acquire (some "A"), .grant, .lookUp 0, .drop 0, .acquire (some "A"), .grant, .lookUp 0]

theorem oneAfterTheOther_serialised : Always Step Serialised (start 2) oneAfterTheOther := by
  have guarded : ∃ w, Run (Guarded Step CallsFreeKey) (start 2) oneAfterTheOther w :=
    ⟨_, .cons ⟨rfl, List.not_mem_nil⟩ (.cons ⟨rfl, trivial⟩ (.cons ⟨rfl, trivial⟩
      (.cons ⟨rfl, trivial⟩ (.cons ⟨rfl, List.not_mem_nil⟩ (.cons ⟨rfl, trivial⟩
        (.cons ⟨rfl, trivial⟩ (.nil _)))))))⟩
  obtain ⟨w, guarded⟩ := guarded
  exact (serialised_for_single_requests 2 _ w guarded.unguarded).1 (.inr guarded)

theorem two_permits_of_one_account :
    ¬ ∀ (maxConcurrent : Nat) (events : List Event) (w : World),
      Run Step (start maxConcurrent) events w → Serialised w := by
  intro serialised
  have run : ∃ w, Run Step (start 2)
      [.acquire (some "A"), .acquire (some "A"), .grant, .lookUp 0, .grant, .lookUp 1] w ∧
      w.held = [⟨some "A", true⟩, ⟨some "A", true⟩] :=
    ⟨_, .cons rfl (.cons rfl (.cons rfl (.cons rfl (.cons rfl (.cons rfl (.nil _)))))), rfl⟩
  obtain ⟨w, run, held⟩ := run
  have once := serialised 2 _ w run "A"
  rw [held] at once
  exact absurd once (by decide)

end Execution

end Solnet.Daemon
