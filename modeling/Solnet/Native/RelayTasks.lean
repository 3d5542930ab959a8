import Solnet.Daemon.Checked
import Solnet.Lib.Slices
import Solnet.Native.Earnings

/-! The request tasks of the relay loop. A task waits for a permit, posts its request with the
first bytes of the wallet in a header, and gives the permit back with its response. -/
namespace Solnet.Native
open Runs Slices Solnet.Daemon

/-- `&wallet[..wallet.len().min(8)]`. -/
def walletPrefix (wallet : String) : Checked String :=
  match firstBytes (min wallet.utf8ByteSize 8) wallet.toList with
  | some chars => .ok (String.ofList chars)
  | none => .error .slicePanic

/-- The channel for the response goes by its number. -/
structure RelayRequest where
  payload : List UInt8
  respond : Nat
  deriving DecidableEq, Repr

structure RelayPost where
  url : String
  nodeWallet : String
  body : List UInt8
  deriving DecidableEq, Repr

/-- What comes of a post: a response with the text of its status and a body that may fail to
arrive, or none. -/
inductive PostOutcome where
  | responded (status : Nat) (text : String) (body : Except String (List UInt8))
  | failed (error : String)

def PostOutcome.response : PostOutcome → RelayResponse
  | responded status text body =>
    if 200 ≤ status ∧ status < 300 then
      match body with
      | .ok bytes => .success bytes
      | .error e => .error e
    else .error ("HTTP " ++ text)
  | failed error => .error error

/-- The semaphore hands permits to the waiting tasks in their order. -/
structure RelayTasks where
  permits : Nat
  waiting : List RelayRequest
  posting : List RelayRequest
  posted : List RelayPost
  responses : List (RelayRequest × RelayResponse)
  halted : Option Halt

inductive TaskEvent where
  | receives (req : RelayRequest)
  | acquires
  | answers (i : Nat) (outcome : PostOutcome)

/-- A step of a task that is already there. -/
def TaskEvent.OfTask : TaskEvent → Prop
  | receives _ => False
  | _ => True

namespace RelayTasks

def start (config : RelayConfig) : RelayTasks := ⟨config.maxConcurrent, [], [], [], [], none⟩

def step (config : RelayConfig) (s : RelayTasks) (event : TaskEvent) : Option RelayTasks :=
  if s.halted.isSome then none
  else
    match event with
    | .receives req => some { s with waiting := s.waiting ++ [req] }
    | .acquires =>
      match s.permits, s.waiting with
      | permits + 1, req :: waiting =>
        match walletPrefix config.walletPubkey with
        | .error halt => some { s with halted := some halt }
        | .ok nodeWallet => some { s with
          permits, waiting
          posting := s.posting ++ [req]
          posted := s.posted ++ [⟨config.relayUrl, nodeWallet, req.payload⟩] }
      | _, _ => none
    | .answers i outcome =>
      s.posting[i]?.map fun req => { s with
        permits := s.permits + 1
        posting := s.posting.eraseIdx i
        responses := s.responses ++ [(req, outcome.response)] }

def Steps (config : RelayConfig) (s : RelayTasks) (event : TaskEvent) (t : RelayTasks) : Prop :=
  s.step config event = some t

def Finished (s : RelayTasks) : Prop := s.waiting = [] ∧ s.posting = []

end RelayTasks

/-- No task panics, the tasks of each state can finish by their own steps, and the semaphore is
made with 1 to 8 permits. -/
structure RelayConfig.SafeToRun (config : RelayConfig) : Prop where
  noPanic : ∀ events s, Run (RelayTasks.Steps config) (.start config) events s → s.halted = none
  finishes : ∀ events s, Run (RelayTasks.Steps config) (.start config) events s →
    ∃ more t, Run (Guarded (RelayTasks.Steps config) fun _ e => e.OfTask) s more t ∧ t.Finished
  somePermit : 1 ≤ (RelayTasks.start config).permits
  capped : (RelayTasks.start config).permits ≤ 8

/-- Some characters at the start of the wallet take up 8 bytes, and the number of requests at a
time is not given as 0. -/
def SafeValues (v : Value) : Prop :=
  (∃ wallet chars, (v.index "wallet_pubkey").asStr = some wallet ∧ chars <+: wallet.toList ∧
    byteSize chars = 8) ∧
  asU64 (v.index "max_concurrent") ≠ some 0

theorem walletPrefix_ok_iff {wallet : String} (long : 8 ≤ wallet.utf8ByteSize) :
    (∃ nodeWallet, walletPrefix wallet = .ok nodeWallet) ↔
      ∃ chars, chars <+: wallet.toList ∧ byteSize chars = 8 := by
  unfold walletPrefix
  rw [Nat.min_eq_right long]
  simp only [← firstBytes_some_iff]
  cases firstBytes 8 wallet.toList with
  | none => simp
  | some chars => simp

theorem RelayConfig.fromJson_ok {lib : Platform} {json : String} {config : RelayConfig} {v : Value}
    (parsed : lib.fromStr json = .ok v) (accepted : fromJson lib json = .ok config) :
    (v.index "wallet_pubkey").asStr = some config.walletPubkey ∧
      32 ≤ config.walletPubkey.utf8ByteSize ∧
      config.maxConcurrent = ((asU64 (v.index "max_concurrent")).map (min · 8)).getD 4 := by
  rw [fromJson, parsed] at accepted
  dsimp only at accepted
  split at accepted
  · cases accepted
  split at accepted
  · cases accepted
  split at accepted
  · cases accepted
  rename_i walletPubkey given
  split at accepted
  · cases accepted
  rename_i sized
  cases accepted
  exact ⟨given, Nat.le_of_not_lt fun short => sized (.inl short), rfl⟩

namespace RelayTasks

variable {config : RelayConfig} {s t : RelayTasks} {event : TaskEvent} {events : List TaskEvent}

inductive Took (config : RelayConfig) (s : RelayTasks) : TaskEvent → RelayTasks → Prop where
  | receives {req : RelayRequest} :
      Took config s (.receives req) { s with waiting := s.waiting ++ [req] }
  | acquires {req : RelayRequest} {waiting : List RelayRequest} {permits : Nat}
      {nodeWallet : String} (free : s.permits = permits + 1) (queue : s.waiting = req :: waiting)
      (ok : walletPrefix config.walletPubkey = .ok nodeWallet) :
      Took config s .acquires { s with
        permits, waiting
        posting := s.posting ++ [req]
        posted := s.posted ++ [⟨config.relayUrl, nodeWallet, req.payload⟩] }
  | panics {permits : Nat} {halt : Halt} (free : s.permits = permits + 1)
      (error : walletPrefix config.walletPubkey = .error halt) :
      Took config s .acquires { s with halted := some halt }
  | answers {i : Nat} {outcome : PostOutcome} {req : RelayRequest}
      (found : s.posting[i]? = some req) :
      Took config s (.answers i outcome) { s with
        permits := s.permits + 1
        posting := s.posting.eraseIdx i
        responses := s.responses ++ [(req, outcome.response)] }

theorem Steps.took (step : Steps config s event t) : Took config s event t := by
  unfold Steps RelayTasks.step at step
  split at step
  · cases step
  cases event with
  | receives req =>
    cases step
    exact .receives
  | acquires =>
    dsimp only at step
    split at step
    · rename_i permits req waiting free queue
      cases sliced : walletPrefix config.walletPubkey with
      | error halt =>
        rw [sliced] at step
        cases step
        exact .panics free sliced
      | ok nodeWallet =>
        rw [sliced] at step
        cases step
        exact .acquires free queue sliced
    · cases step
  | answers i outcome =>
    obtain ⟨req, found, rfl⟩ := Option.map_eq_some_iff.mp step
    exact .answers found

/-- Each permit is free or held by a task that posts. -/
def Conserved (config : RelayConfig) (s : RelayTasks) : Prop :=
  s.permits + s.posting.length = config.maxConcurrent

theorem step_conserved (conserved : Conserved config s) (step : Steps config s event t) :
    Conserved config t := by
  unfold Conserved at conserved ⊢
  cases step.took with
  | receives => exact conserved
  | panics => exact conserved
  | @acquires req waiting permits nodeWallet free queue ok =>
    simp only [List.length_append, List.length_singleton]
    omega
  | @answers i outcome req found =>
    obtain ⟨inside, _⟩ := List.getElem?_eq_some_iff.mp found
    simp only [List.length_eraseIdx_of_lt inside]
    omega

theorem start_conserved (config : RelayConfig) : Conserved config (start config) := Nat.add_zero _

/-- Without permits no task ever takes a step. -/
theorem blocks_without_permit (none_made : config.maxConcurrent = 0)
    (run : Run (Steps config) (start config) events s) (ofTask : event.OfTask) :
    ¬ Steps config s event t := by
  have conserved : Conserved config s :=
    run.invariant (fun _ _ _ kept step => step_conserved kept step) (start_conserved config)
  unfold Conserved at conserved
  intro step
  cases step.took with
  | receives => exact ofTask
  | acquires free => omega
  | panics free => omega
  | answers found =>
    obtain ⟨inside, _⟩ := List.getElem?_eq_some_iff.mp found
    omega

theorem step_running {nodeWallet : String} (ok : walletPrefix config.walletPubkey = .ok nodeWallet)
    (running : s.halted = none) (step : Steps config s event t) : t.halted = none := by
  cases step.took with
  | receives => exact running
  | acquires => exact running
  | answers => exact running
  | panics free error => cases ok.symm.trans error

/-- How many steps the tasks are away from their end. -/
def toDo (s : RelayTasks) : Nat := 2 * s.waiting.length + s.posting.length

theorem steps_acquires {req : RelayRequest} {waiting : List RelayRequest} {permits : Nat}
    {nodeWallet : String} (running : s.halted = none) (free : s.permits = permits + 1)
    (queue : s.waiting = req :: waiting) (ok : walletPrefix config.walletPubkey = .ok nodeWallet) :
    Steps config s .acquires { s with
      permits, waiting
      posting := s.posting ++ [req]
      posted := s.posted ++ [⟨config.relayUrl, nodeWallet, req.payload⟩] } := by
  unfold Steps RelayTasks.step
  rw [running, Option.isSome_none, if_neg Bool.noConfusion]
  dsimp only
  rw [free, queue, ok]

theorem steps_answers {i : Nat} {req : RelayRequest} (outcome : PostOutcome)
    (running : s.halted = none) (found : s.posting[i]? = some req) :
    Steps config s (.answers i outcome) { s with
      permits := s.permits + 1
      posting := s.posting.eraseIdx i
      responses := s.responses ++ [(req, outcome.response)] } := by
  unfold Steps RelayTasks.step
  rw [running, Option.isSome_none, if_neg Bool.noConfusion]
  dsimp only
  rw [found, Option.map_some]

/-- Unless all tasks are finished, one can take a step. -/
theorem exists_step {nodeWallet : String} (ok : walletPrefix config.walletPubkey = .ok nodeWallet)
    (some_permit : 1 ≤ config.maxConcurrent) (running : s.halted = none)
    (conserved : Conserved config s) (unfinished : ¬ s.Finished) :
    ∃ event t, Steps config s event t ∧ event.OfTask ∧ t.toDo < s.toDo := by
  cases posting : s.posting with
  | cons req others =>
    have found : s.posting[0]? = some req := by rw [posting, List.getElem?_cons_zero]
    refine ⟨_, _, steps_answers (.failed "") running found, trivial, ?_⟩
    simp only [toDo, posting, List.eraseIdx_zero, List.tail_cons, List.length_cons]
    omega
  | nil =>
    unfold Conserved at conserved
    rw [posting, List.length_nil, Nat.add_zero] at conserved
    obtain ⟨permits, free⟩ : ∃ permits, s.permits = permits + 1 := ⟨s.permits - 1, by omega⟩
    cases queue : s.waiting with
    | nil => exact absurd ⟨queue, posting⟩ unfinished
    | cons req waiting =>
      refine ⟨_, _, steps_acquires running free queue ok, trivial, ?_⟩
      simp only [toDo, posting, queue, List.length_cons, List.length_append, List.length_nil]
      omega

theorem run_sound {nodeWallet : String} (ok : walletPrefix config.walletPubkey = .ok nodeWallet)
    (run : Run (Steps config) (start config) events s) : s.halted = none ∧ Conserved config s :=
  run.invariant (I := fun s => s.halted = none ∧ Conserved config s)
    (fun _ _ _ sound step => ⟨step_running ok sound.1 step, step_conserved sound.2 step⟩)
    ⟨rfl, start_conserved config⟩

end RelayTasks

namespace RelayConfig
open RelayTasks

variable {config : RelayConfig}

theorem safe_of_prefix {nodeWallet : String}
    (ok : walletPrefix config.walletPubkey = .ok nodeWallet)
    (some_permit : 1 ≤ config.maxConcurrent) (capped : config.maxConcurrent ≤ 8) :
    config.SafeToRun := by
  refine ⟨fun events s run => (run_sound ok run).1, fun events s run => ?_, some_permit, capped⟩
  refine exists_run_of_measure (I := fun s => s.halted = none ∧ Conserved config s) toDo ?_
    (run_sound ok run)
  rintro s ⟨running, conserved⟩ unfinished
  obtain ⟨event, t, step, ofTask, less⟩ := exists_step ok some_permit running conserved unfinished
  exact ⟨event, t, ⟨step, ofTask⟩, ⟨step_running ok running step, step_conserved conserved step⟩,
    less⟩

/-- The first request of a loop with a permit reaches the slice. -/
theorem prefix_of_safe (safe : config.SafeToRun) :
    ∃ nodeWallet, walletPrefix config.walletPubkey = .ok nodeWallet := by
  cases sliced : walletPrefix config.walletPubkey with
  | ok nodeWallet => exact ⟨nodeWallet, rfl⟩
  | error halt =>
    obtain ⟨permits, some_permit⟩ : ∃ permits, config.maxConcurrent = permits + 1 :=
      ⟨config.maxConcurrent - 1, (Nat.sub_add_cancel safe.somePermit).symm⟩
    let waits : RelayTasks := { RelayTasks.start config with waiting := [⟨[], 0⟩] }
    have panics : Steps config waits .acquires { waits with halted := some halt } := by
      simp only [Steps, RelayTasks.step, waits, RelayTasks.start, Option.isSome_none,
        Bool.false_eq_true, if_false, some_permit, sliced]
    have run : Run (Steps config) (.start config) [.receives ⟨[], 0⟩, .acquires] _ :=
      .cons (t := waits) rfl (.cons panics (.nil _))
    cases safe.noPanic _ _ run

/-- A configuration is safe exactly when the first 8 bytes of its wallet end with a character and
it does not ask for 0 requests at a time. -/
theorem safe_to_run_iff {lib : Platform} {json : String} {config : RelayConfig} {v : Value}
    (parsed : lib.fromStr json = .ok v) (accepted : fromJson lib json = .ok config) :
    config.SafeToRun ↔ SafeValues v := by
  obtain ⟨wallet, long, maxConcurrent⟩ := fromJson_ok parsed accepted
  have prefix_iff := walletPrefix_ok_iff (Nat.le_trans (by decide : 8 ≤ 32) long)
  have permits : config.maxConcurrent ≤ 8 ∧
      (1 ≤ config.maxConcurrent ↔ asU64 (v.index "max_concurrent") ≠ some 0) := by
    rw [maxConcurrent]
    cases asU64 (v.index "max_concurrent") with
    | none => simp
    | some n =>
      simp only [Option.map_some, Option.getD_some, ne_eq, Option.some.injEq]
      omega
  constructor
  · intro safe
    obtain ⟨chars, start, size⟩ := prefix_iff.mp (prefix_of_safe safe)
    exact ⟨⟨_, chars, wallet, start, size⟩, permits.2.mp safe.somePermit⟩
  · rintro ⟨⟨wallet', chars, wallet_eq, start, size⟩, some_permit⟩
    obtain rfl := Option.some.inj (wallet.symm.trans wallet_eq)
    obtain ⟨nodeWallet, ok⟩ := prefix_iff.mpr ⟨chars, start, size⟩
    exact safe_of_prefix ok (permits.2.mpr some_permit) permits.1

/-! The text that the app sends, and one whose wallet has an accented eighth character. -/

theorem configText_safe : (Relay.configOf 5).SafeToRun := by
  have parsed : Relay.reader.fromStr Relay.configText = .ok Relay.configValue := by
    simp [Relay.reader]
  refine (safe_to_run_iff parsed Relay.configText_accepted).mpr ⟨?_, by decide⟩
  exact ⟨"7xKXtg2CW87d97TXJSDpbD5jBkheTqA83TZRuJosgAsU", "7xKXtg2C".toList, rfl, by decide,
    by decide⟩

def accentedText : String :=
  "\x7b\"relay_url\":\"https://a\",\"wallet_pubkey\":\"7xKXtg2\u00e9W87d97TXJSDpbD5jBkheTqA8\"\x7d"

def accentedValue : Value := .object [
  ("relay_url", .string "https://a"),
  ("wallet_pubkey", .string "7xKXtg2\u00e9W87d97TXJSDpbD5jBkheTqA8")]

def accentedReader : Platform := { bare with
  fromStr := fun text => if text = accentedText then .ok accentedValue else .error "" }

def accentedConfig : RelayConfig :=
  ⟨"https://a", "7xKXtg2\u00e9W87d97TXJSDpbD5jBkheTqA8", none, 4, 100⟩

theorem accented_wallet_panics : ¬ ∀ (lib : Platform) (json : String) (config : RelayConfig),
    fromJson lib json = .ok config → config.SafeToRun := by
  intro safe
  have parsed : accentedReader.fromStr accentedText = .ok accentedValue := by
    simp [accentedReader]
  have accepted : fromJson accentedReader accentedText = .ok accentedConfig := by
    rw [fromJson, parsed]
    rfl
  have run : Run (Steps accentedConfig) (.start accentedConfig) [.receives ⟨[], 0⟩, .acquires] _ :=
    .cons rfl (.cons rfl (.nil _))
  cases (safe accentedReader accentedText _ accepted).noPanic _ _ run

end RelayConfig

end Solnet.Native
