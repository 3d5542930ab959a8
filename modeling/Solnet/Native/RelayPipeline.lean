import Mathlib.Data.List.InsertIdx
import Mathlib.Data.List.Perm.Subperm
import Mathlib.Data.List.Range
import Solnet.Native.RelayTasks

/-! The way of a request through the relay: from its caller over the channel to the loop, from
there to a task of its own, and back. Callers and tasks come to their turn in any order. -/
namespace Solnet.Native
open Runs Slices Solnet.Daemon

/-- The relay after its start has spawned the loop. A call goes by the number of its request. -/
structure RelayPipeline where
  started : Bool
  relayRunning : Bool
  loop : LoopState
  asked : List RelayRequest
  sending : List RelayRequest
  channel : List RelayRequest
  waiting : List RelayRequest
  posting : List RelayRequest
  responses : List (RelayRequest × RelayResponse)
  dropped : List RelayRequest
  posted : List RelayPost
  returned : List (Nat × Option (List UInt8))
  permits : Nat
  requestsServed : Nat
  earningsLamports : Nat
  halted : Option Halt

inductive PipelineEvent where
  | runs
  | stop
  | forwardRpc (payload : List UInt8)
  | sends (i : Nat)
  | builds (built : Bool)
  | checks
  | receives
  | timesOut
  | acquires (i : Nat)
  | answers (i : Nat) (outcome : PostOutcome)
  | returns (n : Nat)

/-- Nothing new is asked of the relay. -/
def PipelineEvent.IsInternal : PipelineEvent → Prop
  | runs | stop | forwardRpc _ => False
  | _ => True

namespace RelayPipeline

def start (config : RelayConfig) : RelayPipeline where
  started := false
  relayRunning := false
  loop := .building
  asked := []
  sending := []
  channel := []
  waiting := []
  posting := []
  responses := []
  dropped := []
  posted := []
  returned := []
  permits := config.maxConcurrent
  requestsServed := 0
  earningsLamports := 0
  halted := none

def channelSize : Nat := 32

def forwardRpc (s : RelayPipeline) (payload : List UInt8) : RelayPipeline :=
  if !s.relayRunning then s
  else
    let req : RelayRequest := ⟨payload, s.asked.length⟩
    { s with asked := s.asked ++ [req], sending := s.sending ++ [req] }

/-- `tx.send(req)`, which fails once the receiver is gone. -/
def send (s : RelayPipeline) (i : Nat) (req : RelayRequest) : Option RelayPipeline :=
  let sent := { s with sending := s.sending.eraseIdx i }
  if s.loop = .exited then some { sent with dropped := s.dropped ++ [req] }
  else if s.channel.length < channelSize then some { sent with channel := s.channel ++ [req] }
  else none

/-- The loop returns, and its receiver drops what is in the channel. -/
def exit (s : RelayPipeline) : RelayPipeline :=
  { s with loop := .exited, channel := [], dropped := s.dropped ++ s.channel }

def acquire (config : RelayConfig) (s : RelayPipeline) (i permits : Nat) (req : RelayRequest) :
    RelayPipeline :=
  match walletPrefix config.walletPubkey with
  | .error halt => { s with halted := some halt }
  | .ok nodeWallet => { s with
    permits
    waiting := s.waiting.eraseIdx i
    posting := s.posting ++ [req]
    posted := s.posted ++ [⟨config.relayUrl, nodeWallet, req.payload⟩] }

/-- The end of `forward_rpc` with what comes over the channel of the response, if it is not
closed. -/
def finish (s : RelayPipeline) (n : Nat) : Option RelayResponse → RelayPipeline
  | some (.success bytes) => { s with
    requestsServed := (s.requestsServed + 1) % 2 ^ 64
    earningsLamports := (s.earningsLamports + 100) % 2 ^ 64
    returned := s.returned ++ [(n, some bytes)] }
  | some (.error _) | none => { s with returned := s.returned ++ [(n, none)] }

/-- The response to a call, or none if its sender was dropped. -/
def responded (s : RelayPipeline) (n : Nat) : Option (Option RelayResponse) :=
  match s.responses.find? fun answer => answer.1.respond = n with
  | some (_, response) => some (some response)
  | none => if n ∈ s.dropped.map RelayRequest.respond then some none else none

def step (config : RelayConfig) (s : RelayPipeline) (event : PipelineEvent) :
    Option RelayPipeline :=
  if s.halted.isSome then none
  else
    match event with
    | .runs => if s.started then none else some { s with started := true, relayRunning := true }
    | .stop => some { s with relayRunning := false }
    | .forwardRpc payload => some (s.forwardRpc payload)
    | .sends i =>
      match s.sending[i]? with
      | none => none
      | some req => s.send i req
    | .builds built =>
      if s.loop = .building then
        some (if built then { s with loop := .checking } else s.exit)
      else none
    | .checks =>
      if s.loop = .checking then
        some (if s.relayRunning then { s with loop := .receiving } else s.exit)
      else none
    | .receives =>
      match s.loop, s.channel with
      | .receiving, req :: channel =>
        some { s with loop := .checking, channel, waiting := s.waiting ++ [req] }
      | _, _ => none
    | .timesOut => if s.loop = .receiving then some { s with loop := .checking } else none
    | .acquires i =>
      match s.permits, s.waiting[i]? with
      | permits + 1, some req => some (s.acquire config i permits req)
      | _, _ => none
    | .answers i outcome =>
      match s.posting[i]? with
      | none => none
      | some req => some { s with
        permits := s.permits + 1
        posting := s.posting.eraseIdx i
        responses := s.responses ++ [(req, outcome.response)] }
    | .returns n =>
      if n ∈ s.returned.map Prod.fst then none else (s.responded n).map (s.finish n)

def Steps (config : RelayConfig) (s : RelayPipeline) (event : PipelineEvent)
    (t : RelayPipeline) : Prop :=
  s.step config event = some t

/-- What a step can do. -/
inductive Took (config : RelayConfig) (s : RelayPipeline) :
    PipelineEvent → RelayPipeline → Prop where
  | runs (first : s.started = false) :
      Took config s .runs { s with started := true, relayRunning := true }
  | stop : Took config s .stop { s with relayRunning := false }
  | refused {payload : List UInt8} (stopped : s.relayRunning = false) :
      Took config s (.forwardRpc payload) s
  | asks {payload : List UInt8} (running : s.relayRunning = true) :
      Took config s (.forwardRpc payload) { s with
        asked := s.asked ++ [⟨payload, s.asked.length⟩]
        sending := s.sending ++ [⟨payload, s.asked.length⟩] }
  | unsent {i : Nat} {req : RelayRequest} (found : s.sending[i]? = some req)
      (exited : s.loop = .exited) : Took config s (.sends i) { s with
        sending := s.sending.eraseIdx i
        dropped := s.dropped ++ [req] }
  | sends {i : Nat} {req : RelayRequest} (found : s.sending[i]? = some req)
      (lives : s.loop ≠ .exited) (room : s.channel.length < channelSize) :
      Took config s (.sends i) { s with
        sending := s.sending.eraseIdx i
        channel := s.channel ++ [req] }
  | builds (building : s.loop = .building) :
      Took config s (.builds true) { s with loop := .checking }
  | unbuilt (building : s.loop = .building) : Took config s (.builds false) s.exit
  | goesOn (checking : s.loop = .checking) (running : s.relayRunning = true) :
      Took config s .checks { s with loop := .receiving }
  | exits (checking : s.loop = .checking) (stopped : s.relayRunning = false) :
      Took config s .checks s.exit
  | receives {req : RelayRequest} {channel : List RelayRequest} (receiving : s.loop = .receiving)
      (queue : s.channel = req :: channel) : Took config s .receives { s with
        loop := .checking
        channel
        waiting := s.waiting ++ [req] }
  | timesOut (receiving : s.loop = .receiving) :
      Took config s .timesOut { s with loop := .checking }
  | acquires {i permits : Nat} {req : RelayRequest} {nodeWallet : String}
      (free : s.permits = permits + 1) (found : s.waiting[i]? = some req)
      (ok : walletPrefix config.walletPubkey = .ok nodeWallet) :
      Took config s (.acquires i) { s with
        permits
        waiting := s.waiting.eraseIdx i
        posting := s.posting ++ [req]
        posted := s.posted ++ [⟨config.relayUrl, nodeWallet, req.payload⟩] }
  | panics {i : Nat} {halt : Halt} (error : walletPrefix config.walletPubkey = .error halt) :
      Took config s (.acquires i) { s with halted := some halt }
  | answers {i : Nat} {outcome : PostOutcome} {req : RelayRequest}
      (found : s.posting[i]? = some req) : Took config s (.answers i outcome) { s with
        permits := s.permits + 1
        posting := s.posting.eraseIdx i
        responses := s.responses ++ [(req, outcome.response)] }
  | returns {n : Nat} {response : Option RelayResponse} (once : n ∉ s.returned.map Prod.fst)
      (responded : s.responded n = some response) :
      Took config s (.returns n) (s.finish n response)

variable {config : RelayConfig} {s t : RelayPipeline} {event : PipelineEvent}
  {events : List PipelineEvent} {req : RelayRequest} {n i : Nat}

theorem Steps.took (step : Steps config s event t) : Took config s event t := by
  unfold Steps RelayPipeline.step at step
  split at step
  · cases step
  cases event with
  | runs =>
    dsimp only at step
    split at step
    · cases step
    · rename_i first
      cases step
      exact .runs (Bool.not_eq_true _ ▸ first)
  | stop =>
    cases step
    exact .stop
  | forwardRpc payload =>
    cases step
    unfold RelayPipeline.forwardRpc
    split
    · rename_i stopped
      exact .refused (by simpa using stopped)
    · rename_i running
      exact .asks (by simpa using running)
  | sends i =>
    dsimp only at step
    split at step
    · cases step
    · rename_i req found
      unfold send at step
      dsimp only at step
      split at step
      · rename_i exited
        cases step
        exact .unsent found exited
      · rename_i lives
        split at step
        · rename_i room
          cases step
          exact .sends found lives room
        · cases step
  | builds built =>
    dsimp only at step
    split at step
    · rename_i building
      cases step
      cases built with
      | true => exact .builds building
      | false => exact .unbuilt building
    · cases step
  | checks =>
    dsimp only at step
    split at step
    · rename_i checking
      cases step
      split
      · rename_i running
        exact .goesOn checking running
      · rename_i stopped
        exact .exits checking (Bool.not_eq_true _ ▸ stopped)
    · cases step
  | receives =>
    dsimp only at step
    split at step
    · rename_i req channel receiving queue
      cases step
      exact .receives receiving queue
    · cases step
  | timesOut =>
    dsimp only at step
    split at step
    · rename_i receiving
      cases step
      exact .timesOut receiving
    · cases step
  | acquires i =>
    dsimp only at step
    split at step
    · rename_i permits req free found
      cases step
      unfold acquire
      cases sliced : walletPrefix config.walletPubkey with
      | error halt => exact .panics sliced
      | ok nodeWallet => exact .acquires free found sliced
    · cases step
  | answers i outcome =>
    dsimp only at step
    split at step
    · cases step
    · rename_i req found
      cases step
      exact .answers found
  | returns n =>
    dsimp only at step
    split at step
    · cases step
    · rename_i once
      obtain ⟨response, responded, rfl⟩ := Option.map_eq_some_iff.mp step
      exact .returns once responded

def bytesOf : Option RelayResponse → Option (List UInt8)
  | some (.success bytes) => some bytes
  | some (.error _) | none => none

/-- What `forward_rpc` changes when it returns. -/
theorem finish_eq (s : RelayPipeline) (n : Nat) (response : Option RelayResponse) :
    ∃ requestsServed earningsLamports, s.finish n response = { s with
      requestsServed, earningsLamports
      returned := s.returned ++ [(n, bytesOf response)] } := by
  unfold finish
  split
  · exact ⟨_, _, rfl⟩
  · exact ⟨s.requestsServed, s.earningsLamports, rfl⟩
  · exact ⟨s.requestsServed, s.earningsLamports, rfl⟩

/-! Two calls before a stop. One is posted by then, and the other one is still in the channel. -/

def twoCalls : List PipelineEvent :=
  [.runs, .forwardRpc [1], .sends 0, .builds true, .checks, .receives, .forwardRpc [3], .sends 0,
    .acquires 0, .stop]

def oneReturn : List PipelineEvent :=
  [.answers 0 (.responded 200 "200 OK" (.ok [2])), .checks, .returns 0]

theorem twoCalls_run : ∃ s t : RelayPipeline,
    Run (Steps (Relay.configOf 5)) (start (Relay.configOf 5)) twoCalls s ∧
    s.relayRunning = false ∧
    Run (Guarded (Steps (Relay.configOf 5)) fun _ event => event.IsInternal) s oneReturn t ∧
    t.returned = [(0, some [2])] ∧ t.asked = [⟨[1], 0⟩, ⟨[3], 1⟩] := by
  refine ⟨_, _, .cons rfl (.cons rfl (.cons rfl (.cons rfl (.cons rfl (.cons rfl (.cons rfl
    (.cons rfl (.cons rfl (.cons rfl (.nil _)))))))))), rfl,
    .cons ⟨rfl, trivial⟩ (.cons ⟨rfl, trivial⟩ (.cons ⟨rfl, trivial⟩ (.nil _))), rfl, rfl⟩

theorem twoCalls_returned : ∃ t : RelayPipeline,
    Run (Steps (Relay.configOf 5)) (start (Relay.configOf 5)) (twoCalls ++ oneReturn) t ∧
    t.returned = [(0, some [2])] ∧ t.asked = [⟨[1], 0⟩, ⟨[3], 1⟩] := by
  obtain ⟨s, t, run, _, alone, returned, asked⟩ := twoCalls_run
  exact ⟨t, run_append_iff.mpr ⟨s, run, alone.unguarded⟩, returned, asked⟩

/-! Places. -/

/-- Where the requests are. -/
def places (s : RelayPipeline) : List RelayRequest :=
  s.sending ++ s.channel ++ s.waiting ++ s.posting ++ s.responses.map Prod.fst ++ s.dropped

/-- Each request is in one place and has its own number, and each that was posted was posted
once. -/
structure Conserves (config : RelayConfig) (s : RelayPipeline) : Prop where
  places : ∀ req, s.places.count req = s.asked.count req
  numbered : s.asked.map RelayRequest.respond = List.range s.asked.length
  room : s.channel.length ≤ channelSize
  permits : s.permits + s.posting.length = config.maxConcurrent
  posted : ∀ body, (s.posted.map RelayPost.body).count body =
    ((s.posting ++ s.responses.map Prod.fst).map RelayRequest.payload).count body
  emptied : s.loop = .exited → s.channel = []

theorem count_eraseIdx {α : Type} [BEq α] {xs : List α} {i : Nat} {x : α}
    (found : xs[i]? = some x) (y : α) :
    xs.count y = (xs.eraseIdx i).count y + if x == y then 1 else 0 := by
  obtain ⟨inside, rfl⟩ := List.getElem?_eq_some_iff.mp found
  rw [← (List.getElem_cons_eraseIdx_perm inside).count_eq y, List.count_cons]

theorem count_places (s : RelayPipeline) (req : RelayRequest) :
    s.places.count req = s.sending.count req + s.channel.count req + s.waiting.count req +
      s.posting.count req + (s.responses.map Prod.fst).count req + s.dropped.count req := by
  simp only [places, List.count_append]

theorem exit_conserves (conserves : Conserves config s) : Conserves config s.exit := by
  refine ⟨?_, conserves.numbered, Nat.zero_le _, conserves.permits, conserves.posted, fun _ => rfl⟩
  intro req
  have := conserves.places req
  rw [count_places] at this ⊢
  simp only [exit, List.count_append, List.count_nil]
  omega

theorem step_conserves (conserves : Conserves config s) (step : Steps config s event t) :
    Conserves config t := by
  obtain ⟨places, numbered, room, permits, posted, emptied⟩ := conserves
  have counts := places
  simp only [count_places] at counts
  cases step.took with
  | runs => exact ⟨places, numbered, room, permits, posted, emptied⟩
  | stop => exact ⟨places, numbered, room, permits, posted, emptied⟩
  | refused => exact ⟨places, numbered, room, permits, posted, emptied⟩
  | builds building => exact ⟨places, numbered, room, permits, posted, nofun⟩
  | goesOn checking running => exact ⟨places, numbered, room, permits, posted, nofun⟩
  | timesOut receiving => exact ⟨places, numbered, room, permits, posted, nofun⟩
  | panics error => exact ⟨places, numbered, room, permits, posted, emptied⟩
  | asks running =>
    refine ⟨?_, ?_, room, permits, posted, emptied⟩
    · intro req
      simp only [count_places, List.count_append]
      have := counts req
      omega
    · simp [numbered, List.range_succ]
  | @unsent i req found exited =>
    refine ⟨?_, numbered, room, permits, posted, emptied⟩
    intro other
    have := counts other
    simp only [count_places, List.count_append, List.count_singleton]
    have := count_eraseIdx found other
    omega
  | @sends i req found lives space =>
    refine ⟨?_, numbered, ?_, permits, posted, fun exited => absurd exited lives⟩
    · intro other
      have := counts other
      simp only [count_places, List.count_append, List.count_singleton]
      have := count_eraseIdx found other
      omega
    · rw [List.length_append]
      exact space
  | unbuilt building => exact exit_conserves ⟨places, numbered, room, permits, posted, emptied⟩
  | exits checking stopped =>
    exact exit_conserves ⟨places, numbered, room, permits, posted, emptied⟩
  | @receives req channel receiving queue =>
    refine ⟨?_, numbered, ?_, permits, posted, nofun⟩
    · intro other
      have := counts other
      simp only [count_places, List.count_append, List.count_singleton]
      rw [queue, List.count_cons] at this
      omega
    · rw [queue, List.length_cons] at room
      dsimp only
      omega
  | @acquires i free_permits req nodeWallet free found ok =>
    refine ⟨?_, numbered, room, ?_, ?_, emptied⟩
    · intro other
      have := counts other
      simp only [count_places, List.count_append, List.count_singleton]
      have := count_eraseIdx found other
      omega
    · simp only [List.length_append, List.length_singleton]
      omega
    · intro body
      have := posted body
      simp only [List.map_append, List.count_append, List.map_cons, List.map_nil,
        List.count_singleton] at this ⊢
      omega
  | @answers i outcome req found =>
    refine ⟨?_, numbered, room, ?_, ?_, emptied⟩
    · intro other
      have := counts other
      simp only [count_places, List.count_append, List.count_singleton, List.map_append,
        List.map_cons, List.map_nil]
      have := count_eraseIdx found other
      omega
    · obtain ⟨inside, _⟩ := List.getElem?_eq_some_iff.mp found
      simp only [List.length_eraseIdx_of_lt inside]
      omega
    · intro body
      have := posted body
      simp only [List.map_append, List.count_append, List.map_cons, List.map_nil,
        List.count_singleton] at this ⊢
      have same : (s.posting.map RelayRequest.payload)[i]? = some req.payload := by
        rw [List.getElem?_map, found]
        rfl
      have := count_eraseIdx same body
      rw [List.eraseIdx_map] at this
      omega
  | @returns n response once responded =>
    obtain ⟨_, _, same⟩ := s.finish_eq n response
    rw [same]
    exact ⟨places, numbered, room, permits, posted, emptied⟩

theorem run_conserves (run : Run (Steps config) (start config) events s) : Conserves config s := by
  have first : Conserves config (start config) :=
    ⟨fun _ => rfl, rfl, Nat.zero_le _, Nat.add_zero _, fun _ => rfl, nofun⟩
  exact run.invariant (fun _ _ _ kept step => step_conserves kept step) first

/-- In every run each request that was taken is in one place: no request is lost or doubled on
its way. Each was posted at most once, the channel holds at most 32, and at most as many as
configured are posted at a time. -/
theorem requests_conserved (config : RelayConfig) (events : List PipelineEvent)
    (s : RelayPipeline) (run : Run (Steps config) (start config) events s) :
    s.places.Perm s.asked ∧ s.asked.map RelayRequest.respond = List.range s.asked.length ∧
      s.channel.length ≤ 32 ∧ s.posting.length ≤ config.maxConcurrent ∧
      (s.posted.map RelayPost.body).Perm
        ((s.posting ++ s.responses.map Prod.fst).map RelayRequest.payload) := by
  obtain ⟨places, numbered, room, permits, posted, _⟩ := run_conserves run
  refine ⟨List.perm_iff_count.mpr places, numbered, room, ?_, List.perm_iff_count.mpr posted⟩
  omega

theorem requests_conserved_twoCalls : ∃ s : RelayPipeline, s.asked = [⟨[1], 0⟩, ⟨[3], 1⟩] ∧
    s.places.Perm s.asked ∧ s.posting.length ≤ 8 := by
  obtain ⟨s, run, _, asked⟩ := twoCalls_returned
  obtain ⟨places, _, _, posting, _⟩ := requests_conserved (Relay.configOf 5) _ s run
  exact ⟨s, asked, places, posting⟩

end RelayPipeline

end Solnet.Native
