import Mathlib.Data.List.Nodup
import Mathlib.Data.List.Range
import Solnet.Native.RelayPipeline

/-! What the calls of the relay return, and that they all return once it is stopped. -/
namespace Solnet.Native
open Runs Slices Solnet.Daemon

namespace RelayPipeline

variable {config : RelayConfig} {s t : RelayPipeline} {event : PipelineEvent}
  {events : List PipelineEvent} {req : RelayRequest} {n i : Nat}

/-- Each call has returned once, with what came over its own channel, and is counted if that was
bytes. -/
structure Returns (s : RelayPipeline) : Prop where
  once : (s.returned.map Prod.fst).Nodup
  own : ∀ n result, (n, result) ∈ s.returned →
    ∃ response, s.responded n = some response ∧ result = bytesOf response
  served : s.requestsServed = s.returned.countP (fun call => call.2.isSome) % 2 ^ 64
  earned : s.earningsLamports = 100 * s.returned.countP (fun call => call.2.isSome) % 2 ^ 64

theorem Conserves.nodup (conserves : Conserves config s) :
    (s.places.map RelayRequest.respond).Nodup := by
  have perm := (List.perm_iff_count.mpr conserves.places).map RelayRequest.respond
  rw [conserves.numbered] at perm
  exact perm.nodup_iff.mpr List.nodup_range

/-- What came for a call stays. -/
theorem step_responded {response : Option RelayResponse} (conserves : Conserves config s)
    (responded : s.responded n = some response) (step : Steps config s event t) :
    t.responded n = some response := by
  have later (dropped : List RelayRequest) :
      RelayPipeline.responded { s with dropped := s.dropped ++ dropped } n = some response := by
    unfold RelayPipeline.responded at responded ⊢
    dsimp only at responded ⊢
    split at responded
    · exact responded
    · split at responded
      · rename_i lost
        rw [if_pos]
        · exact responded
        · rw [List.map_append]
          exact List.mem_append_left _ lost
      · cases responded
  cases step.took with
  | unsent => exact later _
  | unbuilt => exact later _
  | exits => exact later _
  | @answers i outcome req found =>
    have apart : n ∈ s.dropped.map RelayRequest.respond → req.respond ≠ n := by
      rintro lost rfl
      have nodup := conserves.nodup
      rw [places, List.map_append] at nodup
      have posting : req ∈ s.posting := List.mem_of_getElem? found
      have front := List.mem_map_of_mem (f := RelayRequest.respond)
        (List.mem_append_left (s.responses.map Prod.fst)
          (List.mem_append_right (s.sending ++ s.channel ++ s.waiting) posting))
      exact (List.nodup_append.mp nodup).2.2 _ front _ lost rfl
    unfold RelayPipeline.responded at responded ⊢
    dsimp only
    rw [List.find?_append]
    split at responded
    · rename_i found
      rw [found]
      exact responded
    · rename_i absent
      split at responded
      · rename_i lost
        rw [absent, List.find?_singleton, if_neg (by simpa using apart lost)]
        rw [Option.none_or, if_pos lost]
        exact responded
      · cases responded
  | @returns m response' once responded' =>
    obtain ⟨_, _, same⟩ := s.finish_eq m response'
    rw [same]
    exact responded
  | runs => exact responded
  | stop => exact responded
  | refused => exact responded
  | asks => exact responded
  | sends => exact responded
  | builds => exact responded
  | goesOn => exact responded
  | receives => exact responded
  | timesOut => exact responded
  | acquires => exact responded
  | panics => exact responded

theorem Returns.congr (returns : Returns s) (same : t.returned = s.returned)
    (served : t.requestsServed = s.requestsServed)
    (earned : t.earningsLamports = s.earningsLamports)
    (responded : ∀ n response, s.responded n = some response → t.responded n = some response) :
    Returns t := by
  refine ⟨?_, ?_, ?_, ?_⟩
  · rw [same]
    exact returns.once
  · intro n result here
    rw [same] at here
    obtain ⟨response, came, rfl⟩ := returns.own n result here
    exact ⟨response, responded n response came, rfl⟩
  · rw [served, same]
    exact returns.served
  · rw [earned, same]
    exact returns.earned

theorem finish_returns {response : Option RelayResponse} (returns : Returns s)
    (once : n ∉ s.returned.map Prod.fst) (responded : s.responded n = some response) :
    Returns (s.finish n response) := by
  obtain ⟨_, _, same⟩ := s.finish_eq n response
  have list : (s.finish n response).returned = s.returned ++ [(n, bytesOf response)] := by rw [same]
  refine ⟨?_, ?_, ?_, ?_⟩
  · rw [list, List.map_append, List.map_singleton, ← List.concat_eq_append]
    exact List.Nodup.concat once returns.once
  · intro m result here
    rw [list] at here
    rw [same]
    rcases List.mem_append.mp here with earlier | new
    · exact returns.own m result earlier
    · obtain ⟨rfl, rfl⟩ := Prod.mk.inj (List.mem_singleton.mp new)
      exact ⟨response, responded, rfl⟩
  · rw [list, List.countP_append, List.countP_singleton]
    unfold finish bytesOf
    split
    · simp [returns.served]
    · simp [returns.served]
    · simp [returns.served]
  · rw [list, List.countP_append, List.countP_singleton]
    unfold finish bytesOf
    split
    · simp [returns.earned, Nat.mul_add]
    · simp [returns.earned]
    · simp [returns.earned]

theorem step_returns (conserves : Conserves config s) (returns : Returns s)
    (step : Steps config s event t) : Returns t := by
  have came (n : Nat) (response : Option RelayResponse) (before : s.responded n = some response) :
      t.responded n = some response := step_responded conserves before step
  cases step.took with
  | returns once responded => exact finish_returns returns once responded
  | runs => exact returns.congr rfl rfl rfl came
  | stop => exact returns.congr rfl rfl rfl came
  | refused => exact returns
  | asks => exact returns.congr rfl rfl rfl came
  | unsent => exact returns.congr rfl rfl rfl came
  | sends => exact returns.congr rfl rfl rfl came
  | builds => exact returns.congr rfl rfl rfl came
  | unbuilt => exact returns.congr rfl rfl rfl came
  | goesOn => exact returns.congr rfl rfl rfl came
  | exits => exact returns.congr rfl rfl rfl came
  | receives => exact returns.congr rfl rfl rfl came
  | timesOut => exact returns.congr rfl rfl rfl came
  | acquires => exact returns.congr rfl rfl rfl came
  | panics => exact returns.congr rfl rfl rfl came
  | answers => exact returns.congr rfl rfl rfl came

theorem run_sound (run : Run (Steps config) (start config) events s) :
    Conserves config s ∧ Returns s := by
  have first : Conserves config (start config) ∧ Returns (start config) :=
    ⟨run_conserves (.nil _), List.nodup_nil, nofun, rfl, rfl⟩
  exact run.invariant (I := fun s => Conserves config s ∧ Returns s)
    (fun _ _ _ sound step =>
      ⟨step_conserves sound.1 step, step_returns sound.1 sound.2 step⟩) first

theorem Conserves.respond_eq (conserves : Conserves config s) (here : s.asked[n]? = some req) :
    req.respond = n := by
  have inside : n < s.asked.length := (List.getElem?_eq_some_iff.mp here).1
  have number : (s.asked.map RelayRequest.respond)[n]? = (List.range s.asked.length)[n]? :=
    congrArg (·[n]?) conserves.numbered
  rw [List.getElem?_map, here, List.getElem?_range inside] at number
  exact Option.some.inj number

/-- The request with a number is the one that was asked for by then. -/
theorem Conserves.asked_of_mem (conserves : Conserves config s) (member : req ∈ s.places) :
    s.asked[req.respond]? = some req := by
  have member := (List.perm_iff_count.mpr conserves.places).mem_iff.mp member
  obtain ⟨n, here⟩ := List.mem_iff_getElem?.mp member
  rwa [conserves.respond_eq here]

/-- A call returns once. It returns bytes only when they are those of a response to its own
request, and each call that returns bytes is counted and earns 100 lamports. -/
theorem calls_return_own (config : RelayConfig) (events : List PipelineEvent) (s : RelayPipeline)
    (run : Run (Steps config) (start config) events s) :
    (s.returned.map Prod.fst).Nodup ∧
      (∀ n result, (n, result) ∈ s.returned → ∃ req, s.asked[n]? = some req ∧
        ((∃ bytes, result = some bytes ∧ (req, .success bytes) ∈ s.responses) ∨
          result = none ∧ (req ∈ s.dropped ∨ ∃ message, (req, .error message) ∈ s.responses))) ∧
      s.requestsServed = s.returned.countP (fun call => call.2.isSome) % 2 ^ 64 ∧
      s.earningsLamports = 100 * s.returned.countP (fun call => call.2.isSome) % 2 ^ 64 := by
  obtain ⟨conserves, once, own, served, earned⟩ := run_sound run
  refine ⟨once, ?_, served, earned⟩
  intro n result here
  obtain ⟨response, came, rfl⟩ := own n result here
  unfold responded at came
  split at came
  · rename_i req answer found
    obtain rfl := Option.some.inj came
    have member := List.mem_of_find?_eq_some found
    have number : req.respond = n := by simpa using List.find?_some found
    have place : req ∈ s.places :=
      List.mem_append_left _ (List.mem_append_right _ (List.mem_map_of_mem member))
    refine ⟨req, number ▸ conserves.asked_of_mem place, ?_⟩
    cases answer with
    | success bytes => exact .inl ⟨bytes, rfl, member⟩
    | error message => exact .inr ⟨rfl, .inr ⟨message, member⟩⟩
  · split at came
    · rename_i lost
      obtain rfl := Option.some.inj came
      obtain ⟨req, member, rfl⟩ := List.mem_map.mp lost
      have place : req ∈ s.places := List.mem_append_right _ member
      exact ⟨req, conserves.asked_of_mem place, .inr ⟨rfl, .inl member⟩⟩
    · cases came

theorem calls_return_own_twoCalls : ∃ s : RelayPipeline, s.returned = [(0, some [2])] ∧
    (⟨[1], 0⟩, .success [2]) ∈ s.responses ∧ s.requestsServed = 1 ∧ s.earningsLamports = 100 := by
  obtain ⟨s, run, returned, asked⟩ := twoCalls_returned
  obtain ⟨_, own, served, earned⟩ := calls_return_own (Relay.configOf 5) _ s run
  rw [returned] at own served earned
  obtain ⟨req, here, ⟨bytes, same, response⟩ | ⟨none, _⟩⟩ := own 0 (some [2]) List.mem_cons_self
  · rw [asked] at here
    obtain rfl := Option.some.inj here
    obtain rfl := Option.some.inj same
    exact ⟨s, returned, response, served, earned⟩
  · cases none

/-! After a stop. -/

def AllReturned (s : RelayPipeline) : Prop :=
  ∀ n, n < s.asked.length → n ∈ s.returned.map Prod.fst

/-- How many steps are left at most. -/
def toDo (s : RelayPipeline) : Nat :=
  5 * s.sending.length + 4 * s.channel.length + 3 * s.waiting.length + 2 * s.posting.length +
    (s.asked.length - s.returned.length) +
    match s.loop with
    | .building | .receiving => 2
    | .checking => 1
    | .exited => 0

theorem step_running {nodeWallet : String} (ok : walletPrefix config.walletPubkey = .ok nodeWallet)
    (running : s.halted = none) (step : Steps config s event t) : t.halted = none := by
  cases step.took with
  | panics error => cases ok.symm.trans error
  | @returns n response once responded =>
    obtain ⟨_, _, same⟩ := s.finish_eq n response
    rw [same]
    exact running
  | runs => exact running
  | stop => exact running
  | refused => exact running
  | asks => exact running
  | unsent => exact running
  | sends => exact running
  | builds => exact running
  | unbuilt => exact running
  | goesOn => exact running
  | exits => exact running
  | receives => exact running
  | timesOut => exact running
  | acquires => exact running
  | answers => exact running

theorem responded_lt {response : Option RelayResponse} (conserves : Conserves config s)
    (responded : s.responded n = some response) : n < s.asked.length := by
  have asked (req : RelayRequest) (place : req ∈ s.places) : req.respond < s.asked.length :=
    (List.getElem?_eq_some_iff.mp (conserves.asked_of_mem place)).1
  unfold RelayPipeline.responded at responded
  split at responded
  · rename_i req answer found
    have member := List.mem_of_find?_eq_some found
    have number : req.respond = n := by simpa using List.find?_some found
    rw [← number]
    exact asked req
      (List.mem_append_left _ (List.mem_append_right _ (List.mem_map_of_mem member)))
  · split at responded
    · rename_i lost
      obtain ⟨req, member, rfl⟩ := List.mem_map.mp lost
      exact asked req (List.mem_append_right _ member)
    · cases responded

theorem returned_le (conserves : Conserves config s) (returns : Returns s) :
    s.returned.length ≤ s.asked.length := by
  have numbers : s.returned.map Prod.fst ⊆ List.range s.asked.length := by
    intro n member
    obtain ⟨⟨_, result⟩, here, rfl⟩ := List.mem_map.mp member
    obtain ⟨response, responded, _⟩ := returns.own _ result here
    exact List.mem_range.mpr (responded_lt conserves responded)
  have fewer := (returns.once.subperm numbers).length_le
  rwa [List.length_map, List.length_range] at fewer

/-- Each step of its own brings a stopped relay nearer to its end. -/
theorem step_toDo {nodeWallet : String} (ok : walletPrefix config.walletPubkey = .ok nodeWallet)
    (conserves : Conserves config s) (returns : Returns s) (stopped : s.relayRunning = false)
    (internal : event.IsInternal) (step : Steps config s event t) :
    t.relayRunning = false ∧ t.toDo < s.toDo := by
  have after := returned_le (step_conserves conserves step) (step_returns conserves returns step)
  cases step.took with
  | runs => exact internal.elim
  | stop => exact internal.elim
  | refused => exact internal.elim
  | asks => exact internal.elim
  | @unsent i req found exited =>
    obtain ⟨inside, _⟩ := List.getElem?_eq_some_iff.mp found
    refine ⟨stopped, ?_⟩
    simp only [toDo, List.length_eraseIdx_of_lt inside]
    omega
  | @sends i req found lives room =>
    obtain ⟨inside, _⟩ := List.getElem?_eq_some_iff.mp found
    refine ⟨stopped, ?_⟩
    simp only [toDo, List.length_eraseIdx_of_lt inside, List.length_append, List.length_singleton]
    omega
  | builds building =>
    refine ⟨stopped, ?_⟩
    simp only [toDo, building]
    omega
  | unbuilt building =>
    refine ⟨stopped, ?_⟩
    simp only [toDo, exit, building, List.length_nil]
    omega
  | goesOn checking running => cases stopped.symm.trans running
  | exits checking _ =>
    refine ⟨stopped, ?_⟩
    simp only [toDo, exit, checking, List.length_nil]
    omega
  | receives receiving queue =>
    refine ⟨stopped, ?_⟩
    simp only [toDo, receiving, queue, List.length_append, List.length_cons, List.length_nil]
    omega
  | timesOut receiving =>
    refine ⟨stopped, ?_⟩
    simp only [toDo, receiving]
    omega
  | @acquires i permits req _ free found _ =>
    obtain ⟨inside, _⟩ := List.getElem?_eq_some_iff.mp found
    refine ⟨stopped, ?_⟩
    simp only [toDo, List.length_eraseIdx_of_lt inside, List.length_append, List.length_singleton]
    omega
  | panics error => cases ok.symm.trans error
  | @answers i outcome req found =>
    obtain ⟨inside, _⟩ := List.getElem?_eq_some_iff.mp found
    refine ⟨stopped, ?_⟩
    simp only [toDo, List.length_eraseIdx_of_lt inside]
    omega
  | @returns n response once responded =>
    obtain ⟨_, _, same⟩ := s.finish_eq n response
    rw [same] at after ⊢
    refine ⟨stopped, ?_⟩
    simp only [List.length_append, List.length_singleton] at after
    simp only [toDo, List.length_append, List.length_singleton]
    omega

theorem responded_of_mem (ended : req ∈ s.responses.map Prod.fst ++ s.dropped) :
    ∃ response, s.responded req.respond = some response := by
  unfold responded
  split
  · exact ⟨_, rfl⟩
  · rename_i absent
    have lost : req ∈ s.dropped := by
      refine (List.mem_append.mp ended).resolve_left fun answered => ?_
      obtain ⟨answer, member, rfl⟩ := List.mem_map.mp answered
      simpa using List.find?_eq_none.mp absent answer member
    rw [if_pos (List.mem_map_of_mem lost)]
    exact ⟨none, rfl⟩

/-- A call whose request has come to its end can return. -/
theorem returns_left (conserves : Conserves config s) (running : s.halted = none)
    (unfinished : ¬ s.AllReturned)
    (ended : s.places = s.responses.map Prod.fst ++ s.dropped) :
    ∃ event t, event.IsInternal ∧ Steps config s event t := by
  obtain ⟨n, missing⟩ := not_forall.mp unfinished
  obtain ⟨asked, once⟩ := Classical.not_imp.mp missing
  have place : s.asked[n] ∈ s.places :=
    (List.perm_iff_count.mpr conserves.places).mem_iff.mpr (List.getElem_mem asked)
  have number : s.asked[n].respond = n :=
    conserves.respond_eq (List.getElem?_eq_getElem asked)
  rw [ended] at place
  obtain ⟨response, responded⟩ := responded_of_mem place
  rw [number] at responded
  exact ⟨.returns n, s.finish n response, trivial, by
    simp only [Steps, step, running, Option.isSome_none, Bool.false_eq_true, if_false, if_neg once,
      responded, Option.map_some]⟩

/-- Unless all calls have returned, the relay can take a step of its own. -/
theorem exists_step (some_permit : 1 ≤ config.maxConcurrent) (conserves : Conserves config s)
    (running : s.halted = none) (unfinished : ¬ s.AllReturned) :
    ∃ event t, event.IsInternal ∧ Steps config s event t := by
  cases loop : s.loop with
  | building => exact ⟨.builds true, _, trivial, by simp only [Steps, step, running, loop]; rfl⟩
  | checking => exact ⟨.checks, _, trivial, by simp only [Steps, step, running, loop]; rfl⟩
  | receiving => exact ⟨.timesOut, _, trivial, by simp only [Steps, step, running, loop]; rfl⟩
  | exited =>
    cases sending : s.sending with
    | cons req others =>
      have found : s.sending[0]? = some req := by rw [sending, List.getElem?_cons_zero]
      exact ⟨.sends 0, _, trivial, by simp only [Steps, step, running, found, send, loop]; rfl⟩
    | nil =>
      cases posting : s.posting with
      | cons req others =>
        have found : s.posting[0]? = some req := by rw [posting, List.getElem?_cons_zero]
        exact ⟨.answers 0 (.failed ""), _, trivial,
          by simp only [Steps, step, running, found]; rfl⟩
      | nil =>
        cases waiting : s.waiting with
        | cons req others =>
          have found : s.waiting[0]? = some req := by rw [waiting, List.getElem?_cons_zero]
          have permits := conserves.permits
          rw [posting, List.length_nil, Nat.add_zero] at permits
          obtain ⟨more, free⟩ : ∃ more, s.permits = more + 1 := ⟨s.permits - 1, by omega⟩
          exact ⟨.acquires 0, _, trivial, by simp only [Steps, step, running, found, free]; rfl⟩
        | nil =>
          exact returns_left conserves running unfinished (by
            simp only [places, sending, conserves.emptied loop, waiting, posting,
              List.nil_append])

/-- Once a relay is stopped, its calls return: its own steps come to an end, and there is a next
one until each call has returned. -/
theorem stopped_calls_return (config : RelayConfig) (safe : config.SafeToRun)
    (events : List PipelineEvent) (s : RelayPipeline)
    (run : Run (Steps config) (start config) events s) (stopped : s.relayRunning = false)
    (more : List PipelineEvent) (t : RelayPipeline)
    (alone : Run (Guarded (Steps config) fun _ event => event.IsInternal) s more t) :
    more.length ≤ s.toDo ∧
      (t.AllReturned ∨ ∃ event t', event.IsInternal ∧ Steps config t event t') := by
  obtain ⟨nodeWallet, ok⟩ := RelayConfig.prefix_of_safe safe
  obtain ⟨conserves, returns⟩ := run_sound run
  have running : s.halted = none :=
    run.invariant (fun _ _ _ running step => step_running ok running step) rfl
  clear run
  induction alone with
  | nil s =>
    refine ⟨Nat.zero_le _, ?_⟩
    by_cases all : s.AllReturned
    · exact .inl all
    · exact .inr (exists_step safe.somePermit conserves running all)
  | cons guarded _ ih =>
    obtain ⟨step, internal⟩ := guarded
    obtain ⟨stopped', less⟩ := step_toDo ok conserves returns stopped internal step
    obtain ⟨short, ends⟩ := ih stopped' (step_conserves conserves step)
      (step_returns conserves returns step) (step_running ok running step)
    exact ⟨Nat.lt_of_le_of_lt short less, ends⟩

/-- The other call is still to return. -/
theorem stopped_calls_return_twoCalls : ∃ s t : RelayPipeline,
    Run (Guarded (Steps (Relay.configOf 5)) fun _ event => event.IsInternal) s oneReturn t ∧
    ∃ event t', event.IsInternal ∧ Steps (Relay.configOf 5) t event t' := by
  obtain ⟨s, t, run, stopped, alone, returned, asked⟩ := twoCalls_run
  have safe : (Relay.configOf 5).SafeToRun :=
    RelayConfig.safe_of_prefix rfl (by decide) (by decide)
  obtain ⟨_, all | next⟩ := stopped_calls_return (Relay.configOf 5) safe twoCalls s run stopped
    oneReturn t alone
  · have second := all 1 (by rw [asked]; decide)
    rw [returned] at second
    exact absurd second (by decide)
  · exact ⟨s, t, alone, next⟩

end RelayPipeline

end Solnet.Native
