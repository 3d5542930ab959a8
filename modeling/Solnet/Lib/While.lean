import Mathlib.Logic.Relation

/-! While loops whose body can fail, with the variant that makes them end. The
rules are those of a while statement: unfolding, partial correctness from an
invariant, and totality when the invariant keeps the body from failing. -/
namespace While

variable {S E : Type*}

structure Loop (S E : Type*) where
  guard : S → Bool
  body : S → Except E S
  variant : S → Nat
  decreases : ∀ s t, guard s = true → body s = .ok t → variant t < variant s

def Loop.run (loop : Loop S E) (s : S) : Except E S :=
  if _go : loop.guard s = true then
    match _turn : loop.body s with
    | .error e => .error e
    | .ok t => loop.run t
  else .ok s
termination_by loop.variant s
decreasing_by exact loop.decreases s t _go _turn

/-- A turn of the loop that does not fail. -/
def Loop.Turn (loop : Loop S E) (s t : S) : Prop :=
  loop.guard s = true ∧ loop.body s = .ok t

variable {loop : Loop S E} {s t : S} {e : E}

theorem run_done (stop : loop.guard s = false) : loop.run s = .ok s := by
  rw [Loop.run]
  simp only [stop, Bool.false_eq_true, dite_false]

theorem run_turn (go : loop.guard s = true) (turn : loop.body s = .ok t) :
    loop.run s = loop.run t := by
  rw [Loop.run]
  simp only [go, dite_true]
  split
  · rename_i failed
    rw [turn] at failed
    cases failed
  · rename_i t' turn'
    rw [Except.ok.inj (turn.symm.trans turn')]

theorem run_fail (go : loop.guard s = true) (turn : loop.body s = .error e) :
    loop.run s = .error e := by
  rw [Loop.run]
  simp only [go, dite_true]
  split
  · rename_i e' failed
    rw [Except.error.inj (turn.symm.trans failed)]
  · rename_i turn'
    rw [turn] at turn'
    cases turn'

/-- Partial correctness: the invariant and the negated guard hold at the exit. -/
theorem run_invariant {I : S → Prop}
    (keeps : ∀ s t, loop.guard s = true → I s → loop.body s = .ok t → I t)
    (start : I s) (ok : loop.run s = .ok t) : I t ∧ loop.guard t = false := by
  induction s using Loop.run.induct loop with
  | case1 s go e failed =>
    rw [run_fail go failed] at ok
    cases ok
  | case2 s go u turn ih =>
    rw [run_turn go turn] at ok
    exact ih (keeps s u go start turn) ok
  | case3 s stop =>
    have halt : loop.guard s = false := by simpa using stop
    rw [run_done halt] at ok
    obtain rfl := Except.ok.inj ok
    exact ⟨start, halt⟩

/-- Totality: the invariant keeps the body from failing. -/
theorem run_total {I : S → Prop}
    (turns : ∀ s, loop.guard s = true → I s → ∃ t, loop.body s = .ok t ∧ I t) (start : I s) :
    ∃ t, loop.run s = .ok t ∧ I t ∧ loop.guard t = false := by
  induction s using Loop.run.induct loop with
  | case1 s go e failed =>
    obtain ⟨t, turn, _⟩ := turns s go start
    cases turn.symm.trans failed
  | case2 s go u turn ih =>
    obtain ⟨t, turn', inv⟩ := turns s go start
    obtain rfl : t = u := Except.ok.inj (turn'.symm.trans turn)
    rw [run_turn go turn]
    exact ih inv
  | case3 s stop =>
    have halt : loop.guard s = false := by simpa using stop
    exact ⟨s, run_done halt, start, halt⟩

/-- Failure: the invariant keeps the guard, and from it a turn that does not keep the
invariant fails, which happens in the end since the variant falls. -/
theorem run_fails {I F : S → Prop}
    (turns : ∀ s, I s → loop.guard s = true ∧
      ((∃ t, loop.body s = .ok t ∧ I t) ∨ loop.body s = .error e ∧ F s)) (start : I s) :
    loop.run s = .error e ∧ ∃ u, Relation.ReflTransGen loop.Turn s u ∧ F u := by
  induction s using Loop.run.induct loop with
  | case1 s go e' failed =>
    obtain ⟨t, turn, _⟩ | ⟨failed', fails⟩ := (turns s start).2
    · cases turn.symm.trans failed
    · exact ⟨run_fail go failed', s, .refl, fails⟩
  | case2 s go u turn ih =>
    obtain ⟨t, turn', inv⟩ | ⟨failed, _⟩ := (turns s start).2
    · obtain rfl : t = u := Except.ok.inj (turn'.symm.trans turn)
      obtain ⟨failed, v, reached, fails⟩ := ih inv
      rw [run_turn go turn]
      exact ⟨failed, v, .head ⟨go, turn⟩ reached, fails⟩
    · cases turn.symm.trans failed
  | case3 s stop => exact absurd (turns s start).1 stop

end While
