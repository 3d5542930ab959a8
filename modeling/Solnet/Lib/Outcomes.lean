import Solnet.Lib.Fallible

/-! What fallible computations come to, put together along their sequencing: one that
succeeds with a result of some kind, and two that fail alike or have related results. -/
namespace Fallible

variable {E α α' β β' : Type}

/-- The computation succeeds, with a result that has the property. -/
def Answers (P : α → Prop) (x : Except E α) : Prop := ∃ a, x = .ok a ∧ P a

/-- The computation succeeds with a result that has the one property, or fails for a reason
that has the other. -/
inductive Ends (P : α → Prop) (Q : E → Prop) : Except E α → Prop where
  | ok {a : α} (holds : P a) : Ends P Q (.ok a)
  | error {e : E} (cause : Q e) : Ends P Q (.error e)

inductive Relates (R : α → β → Prop) : Except E α → Except E β → Prop where
  | ok {a : α} {b : β} (related : R a b) : Relates R (.ok a) (.ok b)
  | error (e : E) : Relates R (.error e) (.error e)

theorem Answers.pure {P : α → Prop} {a : α} (holds : P a) :
    Answers P (Pure.pure a : Except E α) :=
  ⟨a, rfl, holds⟩

theorem Answers.bind {P : α → Prop} {Q : α' → Prop} {x : Except E α} {f : α → Except E α'}
    (first : Answers P x) (rest : ∀ a, P a → Answers Q (f a)) : Answers Q (x >>= f) := by
  obtain ⟨a, rfl, holds⟩ := first
  exact rest a holds

theorem Answers.ends {P : α → Prop} {Q : E → Prop} {x : Except E α} (answers : Answers P x) :
    Ends P Q x := by
  obtain ⟨a, rfl, holds⟩ := answers
  exact .ok holds

theorem Ends.bind {P : α → Prop} {P' : α' → Prop} {Q : E → Prop} {x : Except E α}
    {f : α → Except E α'} (first : Ends P Q x) (rest : ∀ a, P a → Ends P' Q (f a)) :
    Ends P' Q (x >>= f) := by
  cases first with
  | ok holds => exact rest _ holds
  | error cause => exact .error cause

theorem Ends.mono {P P' : α → Prop} {Q Q' : E → Prop} {x : Except E α} (ends : Ends P Q x)
    (weaker : ∀ a, P a → P' a) (causes : ∀ e, Q e → Q' e) : Ends P' Q' x := by
  cases ends with
  | ok holds => exact .ok (weaker _ holds)
  | error cause => exact .error (causes _ cause)

theorem Ends.map {P : α' → Prop} {Q : E → Prop} {x : Except E α} {f : α → α'}
    (ends : Ends (fun a => P (f a)) Q x) : Ends P Q (x.map f) := by
  cases ends with
  | ok holds => exact .ok holds
  | error cause => exact .error cause

theorem answers_addWithin {width a b : Nat} {failure : E} (fits : a + b < 2 ^ width) :
    Answers (· = a + b) (addWithin width failure a b) :=
  ⟨a + b, if_pos fits, rfl⟩

theorem Relates.bind {R : α → β → Prop} {S : α' → β' → Prop} {x : Except E α} {y : Except E β}
    {f : α → Except E α'} {g : β → Except E β'} (first : Relates R x y)
    (rest : ∀ a b, R a b → Relates S (f a) (g b)) : Relates S (x >>= f) (y >>= g) := by
  cases first with
  | ok related => exact rest _ _ related
  | error e => exact .error e

/-- The first computation alone goes on. -/
theorem Relates.bind_left {R : α → β → Prop} {S : α' → β → Prop} {x : Except E α}
    {y : Except E β} {f : α → Except E α'} (first : Relates R x y)
    (rest : ∀ a b, R a b → Relates S (f a) (.ok b)) : Relates S (x >>= f) y := by
  cases first with
  | ok related => exact rest _ _ related
  | error e => exact .error e

/-- One computation twice, with two continuations. -/
theorem Relates.bind_same {S : α' → β' → Prop} {x : Except E α} {f : α → Except E α'}
    {g : α → Except E β'} (rest : ∀ a, x = .ok a → Relates S (f a) (g a)) :
    Relates S (x >>= f) (x >>= g) := by
  cases x with
  | ok a => exact rest a rfl
  | error e => exact .error e

theorem Relates.map_eq {R : α → β → Prop} {f : α → α'} {g : β → α'} {x : Except E α}
    {y : Except E β} (related : Relates R x y) (same : ∀ a b, R a b → f a = g b) :
    x.map f = y.map g := by
  cases related with
  | ok related => exact congrArg Except.ok (same _ _ related)
  | error e => rfl

end Fallible
