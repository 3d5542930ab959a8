import Mathlib.Data.List.Infix

/-! Runs of a labelled transition relation. Two rules carry the safety results:
an invariant kept by each step holds after every run, and a property that a step
keeps exactly under some condition holds all along a run exactly when every step
of the run meets that condition. -/
namespace Runs

variable {S A : Type*}

inductive Run (R : S → A → S → Prop) : S → List A → S → Prop where
  | nil (s : S) : Run R s [] s
  | cons {s t u : S} {a : A} {as : List A} : R s a t → Run R t as u → Run R s (a :: as) u

/-- The steps that meet a condition on the state before them and their label. -/
def Guarded (R : S → A → S → Prop) (C : S → A → Prop) (s : S) (a : A) (t : S) : Prop :=
  R s a t ∧ C s a

def Deterministic (R : S → A → S → Prop) : Prop :=
  ∀ s a t u, R s a t → R s a u → t = u

/-- The property holds in every state the run passes through, both ends included. -/
def Always (R : S → A → S → Prop) (P : S → Prop) (s : S) (as : List A) : Prop :=
  ∀ pre t, pre <+: as → Run R s pre t → P t

/-- The property of a state and a label holds at every step of the run. -/
def EachStep (R : S → A → S → Prop) (Q : S → A → Prop) (s : S) (as : List A) : Prop :=
  ∀ pre a post t u, as = pre ++ a :: post → Run R s pre t → R t a u → Q t a

/-- The relation with a history variable, which notes the state before a step and its label. -/
def Traced {H : Type*} (R : S → A → S → Prop) (note : S → A → H → H) :
    S × H → A → S × H → Prop :=
  fun x a y => R x.1 a y.1 ∧ y.2 = note x.1 a x.2

variable {R T : S → A → S → Prop} {C Q : S → A → Prop} {I P : S → Prop}

theorem traced_of {H : Type*} {note : S → A → H → H} {s t : S} {a : A} (step : R s a t) (h : H) :
    Traced R note (s, h) a (t, note s a h) :=
  ⟨step, rfl⟩

theorem run_nil_iff {s u : S} : Run R s [] u ↔ s = u := by
  constructor
  · intro h; cases h; rfl
  · rintro rfl; exact .nil s

theorem run_cons_iff {s u : S} {a : A} {as : List A} :
    Run R s (a :: as) u ↔ ∃ t, R s a t ∧ Run R t as u := by
  constructor
  · intro h
    cases h with
    | cons step rest => exact ⟨_, step, rest⟩
  · rintro ⟨t, step, rest⟩
    exact .cons step rest

theorem run_append_iff {s u : S} {as bs : List A} :
    Run R s (as ++ bs) u ↔ ∃ t, Run R s as t ∧ Run R t bs u := by
  induction as generalizing s with
  | nil => simp only [List.nil_append, run_nil_iff, exists_eq_left']
  | cons a as ih =>
    simp only [List.cons_append, run_cons_iff, ih]
    constructor
    · rintro ⟨t, step, w, left, right⟩
      exact ⟨w, ⟨t, step, left⟩, right⟩
    · rintro ⟨w, ⟨t, step, left⟩, right⟩
      exact ⟨t, step, w, left, right⟩

theorem Run.mono (sub : ∀ s a t, R s a t → T s a t) {s u : S} {as : List A}
    (run : Run R s as u) : Run T s as u := by
  induction run with
  | nil s => exact .nil s
  | cons step _ ih => exact .cons (sub _ _ _ step) ih

theorem Run.unguarded {s u : S} {as : List A} (run : Run (Guarded R C) s as u) : Run R s as u :=
  run.mono fun _ _ _ step => step.1

theorem Run.guarded {s u : S} {as : List A} (run : Run R s as u) (all : ∀ a ∈ as, ∀ s, C s a) :
    Run (Guarded R C) s as u := by
  induction run with
  | nil s => exact .nil s
  | cons step _ ih =>
    exact .cons ⟨step, all _ List.mem_cons_self _⟩ (ih fun a member => all a
      (List.mem_cons_of_mem _ member))

/-- The invariant rule. -/
theorem Run.invariant (keeps : ∀ s a t, I s → R s a t → I t) {s u : S} {as : List A}
    (run : Run R s as u) (start : I s) : I u := by
  induction run with
  | nil s => exact start
  | cons step _ ih => exact ih (keeps _ _ _ start step)

/-- The invariant rule for a property of the state and the labels so far. -/
theorem Run.history {J : List A → S → Prop}
    (keeps : ∀ done s a t, J done s → R s a t → J (done ++ [a]) t) {s u : S} {as : List A}
    (run : Run R s as u) {done : List A} (start : J done s) : J (done ++ as) u := by
  induction run generalizing done with
  | nil s => simpa only [List.append_nil] using start
  | @cons s t u a as step _ ih =>
    simpa only [List.append_assoc, List.singleton_append] using ih (keeps done s a t start step)

/-- The simulation rule for selected steps: another machine takes those alone. The relation
may look at the labels still to come. -/
theorem Run.project {W : Type*} {R' : W → A → W → Prop} {mine : A → Bool}
    {Sim : S → W → List A → Prop}
    (own : ∀ s a s' t as, Sim s t (a :: as) → R s a s' → mine a = true →
      ∃ t', R' t a t' ∧ Sim s' t' as)
    (other : ∀ s a s' t as, Sim s t (a :: as) → R s a s' → mine a = false → Sim s' t as)
    {s u : S} {as : List A} (run : Run R s as u) {t : W} (start : Sim s t as) :
    ∃ v, Run R' t (as.filter mine) v ∧ Sim u v [] := by
  induction run generalizing t with
  | nil s => exact ⟨t, .nil t, start⟩
  | @cons s s' u a as step _ ih =>
    cases selected : mine a with
    | true =>
      obtain ⟨t', step', next⟩ := own s a s' t as start step selected
      obtain ⟨v, rest, final⟩ := ih next
      rw [List.filter_cons_of_pos selected]
      exact ⟨v, .cons step' rest, final⟩
    | false =>
      obtain ⟨v, rest, final⟩ := ih (other s a s' t as start step selected)
      rw [List.filter_cons_of_neg (by simp [selected])]
      exact ⟨v, rest, final⟩

/-- A run reaches the property when, short of it, some step keeps the invariant and comes
closer. -/
theorem exists_run_of_measure (measure : S → Nat)
    (closer : ∀ s, I s → ¬ P s → ∃ a t, R s a t ∧ I t ∧ measure t < measure s) {s : S}
    (start : I s) : ∃ as u, Run R s as u ∧ P u := by
  induction left : measure s using Nat.strong_induction_on generalizing s with
  | h n ih =>
    by_cases reached : P s
    · exact ⟨[], s, .nil s, reached⟩
    · obtain ⟨a, t, step, inv, less⟩ := closer s start reached
      obtain ⟨as, u, run, here⟩ := ih (measure t) (left ▸ less) inv rfl
      exact ⟨a :: as, u, .cons step run, here⟩

theorem Run.deterministic (det : Deterministic R) {s t u : S} {as : List A}
    (left : Run R s as t) (right : Run R s as u) : t = u := by
  induction left with
  | nil s => exact run_nil_iff.mp right
  | cons step _ ih =>
    obtain ⟨w, step', rest⟩ := run_cons_iff.mp right
    exact ih (det _ _ _ _ step step' ▸ rest)

/-- The invariant rule for each state of a guarded run. -/
theorem Run.always (det : Deterministic R) (keeps : ∀ s a t, I s → R s a t → C s a → I t)
    (shows : ∀ s, I s → P s) {s u : S} {as : List A} (run : Run (Guarded R C) s as u)
    (start : I s) : Always R P s as := by
  rintro pre t ⟨post, rfl⟩ part
  obtain ⟨t', guarded, _⟩ := run_append_iff.mp run
  obtain rfl : t' = t := guarded.unguarded.deterministic det part
  exact shows t' (guarded.invariant (fun s a t inv step => keeps s a t inv step.1 step.2) start)

theorem deterministic_of_option (advance : S → A → Option S) :
    Deterministic fun s a t => advance s a = some t := by
  intro s a t u first second
  exact Option.some.inj (first.symm.trans second)

theorem Deterministic.traced {H : Type*} {note : S → A → H → H} (det : Deterministic R) :
    Deterministic (Traced R note) := by
  rintro ⟨s, h⟩ a ⟨t, h'⟩ ⟨u, h''⟩ ⟨left, rfl⟩ ⟨right, rfl⟩
  obtain rfl : t = u := det s a t u left right
  rfl

theorem Run.traced {H : Type*} (note : S → A → H → H) {s u : S} {as : List A} (run : Run R s as u)
    (h : H) : ∃ h', Run (Traced R note) (s, h) as (u, h') := by
  induction run generalizing h with
  | nil s => exact ⟨h, .nil _⟩
  | @cons s t u a as step _ ih =>
    obtain ⟨h', rest⟩ := ih (note s a h)
    exact ⟨h', .cons ⟨step, rfl⟩ rest⟩

theorem always_cons_iff (det : Deterministic R) {s t : S} {a : A} {as : List A} (step : R s a t) :
    Always R P s (a :: as) ↔ P s ∧ Always R P t as := by
  constructor
  · intro all
    refine ⟨all [] s List.nil_prefix (.nil s), ?_⟩
    intro pre u sub run
    exact all (a :: pre) u (List.prefix_cons_inj a |>.mpr sub) (.cons step run)
  · rintro ⟨here, later⟩ pre u sub run
    cases run with
    | nil => exact here
    | cons step' run' =>
      obtain ⟨rfl, sub'⟩ := List.cons_prefix_cons.mp sub
      exact later _ u sub' (det _ _ _ _ step step' ▸ run')

/-- A property `Q` that follows from `P` holds all along a run exactly when each step meets
the condition, provided that from `P` a step either meets it and keeps `P`, or leads to a state
from which each run that ends in `E` loses `Q`. -/
theorem always_iff_guarded_of_dooms (det : Deterministic R) {P Q D E : S → Prop}
    (shows : ∀ s, P s → Q s)
    (exact : ∀ s a t, P s → R s a t → C s a ∧ P t ∨ ¬ C s a ∧ D t)
    (dooms : ∀ t as u, D t → Run R t as u → E u → ¬ Always R Q t as)
    {s u : S} {as : List A} (run : Run R s as u) (final : E u) (start : P s) :
    Always R Q s as ↔ Run (Guarded R C) s as u := by
  induction run with
  | nil s =>
    refine ⟨fun _ => .nil s, fun _ pre t sub run => ?_⟩
    obtain rfl := List.prefix_nil.mp sub
    exact run_nil_iff.mp run ▸ shows s start
  | @cons s t u a as step rest ih =>
    rw [always_cons_iff det step]
    constructor
    · rintro ⟨_, later⟩
      rcases exact s a t start step with ⟨cond, kept⟩ | ⟨_, doomed⟩
      · exact .cons ⟨step, cond⟩ ((ih final kept).mp later)
      · exact absurd later (dooms t as u doomed rest final)
    · intro guarded
      obtain ⟨w, ⟨step', cond⟩, rest'⟩ := run_cons_iff.mp guarded
      obtain rfl := det _ _ _ _ step step'
      rcases exact s a t start step with ⟨_, kept⟩ | ⟨broken, _⟩
      · exact ⟨shows s start, (ih final kept).mpr rest'⟩
      · exact absurd cond broken

/-- The rule when a step that misses the condition loses `Q` at once. -/
theorem always_iff_guarded_of_shows (det : Deterministic R) {P Q : S → Prop}
    (shows : ∀ s, P s → Q s)
    (exact : ∀ s a t, P s → R s a t → C s a ∧ P t ∨ ¬ C s a ∧ ¬ Q t)
    {s u : S} {as : List A} (run : Run R s as u) (start : P s) :
    Always R Q s as ↔ Run (Guarded R C) s as u := by
  refine always_iff_guarded_of_dooms (E := fun _ => True) det shows exact ?_ run trivial start
  intro t as u lost _ _ all
  exact lost (all [] t List.nil_prefix (.nil t))

/-- The property holds all along a run exactly when each step of the run meets the
condition. `I` is an invariant that needs no condition. -/
theorem always_iff_guarded (det : Deterministic R) (keeps : ∀ s a t, I s → R s a t → I t)
    (exact : ∀ s a t, I s → P s → R s a t → (P t ↔ C s a))
    {s u : S} {as : List A} (run : Run R s as u) (inv : I s) (start : P s) :
    Always R P s as ↔ Run (Guarded R C) s as u := by
  refine always_iff_guarded_of_shows (P := fun s => I s ∧ P s) det (fun _ held => held.2) ?_ run
    ⟨inv, start⟩
  rintro s a t ⟨inv, held⟩ step
  have meets : P t ↔ C s a := exact s a t inv held step
  by_cases cond : C s a
  · exact .inl ⟨cond, keeps s a t inv step, meets.mpr cond⟩
  · exact .inr ⟨cond, fun next => cond (meets.mp next)⟩

theorem eachStep_cons_iff (det : Deterministic R) {s t : S} {a : A} {as : List A} (step : R s a t) :
    EachStep R Q s (a :: as) ↔ Q s a ∧ EachStep R Q t as := by
  constructor
  · intro all
    refine ⟨all [] a as s t rfl (.nil s) step, ?_⟩
    intro pre b post u v split run next
    exact all (a :: pre) b post u v (by rw [split, List.cons_append]) (.cons step run) next
  · rintro ⟨here, later⟩ pre b post u v split run next
    cases run with
    | nil =>
      obtain ⟨rfl, _⟩ := List.cons.inj split
      exact here
    | cons step' run' =>
      obtain ⟨rfl, rest⟩ := List.cons.inj split
      exact later _ b post u v rest (det _ _ _ _ step step' ▸ run') next

/-- A property that only the last step can break. -/
theorem eachStep_concat (det : Deterministic R) {s t : S} {a : A} {as : List A}
    (run : Run R s as t) (others : ∀ b ∈ as, ∀ s, Q s b) (last : Q t a) :
    EachStep R Q s (as ++ [a]) := by
  induction run with
  | nil s =>
    intro pre b post t u split run step
    cases pre with
    | nil =>
      obtain ⟨rfl, _⟩ := List.cons.inj split
      exact run_nil_iff.mp run ▸ last
    | cons c pre => simp at split
  | cons step _ ih =>
    obtain ⟨here, later⟩ := List.forall_mem_cons.mp others
    rw [List.cons_append, eachStep_cons_iff det step]
    exact ⟨here _, ih later last⟩

theorem eachStep_congr (keeps : ∀ s a t, I s → R s a t → I t)
    (same : ∀ s a t, I s → R s a t → (Q s a ↔ C s a)) {s : S} {as : List A} (inv : I s) :
    EachStep R Q s as ↔ EachStep R C s as := by
  constructor
  · intro all pre a post t u split run next
    exact (same t a u (run.invariant keeps inv) next).mp (all pre a post t u split run next)
  · intro all pre a post t u split run next
    exact (same t a u (run.invariant keeps inv) next).mpr (all pre a post t u split run next)

/-- A property of steps holds at each step of a run exactly when each step meets the condition,
provided that a step from the invariant either has both and keeps the invariant, or has
neither. -/
theorem eachStep_iff_guarded (det : Deterministic R)
    (exact : ∀ s a t, I s → R s a t → C s a ∧ Q s a ∧ I t ∨ ¬ C s a ∧ ¬ Q s a)
    {s u : S} {as : List A} (run : Run R s as u) (inv : I s) :
    EachStep R Q s as ↔ Run (Guarded R C) s as u := by
  induction run with
  | nil s =>
    refine ⟨fun _ => .nil s, fun _ pre a post t u split => ?_⟩
    exact absurd split (by simp)
  | @cons s t u a as step _ ih =>
    rw [eachStep_cons_iff det step]
    rcases exact s a t inv step with ⟨cond, here, kept⟩ | ⟨broken, fails⟩
    · rw [and_iff_right here, ih kept]
      constructor
      · intro rest
        exact .cons ⟨step, cond⟩ rest
      · intro guarded
        obtain ⟨w, ⟨step', _⟩, rest⟩ := run_cons_iff.mp guarded
        exact det _ _ _ _ step step' ▸ rest
    · constructor
      · rintro ⟨here, _⟩
        exact absurd here fails
      · intro guarded
        obtain ⟨w, ⟨_, cond⟩, _⟩ := run_cons_iff.mp guarded
        exact absurd cond broken

theorem Run.eachStep (det : Deterministic R) (holds : ∀ s a t, R s a t → C s a → Q s a)
    {s u : S} {as : List A} (run : Run (Guarded R C) s as u) : EachStep R Q s as := by
  induction run with
  | nil s =>
    intro pre a post t u split
    exact absurd split (by simp)
  | cons step _ ih =>
    exact (eachStep_cons_iff det step.1).mpr ⟨holds _ _ _ step.1 step.2, ih⟩

/-! Parties in a list, of which a step moves one. -/

theorem set_splits {xs : List S} {i : Nat} {x : S} (here : xs[i]? = some x) :
    ∃ front back, xs = front ++ x :: back ∧ ∀ y, xs.set i y = front ++ y :: back := by
  obtain ⟨within, rfl⟩ := List.getElem?_eq_some_iff.mp here
  refine ⟨xs.take i, xs.drop (i + 1), ?_, fun y => ?_⟩
  · rw [List.getElem_cons_drop, List.take_append_drop]
  · rw [List.set_eq_take_append_cons_drop, if_pos within]

theorem set_last (xs : List S) (x y : S) : (xs ++ [x]).set xs.length y = xs ++ [y] := by
  rw [List.set_append_right _ _ (Nat.le_refl _), Nat.sub_self]
  rfl

end Runs
