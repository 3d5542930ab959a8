import Mathlib.Data.List.Perm.Basic

/-! Schedules that differ in the order of independent actions. Lists that have the same actions
of each key, in the same order, differ by exchanges of neighbours with different keys, and a
machine on which such neighbours commute ends alike after both. -/
namespace Schedules

variable {S A K O : Type*}

inductive Swaps (key : A → K) : List A → List A → Prop where
  | nil : Swaps key [] []
  | cons (a : A) {as bs : List A} : Swaps key as bs → Swaps key (a :: as) (a :: bs)
  | swap {a b : A} (apart : key a ≠ key b) (as : List A) :
      Swaps key (a :: b :: as) (b :: a :: as)
  | trans {as bs cs : List A} : Swaps key as bs → Swaps key bs cs → Swaps key as cs

theorem Swaps.refl (key : A → K) (as : List A) : Swaps key as as := by
  induction as with
  | nil => exact .nil
  | cons a as ih => exact .cons a ih

theorem Swaps.perm {key : A → K} {as bs : List A} (swaps : Swaps key as bs) : as.Perm bs := by
  induction swaps with
  | nil => exact .refl _
  | cons a _ ih => exact .cons a ih
  | swap apart as => exact .swap _ _ as
  | trans _ _ first second => exact first.trans second

/-- An action moves before actions of other keys. -/
theorem Swaps.forward {key : A → K} {a : A} (before after : List A)
    (others : ∀ b ∈ before, key b ≠ key a) :
    Swaps key (a :: (before ++ after)) (before ++ a :: after) := by
  induction before with
  | nil => exact .refl key _
  | cons b before ih =>
    have first : key a ≠ key b := (others b List.mem_cons_self).symm
    exact (swap first (before ++ after)).trans
      (.cons b (ih fun c member => others c (List.mem_cons_of_mem b member)))

theorem swaps_of_filter [DecidableEq K] {key : A → K} {as bs : List A}
    (same : ∀ k, as.filter (fun a => key a = k) = bs.filter (fun b => key b = k)) :
    Swaps key as bs := by
  induction as generalizing bs with
  | nil =>
    cases bs with
    | nil => exact .nil
    | cons b bs => simpa using same (key b)
  | cons a as ih =>
    have own := same (key a)
    rw [List.filter_cons_of_pos (by simp)] at own
    -- `a` is the first of its key on the other side, too.
    obtain ⟨before, after, rfl, others, _, rest⟩ := List.filter_eq_cons_iff.mp own.symm
    have apart : ∀ b ∈ before, key b ≠ key a := fun b member => by simpa using others b member
    refine (Swaps.cons a (ih fun k => ?_)).trans (.forward before after apart)
    by_cases mine : key a = k
    · subst mine
      rw [List.filter_append, ← rest, List.filter_eq_nil_iff.mpr others, List.nil_append]
    · have here := same k
      rwa [List.filter_cons_of_neg (by simpa using mine), List.filter_append,
        List.filter_cons_of_neg (by simpa using mine), ← List.filter_append] at here

/-- The state after the actions, and what each of them returned. -/
def perform (step : S → A → S × O) : S → List A → S × List (A × O)
  | s, [] => (s, [])
  | s, a :: as => ((perform step (step s a).1 as).1, (a, (step s a).2) ::
      (perform step (step s a).1 as).2)

/-- Steps respect the relation, and independent steps of different keys commute up to it. It
need only be reflexive in the states of interest. -/
structure Commuting (step : S → A → S × O) (key : A → K) (Independent : A → A → Prop)
    (Alike : S → S → Prop) : Prop where
  symm : ∀ {s t}, Alike s t → Alike t s
  trans : ∀ {s t u}, Alike s t → Alike t u → Alike s u
  respects : ∀ {s t} a, Alike s t →
    Alike (step s a).1 (step t a).1 ∧ (step s a).2 = (step t a).2
  commutes : ∀ {s} a b, Alike s s → key a ≠ key b → Independent a b →
    Alike (step (step s a).1 b).1 (step (step s b).1 a).1 ∧
      (step (step s a).1 b).2 = (step s b).2 ∧ (step (step s b).1 a).2 = (step s a).2

variable {step : S → A → S × O} {key : A → K} {Independent : A → A → Prop}
  {Alike : S → S → Prop}

theorem Commuting.perform_respects (laws : Commuting step key Independent Alike) (as : List A)
    {s t : S} (start : Alike s t) :
    Alike (perform step s as).1 (perform step t as).1 ∧
      (perform step s as).2 = (perform step t as).2 := by
  induction as generalizing s t with
  | nil => exact ⟨start, rfl⟩
  | cons a as ih =>
    obtain ⟨next, output⟩ := laws.respects a start
    obtain ⟨ends, outputs⟩ := ih next
    exact ⟨ends, by rw [perform, perform, output, outputs]⟩

theorem Commuting.swaps [DecidableEq K] (laws : Commuting step key Independent Alike)
    {as bs : List A} (swaps : Swaps key as bs)
    (independent : ∀ a ∈ as, ∀ b ∈ as, key a ≠ key b → Independent a b) {s t : S}
    (start : Alike s t) :
    Alike (perform step s as).1 (perform step t bs).1 ∧
      ∀ k, (perform step s as).2.filter (fun done => key done.1 = k) =
        (perform step t bs).2.filter (fun done => key done.1 = k) := by
  induction swaps generalizing s t with
  | nil => exact ⟨start, fun k => rfl⟩
  | cons a swaps ih =>
    obtain ⟨next, output⟩ := laws.respects a start
    obtain ⟨ends, outputs⟩ := ih (fun b member c other => independent b
      (List.mem_cons_of_mem a member) c (List.mem_cons_of_mem a other)) next
    refine ⟨ends, fun k => ?_⟩
    simp only [perform, output, List.filter_cons, outputs k]
  | @swap a b apart as =>
    have self : Alike t t := laws.trans (laws.symm start) start
    obtain ⟨first, output⟩ := laws.respects a start
    obtain ⟨second, output'⟩ := laws.respects b first
    obtain ⟨exchanged, late, early⟩ := laws.commutes a b self apart
      (independent a List.mem_cons_self b (List.mem_cons_of_mem a List.mem_cons_self) apart)
    have both := laws.trans second exchanged
    obtain ⟨ends, outputs⟩ := laws.perform_respects as both
    refine ⟨ends, fun k => ?_⟩
    simp only [perform, output, output', late, early, outputs, List.filter_cons]
    -- At most one of the two has the key `k`.
    by_cases mine : key a = k
    · have other : key b ≠ k := fun same => apart (mine.trans same.symm)
      simp [mine, other]
    · simp [mine]
  | @trans as bs cs first _ ih ih' =>
    have self : Alike t t := laws.trans (laws.symm start) start
    obtain ⟨ends, outputs⟩ := ih independent start
    have carried : ∀ a ∈ bs, ∀ b ∈ bs, key a ≠ key b → Independent a b := fun a member b other =>
      independent a (first.perm.mem_iff.mpr member) b (first.perm.mem_iff.mpr other)
    obtain ⟨ends', outputs'⟩ := ih' carried self
    exact ⟨laws.trans ends ends', fun k => (outputs k).trans (outputs' k)⟩

/-- The actions of each key return the same in any order that keeps the order of each key. -/
theorem Commuting.schedules [DecidableEq K] (laws : Commuting step key Independent Alike)
    {as bs : List A}
    (same : ∀ k, as.filter (fun a => key a = k) = bs.filter (fun b => key b = k))
    (independent : ∀ a ∈ as, ∀ b ∈ as, key a ≠ key b → Independent a b) {s t : S}
    (start : Alike s t) :
    Alike (perform step s as).1 (perform step t bs).1 ∧
      ∀ k, (perform step s as).2.filter (fun done => key done.1 = k) =
        (perform step t bs).2.filter (fun done => key done.1 = k) :=
  laws.swaps (swaps_of_filter same) independent start

end Schedules
