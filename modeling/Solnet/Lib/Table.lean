import Mathlib.Data.List.AList
import Solnet.Lib.Fallible

/-! Finite maps with a value for each key: the association lists of Mathlib, with the
lookup after each update as one equation, a filter that can fail, and properties that
hold of every entry. -/

abbrev Table (K V : Type) := AList fun _ : K => V

namespace Table

open Fallible

variable {K V E : Type} [DecidableEq K]

/-- The entry of one key is kept or removed. -/
def visit (keep : K → V → Except E Bool) (t : Table K V) (k : K) : Except E (Table K V) :=
  match t.lookup k with
  | none => .ok t
  | some v => do
    if ← keep k v then return t else return t.erase k

def retain (keep : K → V → Except E Bool) (t : Table K V) : Except E (Table K V) :=
  t.keys.foldlM (visit keep) t

def Holds (P : K → V → Prop) (t : Table K V) : Prop :=
  ∀ k v, t.lookup k = some v → P k v

variable {P : K → V → Prop} {t t' : Table K V} {keep : K → V → Except E Bool} {a k : K} {b v : V}

theorem lookup_insert (t : Table K V) (a k : K) (b : V) :
    (t.insert a b).lookup k = if k = a then some b else t.lookup k := by
  by_cases same : k = a
  · rw [if_pos same, same]
    exact AList.lookup_insert t
  · rw [if_neg same]
    exact AList.lookup_insert_ne same

theorem lookup_erase (t : Table K V) (a k : K) :
    (t.erase a).lookup k = if k = a then none else t.lookup k := by
  by_cases same : k = a
  · rw [if_pos same, same]
    exact AList.lookup_erase a t
  · rw [if_neg same]
    exact AList.lookup_erase_ne same

theorem lookup_visit_iff (ok : visit keep t a = .ok t') :
    t'.lookup k = some v ↔ t.lookup k = some v ∧ (k = a → keep k v = .ok true) := by
  unfold visit at ok
  split at ok
  · rename_i absent
    obtain rfl := Except.ok.inj ok
    refine ⟨fun found => ⟨found, ?_⟩, fun found => found.1⟩
    rintro rfl
    rw [absent] at found
    cases found
  · rename_i w stored
    obtain ⟨kept, decided, ok⟩ := bind_ok_iff.mp ok
    split at ok
    · rename_i true_kept
      obtain rfl := Except.ok.inj ok
      refine ⟨fun found => ⟨found, ?_⟩, fun found => found.1⟩
      rintro rfl
      obtain rfl := Option.some.inj (stored.symm.trans found)
      rw [decided, true_kept]
    · rename_i removed
      obtain rfl := Except.ok.inj ok
      rw [lookup_erase]
      by_cases same : k = a
      · subst same
        rw [if_pos rfl, stored]
        constructor
        · intro found
          cases found
        · rintro ⟨found, keeps⟩
          obtain rfl := Option.some.inj found
          exact absurd (Except.ok.inj (decided.symm.trans (keeps rfl))) removed
      · rw [if_neg same]
        exact ⟨fun found => ⟨found, fun equal => absurd equal same⟩, fun found => found.1⟩

theorem visit_error_iff {e : E} :
    visit keep t a = .error e ↔ ∃ v, t.lookup a = some v ∧ keep a v = .error e := by
  unfold visit
  split
  · rename_i absent
    simp only [reduceCtorEq, absent, false_and, exists_false]
  · rename_i w stored
    simp only [stored, Option.some.injEq, exists_eq_left']
    apply bind_error_left_iff
    intro kept _ error
    split at error
    · cases error
    · cases error

theorem lookup_visits_iff {ks : List K} (ok : ks.foldlM (visit keep) t = .ok t') :
    t'.lookup k = some v ↔ t.lookup k = some v ∧ (k ∈ ks → keep k v = .ok true) := by
  induction ks generalizing t with
  | nil =>
    obtain rfl := Except.ok.inj ok
    simp only [List.not_mem_nil, false_imp_iff, and_true]
  | cons a ks ih =>
    obtain ⟨next, first, rest⟩ := bind_ok_iff.mp ok
    rw [ih rest, lookup_visit_iff first, and_assoc, List.mem_cons, or_imp]

/-- A filter that did not fail leaves exactly the entries that pass it. -/
theorem lookup_retain_iff (ok : retain keep t = .ok t') :
    t'.lookup k = some v ↔ t.lookup k = some v ∧ keep k v = .ok true := by
  rw [lookup_visits_iff ok]
  refine and_congr_right fun found => imp_iff_right ?_
  exact AList.lookup_isSome.mp (found ▸ rfl)

theorem visits_answer {ks : List K} (t : Table K V)
    (answers : ∀ k v, t.lookup k = some v → ∃ kept, keep k v = .ok kept) :
    ∃ t', ks.foldlM (visit keep) t = .ok t' := by
  induction ks generalizing t with
  | nil => exact ⟨t, rfl⟩
  | cons a ks ih =>
    have first : ∃ next, visit keep t a = .ok next := by
      cases visited : visit keep t a with
      | ok next => exact ⟨next, rfl⟩
      | error e =>
        obtain ⟨v, stored, failed⟩ := visit_error_iff.mp visited
        obtain ⟨kept, decided⟩ := answers a v stored
        cases failed.symm.trans decided
    obtain ⟨next, visited⟩ := first
    obtain ⟨t', rest⟩ := ih next fun k v found =>
      answers k v ((lookup_visit_iff visited).mp found).1
    exact ⟨t', bind_ok_iff.mpr ⟨next, visited, rest⟩⟩

theorem retain_answers (answers : ∀ k v, t.lookup k = some v → ∃ kept, keep k v = .ok kept) :
    ∃ t', retain keep t = .ok t' :=
  visits_answer t answers

theorem Holds.insert (holds : Holds P t) (here : P a b) : Holds P (t.insert a b) := by
  intro k v found
  rw [lookup_insert] at found
  split at found
  · rename_i same
    obtain rfl := Option.some.inj found
    exact same ▸ here
  · exact holds k v found

theorem Holds.erase (holds : Holds P t) : Holds P (t.erase a) := by
  intro k v found
  rw [lookup_erase] at found
  split at found
  · cases found
  · exact holds k v found

theorem Holds.retain (holds : Holds P t) (ok : retain keep t = .ok t') : Holds P t' :=
  fun k v found => holds k v ((lookup_retain_iff ok).mp found).1

end Table
