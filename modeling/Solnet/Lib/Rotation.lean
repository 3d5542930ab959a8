import Mathlib.Data.List.Perm.Basic
import Mathlib.Data.List.Rotate

/-! A list read in turns: read number `t` sees the element at `t` modulo the length. Reads of
consecutive numbers see a rotation of the list for each time that they go round. -/
namespace Rotation

variable {α β : Type}

/-- What read number `t` sees. -/
def turn (xs : List α) (t : Nat) : Option α := xs[t % xs.length]?

theorem turn_of_pos {xs : List α} (positive : 0 < xs.length) (t : Nat) : ∃ x, turn xs t = some x :=
  ⟨xs.get ⟨_, Nat.mod_lt t positive⟩, List.getElem?_eq_getElem _⟩

theorem turn_map (f : α → β) (xs : List α) (t : Nat) : turn (xs.map f) t = (turn xs t).map f := by
  rw [turn, turn, List.length_map, List.getElem?_map]

/-- Once round. -/
theorem turns_round (xs : List α) (start : Nat) :
    (List.range' start xs.length).map (turn xs) = (xs.rotate start).map some := by
  apply List.ext_getElem?
  intro i
  by_cases within : i < xs.length
  · have number : (List.range' start xs.length)[i]? = some (start + i) := by
      rw [List.getElem?_range' within, Nat.one_mul]
    have sees := Nat.mod_lt (start + i) (Nat.zero_lt_of_lt within)
    rw [List.getElem?_map, List.getElem?_map, List.getElem?_rotate within, number,
      Nat.add_comm i start, List.getElem?_eq_getElem sees]
    exact congrArg some (List.getElem?_eq_getElem sees)
  · have past : xs.length ≤ i := Nat.not_lt.mp within
    rw [List.getElem?_eq_none (by simpa using past), List.getElem?_eq_none (by simpa using past)]

/-- `k` times round, from any start. -/
theorem turns_perm (xs : List α) (start k : Nat) :
    ((List.range' start (k * xs.length)).map (turn xs)).Perm
      ((List.replicate k xs).flatten.map some) := by
  induction k generalizing start with
  | zero =>
    rw [Nat.zero_mul]
    exact .refl []
  | succ k ih =>
    have round : ((List.range' start xs.length).map (turn xs)).Perm (xs.map some) := by
      rw [turns_round]
      exact (List.rotate_perm xs start).map some
    have split : List.range' start ((k + 1) * xs.length) =
        List.range' start xs.length ++ List.range' (start + xs.length) (k * xs.length) := by
      rw [List.range'_append_1, Nat.succ_mul, Nat.add_comm]
    rw [split, List.map_append, List.replicate_succ, List.flatten_cons, List.map_append]
    exact round.append (ih (start + xs.length))

/-- Reads with consecutive numbers, in whatever order they were made. -/
theorem reads_perm {xs : List α} {start k : Nat} {reads : List (Nat × α)}
    (seen : ∀ read ∈ reads, turn xs read.1 = some read.2)
    (consecutive : (reads.map Prod.fst).Perm (List.range' start (k * xs.length))) :
    (reads.map Prod.snd).Perm (List.replicate k xs).flatten := by
  have same : (reads.map Prod.snd).map some = (reads.map Prod.fst).map (turn xs) := by
    rw [List.map_map, List.map_map]
    exact List.map_congr_left fun read member => (seen read member).symm
  apply (List.map_perm_map_iff fun _ _ => Option.some.inj).mp
  rw [same]
  exact (consecutive.map (turn xs)).trans (turns_perm xs start k)

end Rotation
