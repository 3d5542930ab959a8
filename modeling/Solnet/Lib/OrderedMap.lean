import Mathlib.Data.List.Nodup

/-! Maps that keep their keys in the order of their first insertion. To set a key that is there
changes its value in place. -/

structure OrderedMap (K V : Type) where
  entries : List (K × V)
  nodup : (entries.map Prod.fst).Nodup

namespace OrderedMap

variable {K V : Type} [DecidableEq K]

def keys (m : OrderedMap K V) : List K := m.entries.map Prod.fst

def setEntries (key : K) (value : V) : List (K × V) → List (K × V)
  | [] => [(key, value)]
  | (k, v) :: rest => if k = key then (key, value) :: rest else (k, v) :: setEntries key value rest

variable {key k : K} {value v : V} {es pairs : List (K × V)} {m : OrderedMap K V}

theorem keys_setEntries (key : K) (value : V) (es : List (K × V)) :
    (setEntries key value es).map Prod.fst =
      if key ∈ es.map Prod.fst then es.map Prod.fst else es.map Prod.fst ++ [key] := by
  induction es with
  | nil => rfl
  | cons entry rest ih =>
    obtain ⟨k, v⟩ := entry
    rw [setEntries]
    split
    · rename_i same
      subst same
      simp
    · rename_i other
      rw [List.map_cons, ih, List.map_cons]
      simp only [List.mem_cons, Ne.symm other, false_or]
      split
      · rfl
      · rfl

theorem nodup_setEntries (nodup : (es.map Prod.fst).Nodup) :
    ((setEntries key value es).map Prod.fst).Nodup := by
  rw [keys_setEntries]
  split
  · exact nodup
  · rename_i fresh
    rw [← List.concat_eq_append]
    exact nodup.concat fresh

def empty : OrderedMap K V := ⟨[], List.nodup_nil⟩

def set (m : OrderedMap K V) (key : K) (value : V) : OrderedMap K V :=
  ⟨setEntries key value m.entries, nodup_setEntries m.nodup⟩

def setAll (m : OrderedMap K V) (pairs : List (K × V)) : OrderedMap K V :=
  pairs.foldl (fun m pair => m.set pair.1 pair.2) m

theorem mem_setEntries_iff (nodup : (es.map Prod.fst).Nodup) :
    (k, v) ∈ setEntries key value es ↔ k = key ∧ v = value ∨ k ≠ key ∧ (k, v) ∈ es := by
  induction es with
  | nil => simp [setEntries]
  | cons entry rest ih =>
    obtain ⟨k', v'⟩ := entry
    obtain ⟨fresh, nodup⟩ := List.nodup_cons.mp nodup
    rw [setEntries]
    split
    · rename_i same
      subst same
      have absent (here : (k, v) ∈ rest) : k ≠ k' := by
        rintro rfl
        have listed : k ∈ rest.map Prod.fst := List.mem_map_of_mem here
        exact fresh listed
      simp only [List.mem_cons, Prod.mk.injEq]
      tauto
    · rename_i other
      simp only [List.mem_cons, Prod.mk.injEq, ih nodup]
      have apart : k = k' → k ≠ key := fun same => same ▸ other
      tauto

theorem mem_set_iff :
    (k, v) ∈ (m.set key value).entries ↔ k = key ∧ v = value ∨ k ≠ key ∧ (k, v) ∈ m.entries :=
  mem_setEntries_iff m.nodup

theorem mem_setAll_iff (nodup : (pairs.map Prod.fst).Nodup) :
    (k, v) ∈ (m.setAll pairs).entries ↔
      (k, v) ∈ pairs ∨ k ∉ pairs.map Prod.fst ∧ (k, v) ∈ m.entries := by
  induction pairs generalizing m with
  | nil => simp [setAll]
  | cons pair pairs ih =>
    obtain ⟨key, value⟩ := pair
    obtain ⟨fresh, nodup⟩ := List.nodup_cons.mp nodup
    have later : (k, v) ∈ pairs → k ∈ pairs.map Prod.fst := fun here => List.mem_map_of_mem here
    have apart : k ∈ pairs.map Prod.fst → k ≠ key := by
      rintro here rfl
      exact fresh here
    rw [setAll, List.foldl_cons]
    refine (ih (m := m.set key value) nodup).trans ?_
    rw [mem_set_iff]
    simp only [List.mem_cons, Prod.mk.injEq, List.map_cons]
    tauto

omit [DecidableEq K] in
theorem mem_keys_iff : k ∈ m.keys ↔ ∃ v, (k, v) ∈ m.entries := by
  simp only [keys, List.mem_map, Prod.exists, exists_and_right, exists_eq_right]

theorem mem_keys_setAll_iff : k ∈ (m.setAll pairs).keys ↔ k ∈ pairs.map Prod.fst ∨ k ∈ m.keys := by
  induction pairs generalizing m with
  | nil => simp [setAll]
  | cons pair pairs ih =>
    have here : k ∈ (m.set pair.1 pair.2).keys ↔ k = pair.1 ∨ k ∈ m.keys := by
      unfold keys set
      rw [keys_setEntries]
      split
      · rename_i known
        exact ⟨.inr, fun either => either.elim (fun same => same ▸ known) id⟩
      · rw [List.mem_append, List.mem_singleton, or_comm]
    rw [setAll, List.foldl_cons]
    refine (ih (m := m.set pair.1 pair.2)).trans ?_
    rw [here, List.map_cons, List.mem_cons]
    tauto

end OrderedMap
