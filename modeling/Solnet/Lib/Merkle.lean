import Mathlib.Algebra.Ring.Nat
import Mathlib.Order.Bounds.Defs

/-! Binary hash trees built level by level over a list of leaves, where the last node of
a level of odd length is paired with itself. Trees of the same size with the same root have
the same leaves as long as no two different pairs that occur in them collide. The root is
also that of the tree built top-down, which splits the leaves at a power of two. -/
namespace Merkle

variable {D : Type} (combine : D → D → D)

def nextLevel : List D → List D
  | [] => []
  | [last] => [combine last last]
  | left :: right :: rest => combine left right :: nextLevel rest

/-- The pairs that are hashed for the next level. -/
def levelPairs : List D → List (D × D)
  | [] => []
  | [last] => [(last, last)]
  | left :: right :: rest => (left, right) :: levelPairs rest

theorem length_nextLevel (level : List D) :
    (nextLevel combine level).length = (level.length + 1) / 2 := by
  fun_induction nextLevel combine level with
  | case1 => simp only [List.length_nil, Nat.reduceAdd, Nat.reduceDiv]
  | case2 last => simp only [List.length_cons, List.length_nil, Nat.reduceAdd, Nat.reduceDiv]
  | case3 left right rest ih =>
    simp only [List.length_cons, ih]
    omega

theorem nextLevel_shorter {a b : D} {rest : List D} :
    (nextLevel combine (a :: b :: rest)).length < (a :: b :: rest).length := by
  rw [length_nextLevel]
  simp only [List.length_cons]
  omega

def root (empty : D) : List D → D
  | [] => empty
  | [node] => node
  | a :: b :: rest => root empty (nextLevel combine (a :: b :: rest))
termination_by level => level.length
decreasing_by exact nextLevel_shorter combine

/-- All pairs that are hashed on the way to the root. -/
def treePairs : List D → List (D × D)
  | [] => []
  | [_] => []
  | a :: b :: rest =>
    levelPairs (a :: b :: rest) ++ treePairs (nextLevel combine (a :: b :: rest))
termination_by level => level.length
decreasing_by exact nextLevel_shorter combine

variable {combine}

theorem nextLevel_inj {P : D × D → Prop} {xs ys : List D} (length : xs.length = ys.length)
    (inj : ∀ p q, P p → P q → combine p.1 p.2 = combine q.1 q.2 → p = q)
    (left : ∀ p ∈ levelPairs xs, P p) (right : ∀ p ∈ levelPairs ys, P p)
    (same : nextLevel combine xs = nextLevel combine ys) : xs = ys := by
  fun_induction levelPairs xs generalizing ys with
  | case1 => exact (List.eq_nil_of_length_eq_zero length.symm).symm
  | case2 last =>
    obtain ⟨last', rfl⟩ := List.length_eq_one_iff.mp length.symm
    have heads := (List.cons.inj same).1
    have pairs := inj (last, last) (last', last') (left _ List.mem_cons_self)
      (right _ List.mem_cons_self) heads
    rw [(Prod.mk.inj pairs).1]
  | case3 a b rest ih =>
    match ys with
    | [] => simp at length
    | [_] => simp at length
    | a' :: b' :: rest' =>
      obtain ⟨heads, tails⟩ := List.cons.inj same
      obtain ⟨rfl, rfl⟩ := Prod.mk.inj (inj (a, b) (a', b') (left _ List.mem_cons_self)
        (right _ List.mem_cons_self) heads)
      simp only [List.length_cons, Nat.add_right_cancel_iff] at length
      rw [ih length (fun p member => left p (List.mem_cons_of_mem _ member))
        (fun p member => right p (List.mem_cons_of_mem _ member)) tails]

theorem root_inj {empty : D} {P : D × D → Prop} {xs ys : List D} (length : xs.length = ys.length)
    (inj : ∀ p q, P p → P q → combine p.1 p.2 = combine q.1 q.2 → p = q)
    (left : ∀ p ∈ treePairs combine xs, P p) (right : ∀ p ∈ treePairs combine ys, P p)
    (same : root combine empty xs = root combine empty ys) : xs = ys := by
  fun_induction treePairs combine xs generalizing ys with
  | case1 => exact (List.eq_nil_of_length_eq_zero length.symm).symm
  | case2 node =>
    obtain ⟨node', rfl⟩ := List.length_eq_one_iff.mp length.symm
    rw [root, root] at same
    rw [same]
  | case3 a b rest ih =>
    match ys with
    | [] => simp at length
    | [_] => simp at length
    | a' :: b' :: rest' =>
      rw [root, root] at same
      rw [treePairs] at right
      have next := ih (by rw [length_nextLevel, length_nextLevel, length])
        (fun p member => left p (List.mem_append_right _ member))
        (fun p member => right p (List.mem_append_right _ member)) same
      exact nextLevel_inj length inj (fun p member => left p (List.mem_append_left _ member))
        (fun p member => right p (List.mem_append_left _ member)) next

/-! Trees with one leaf more. -/

theorem nextLevel_append {xs : List D} (even : xs.length % 2 = 0) (ys : List D) :
    nextLevel combine (xs ++ ys) = nextLevel combine xs ++ nextLevel combine ys := by
  fun_induction nextLevel combine xs with
  | case1 => rfl
  | case2 last => cases even
  | case3 left right rest ih =>
    have even' : rest.length % 2 = 0 := by
      simp only [List.length_cons] at even
      omega
    rw [List.cons_append, List.cons_append, nextLevel, ih even', List.cons_append]

theorem levelPairs_append {xs : List D} (even : xs.length % 2 = 0) (ys : List D) :
    levelPairs (xs ++ ys) = levelPairs xs ++ levelPairs ys := by
  fun_induction levelPairs xs with
  | case1 => rfl
  | case2 last => cases even
  | case3 left right rest ih =>
    have even' : rest.length % 2 = 0 := by
      simp only [List.length_cons] at even
      omega
    rw [List.cons_append, List.cons_append, levelPairs, ih even', List.cons_append]

theorem nextLevel_replicate (n : Nat) (x : D) :
    nextLevel combine (List.replicate (2 * n) x) = List.replicate n (combine x x) := by
  induction n with
  | zero => rfl
  | succ n ih =>
    rw [Nat.mul_succ, List.replicate_succ, List.replicate_succ, nextLevel, ih, List.replicate_succ]

theorem levelPairs_replicate {n : Nat} {x : D} {p : D × D}
    (member : p ∈ levelPairs (List.replicate (2 * n) x)) : p = (x, x) := by
  induction n with
  | zero => cases member
  | succ n ih =>
    rw [Nat.mul_succ, List.replicate_succ, List.replicate_succ, levelPairs] at member
    rcases List.mem_cons.mp member with rfl | later
    · rfl
    · exact ih later

theorem root_level {empty : D} {level : List D} (more : 2 ≤ level.length) :
    root combine empty level = root combine empty (nextLevel combine level) := by
  match level with
  | [] => cases more
  | [_] => simp at more
  | a :: b :: rest => rw [root]

theorem treePairs_level {level : List D} (more : 2 ≤ level.length) :
    treePairs combine level = levelPairs level ++ treePairs combine (nextLevel combine level) := by
  match level with
  | [] => cases more
  | [_] => simp at more
  | a :: b :: rest => rw [treePairs]

theorem nextLevel_drop (n : Nat) (level : List D) :
    (nextLevel combine level).drop n = nextLevel combine (level.drop (2 * n)) := by
  induction n generalizing level with
  | zero => rfl
  | succ n ih =>
    match level with
    | [] => rfl
    | [last] => simp [nextLevel, Nat.mul_succ]
    | left :: right :: rest =>
      rw [nextLevel, List.drop_succ_cons, ih, Nat.mul_succ, List.drop_succ_cons,
        List.drop_succ_cons]

theorem levelPairs_drop (n : Nat) (level : List D) :
    (levelPairs level).drop n = levelPairs (level.drop (2 * n)) := by
  induction n generalizing level with
  | zero => rfl
  | succ n ih =>
    match level with
    | [] => rfl
    | [last] => simp [levelPairs, Nat.mul_succ]
    | left :: right :: rest =>
      rw [levelPairs, List.drop_succ_cons, ih, Nat.mul_succ, List.drop_succ_cons,
        List.drop_succ_cons]

theorem suffix_nextLevel_iff {P : D × D → Prop} {level : List D} {x : D} {n : Nat}
    (inj : ∀ p q, P p → P q → combine p.1 p.2 = combine q.1 q.2 → p = q)
    (pairs : ∀ p ∈ levelPairs level, P p) (own : P (x, x)) (even : level.length % 2 = 0)
    (fits : 2 * n ≤ level.length) :
    List.replicate n (combine x x) <:+ nextLevel combine level ↔
      List.replicate (2 * n) x <:+ level := by
  have half : (nextLevel combine level).length - n = level.length / 2 - n := by
    rw [length_nextLevel]
    omega
  have whole : level.length - 2 * n = 2 * (level.length / 2 - n) := by omega
  rw [List.suffix_iff_eq_drop, List.suffix_iff_eq_drop, List.length_replicate,
    List.length_replicate, half, whole, nextLevel_drop, ← nextLevel_replicate]
  constructor
  · intro same
    apply nextLevel_inj _ inj _ _ same
    · rw [List.length_replicate, List.length_drop]
      omega
    · intro p member
      exact levelPairs_replicate member ▸ own
    · intro p member
      rw [← levelPairs_drop] at member
      exact pairs p (List.mem_of_mem_drop member)
  · intro same
    rw [← same]

/-- The size is an odd number above one times a power of two, and that many last leaves are `x`:
`x` once more is what pads the tree. -/
def Pads (x : D) (level : List D) : Prop :=
  ∃ k m, level.length = 2 ^ k * (2 * m + 3) ∧ List.replicate (2 ^ k) x <:+ level

theorem three_le_of_pads {x : D} {level : List D} (pads : Pads x level) : 3 ≤ level.length := by
  obtain ⟨k, m, length, _⟩ := pads
  have more : 1 * (2 * m + 3) ≤ 2 ^ k * (2 * m + 3) :=
    Nat.mul_le_mul_right _ (Nat.two_pow_pos k)
  omega

theorem pads_odd {x last : D} {front : List D} (even : front.length % 2 = 0)
    (more : front ≠ []) : Pads x (front ++ [last]) ↔ x = last := by
  constructor
  · rintro ⟨k, m, length, suffix⟩
    cases k with
    | zero =>
      obtain ⟨rest, split⟩ := suffix
      exact (List.cons.inj (List.append_inj' split rfl).2).1
    | succ k =>
      rw [List.length_append, List.length_singleton, Nat.pow_succ, Nat.mul_right_comm] at length
      omega
  · rintro rfl
    have positive := List.length_pos_iff.mpr more
    refine ⟨0, front.length / 2 - 1, ?_, List.suffix_append front [x]⟩
    rw [List.length_append, List.length_singleton]
    omega

theorem pads_even {P : D × D → Prop} {level : List D} {x : D}
    (inj : ∀ p q, P p → P q → combine p.1 p.2 = combine q.1 q.2 → p = q)
    (pairs : ∀ p ∈ levelPairs level, P p) (own : P (x, x)) (even : level.length % 2 = 0) :
    Pads (combine x x) (nextLevel combine level) ↔ Pads x level := by
  have suffixes (n : Nat) := suffix_nextLevel_iff (n := n) inj pairs own even
  have half := length_nextLevel combine level
  constructor
  · rintro ⟨k, m, length, suffix⟩
    have doubled : level.length = 2 ^ (k + 1) * (2 * m + 3) := by
      rw [Nat.pow_succ, Nat.mul_comm (2 ^ k) 2, Nat.mul_assoc, ← length]
      omega
    have fits : 2 * 2 ^ k ≤ level.length := by
      rw [doubled, Nat.pow_succ, Nat.mul_comm (2 ^ k) 2]
      exact Nat.le_mul_of_pos_right _ (Nat.succ_pos _)
    refine ⟨k + 1, m, doubled, ?_⟩
    rw [Nat.pow_succ, Nat.mul_comm (2 ^ k) 2]
    exact (suffixes (2 ^ k) fits).mp suffix
  · rintro ⟨k, m, length, suffix⟩
    cases k with
    | zero =>
      rw [Nat.pow_zero] at length
      omega
    | succ k =>
      have fits := suffix.length_le
      rw [List.length_replicate, Nat.pow_succ, Nat.mul_comm (2 ^ k) 2] at fits
      rw [Nat.pow_succ, Nat.mul_comm (2 ^ k) 2] at length suffix
      rw [Nat.mul_assoc] at length
      exact ⟨k, m, by omega, (suffixes (2 ^ k) fits).mpr suffix⟩

/-- The last node of an odd level is paired with itself, until one more node comes. -/
theorem root_append_odd {empty : D} {P : D × D → Prop} {front : List D} {last x : D}
    (inj : ∀ p q, P p → P q → combine p.1 p.2 = combine q.1 q.2 → p = q)
    (even : front.length % 2 = 0)
    (left : ∀ p ∈ levelPairs (front ++ [last]) ++
      treePairs combine (nextLevel combine (front ++ [last])), P p)
    (right : ∀ p ∈ levelPairs (front ++ [last, x]) ++
      treePairs combine (nextLevel combine (front ++ [last, x])), P p) :
    root combine empty (nextLevel combine (front ++ [last])) =
      root combine empty (nextLevel combine (front ++ [last, x])) ↔ x = last := by
  rw [levelPairs_append even, nextLevel_append even] at left right
  rw [nextLevel_append even, nextLevel_append even]
  constructor
  · intro same
    have length : (nextLevel combine front ++ nextLevel combine [last]).length =
        (nextLevel combine front ++ nextLevel combine [last, x]).length := by
      rw [List.length_append, List.length_append]
      rfl
    have levels := root_inj length inj (fun p member => left p (List.mem_append_right _ member))
      (fun p member => right p (List.mem_append_right _ member)) same
    have nodes := (List.cons.inj (List.append_cancel_left levels)).1
    have own : P (last, last) := by
      apply left
      exact List.mem_append_left _ (List.mem_append_right _ List.mem_cons_self)
    have next : P (last, x) := by
      apply right
      exact List.mem_append_left _ (List.mem_append_right _ List.mem_cons_self)
    exact (Prod.mk.inj (inj (last, last) (last, x) own next nodes)).2.symm
  · rintro rfl
    rfl

/-- One more leaf leaves the root as it is exactly when that leaf is what pads the tree, as long
as no two of the hashed pairs collide and none hashes to its own left half. -/
theorem root_append_iff {empty : D} {P : D × D → Prop} {level : List D} {x : D}
    (inj : ∀ p q, P p → P q → combine p.1 p.2 = combine q.1 q.2 → p = q)
    (acyclic : ∀ p, P p → combine p.1 p.2 ≠ p.1) (nonempty : level ≠ [])
    (left : ∀ p ∈ treePairs combine level, P p)
    (right : ∀ p ∈ treePairs combine (level ++ [x]), P p) :
    root combine empty level = root combine empty (level ++ [x]) ↔ Pads x level := by
  induction size : level.length using Nat.strongRecOn generalizing level x with
  | ind n ih =>
    have positive := List.length_pos_iff.mpr nonempty
    have longer : 2 ≤ (level ++ [x]).length := by
      rw [List.length_append, List.length_singleton]
      omega
    rw [treePairs_level longer] at right
    rw [root_level longer]
    by_cases single : level.length = 1
    · obtain ⟨node, rfl⟩ := List.length_eq_one_iff.mp single
      have hashed : P (node, x) := right _ (List.mem_append_left _ List.mem_cons_self)
      rw [root, List.singleton_append, nextLevel, nextLevel, root]
      constructor
      · intro same
        exact absurd same.symm (acyclic _ hashed)
      · intro pads
        exact absurd (three_le_of_pads pads) (by rw [List.length_singleton]; decide)
    · have more : 2 ≤ level.length := by omega
      rw [treePairs_level more] at left
      rw [root_level more]
      by_cases even : level.length % 2 = 0
      · rw [levelPairs_append even, nextLevel_append even] at right
        rw [nextLevel_append even]
        have own : P (x, x) := by
          apply right
          exact List.mem_append_left _ (List.mem_append_right _ List.mem_cons_self)
        have half := length_nextLevel combine level
        have next := ih (nextLevel combine level).length (by omega)
          (List.ne_nil_of_length_pos (by omega))
          (fun p member => left p (List.mem_append_right _ member))
          (fun p member => right p (List.mem_append_right _ member)) rfl
        exact next.trans (pads_even inj (fun p member => left p (List.mem_append_left _ member))
          own even)
      · obtain ⟨front, last, rfl⟩ : ∃ front last, level = front ++ [last] :=
          ⟨_, _, (List.dropLast_concat_getLast nonempty).symm⟩
        rw [List.length_append, List.length_singleton] at even more
        have even' : front.length % 2 = 0 := by omega
        rw [List.append_assoc] at right ⊢
        rw [pads_odd even' (List.ne_nil_of_length_pos (by omega))]
        exact root_append_odd inj even' left right

/-! The tree from the top. -/

section TopDown

variable (combine : D → D → D)

/-- The root of the tree of height `k`, where a half without leaves is a copy of the other. -/
def tree : Nat → List D → Option D
  | 0, [node] => some node
  | 0, _ => none
  | k + 1, level =>
    if level.length ≤ 2 ^ k then do
      let half ← tree k level
      return combine half half
    else do
      let left ← tree k (level.take (2 ^ k))
      let right ← tree k (level.drop (2 ^ k))
      return combine left right

variable {combine}

theorem tree_short {k : Nat} {level : List D} (short : level.length ≤ 2 ^ k) :
    tree combine (k + 1) level = (tree combine k level).map fun half => combine half half := by
  rw [tree, if_pos short]
  cases tree combine k level with
  | none => rfl
  | some half => rfl

theorem tree_split {k : Nat} {level : List D} (long : 2 ^ k < level.length) :
    tree combine (k + 1) level = (tree combine k (level.take (2 ^ k))).bind fun left =>
      (tree combine k (level.drop (2 ^ k))).map (combine left) := by
  rw [tree, if_neg (Nat.not_le.mpr long)]
  cases tree combine k (level.take (2 ^ k)) with
  | none => rfl
  | some left =>
    cases tree combine k (level.drop (2 ^ k)) with
    | none => rfl
    | some right => rfl

theorem nextLevel_take (n : Nat) (level : List D) :
    (nextLevel combine level).take n = nextLevel combine (level.take (2 * n)) := by
  induction n generalizing level with
  | zero => rfl
  | succ n ih =>
    match level with
    | [] => rfl
    | [last] => simp [nextLevel, Nat.mul_succ]
    | left :: right :: rest =>
      rw [nextLevel, List.take_succ_cons, ih, Nat.mul_succ, List.take_succ_cons,
        List.take_succ_cons, nextLevel]

theorem nextLevel_ne_nil {level : List D} (nonempty : level ≠ []) :
    nextLevel combine level ≠ [] := by
  have positive := List.length_pos_iff.mpr nonempty
  apply List.ne_nil_of_length_pos
  rw [length_nextLevel]
  omega

/-- Pairing the leaves takes the lowest level off: pairing commutes with the split, since the
split is at an even number of leaves. -/
theorem tree_nextLevel {k : Nat} {level : List D} (nonempty : level ≠ [])
    (fits : level.length ≤ 2 ^ (k + 1)) :
    tree combine (k + 1) level = tree combine k (nextLevel combine level) := by
  have positive := List.length_pos_iff.mpr nonempty
  induction k generalizing level with
  | zero =>
    match level with
    | [] => cases positive
    | [node] => rfl
    | [left, right] => rfl
    | _ :: _ :: _ :: _ =>
      simp only [List.length_cons] at fits
      omega
  | succ k ih =>
    have half := length_nextLevel combine level
    have doubled : 2 ^ (k + 1) = 2 * 2 ^ k := by rw [Nat.pow_succ, Nat.mul_comm]
    by_cases short : level.length ≤ 2 ^ (k + 1)
    · have short' : (nextLevel combine level).length ≤ 2 ^ k := by omega
      rw [tree_short short, tree_short short', ih nonempty short positive]
    · have long : 2 ^ (k + 1) < level.length := Nat.not_le.mp short
      have taken : (level.take (2 ^ (k + 1))).length = 2 ^ (k + 1) := by
        rw [List.length_take, Nat.min_eq_left (Nat.le_of_lt long)]
      have dropped : (level.drop (2 ^ (k + 1))).length = level.length - 2 ^ (k + 1) :=
        List.length_drop
      have positive' := Nat.two_pow_pos (k + 1)
      have long' : 2 ^ k < (nextLevel combine level).length := by omega
      rw [Nat.pow_succ] at fits
      rw [tree_split long, tree_split long', nextLevel_take, nextLevel_drop, ← doubled,
        ih (List.ne_nil_of_length_pos (by omega)) (by omega) (by omega),
        ih (List.ne_nil_of_length_pos (by omega)) (by omega) (by omega)]

/-- The tree of the least height that holds the leaves has the root that the levels lead to. -/
theorem tree_eq_root {empty : D} {k : Nat} {level : List D} (nonempty : level ≠ [])
    (least : IsLeast {k | level.length ≤ 2 ^ k} k) :
    tree combine k level = some (root combine empty level) := by
  have positive := List.length_pos_iff.mpr nonempty
  obtain ⟨fits, below⟩ := least
  induction k generalizing level with
  | zero =>
    have single : level.length = 1 := Nat.le_antisymm fits positive
    obtain ⟨node, rfl⟩ := List.length_eq_one_iff.mp single
    rw [tree, root]
  | succ k ih =>
    have long : 2 ^ k < level.length := by
      by_contra short
      exact Nat.not_succ_le_self k (below (Nat.not_lt.mp short))
    have more : 2 ≤ level.length := Nat.lt_of_le_of_lt (Nat.two_pow_pos k) long
    have half := length_nextLevel combine level
    have fits' : (nextLevel combine level).length ≤ 2 ^ k := by
      have doubled : level.length ≤ 2 ^ k * 2 := fits
      omega
    have below' : k ∈ lowerBounds {k | (nextLevel combine level).length ≤ 2 ^ k} := by
      intro j holds
      have holds' : level.length ≤ 2 ^ (j + 1) := by
        have least : (nextLevel combine level).length ≤ 2 ^ j := holds
        rw [Nat.pow_succ]
        omega
      exact Nat.le_of_succ_le_succ (below holds')
    rw [tree_nextLevel nonempty fits, root_level more,
      ih (nextLevel_ne_nil nonempty) (by omega) fits' below']

end TopDown

end Merkle
