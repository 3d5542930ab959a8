import Solnet.Lib.Table

/-! Counting votes by key. A table collects the voters of each key, and a key with more
than half of the ballots is found in whatever order the table is gone through. -/
namespace Votes

variable {N K : Type} [DecidableEq K]

/-- A ballot names a key, or none. -/
def count (votes : Table K (List N)) (ballot : N × Option K) : Table K (List N) :=
  match ballot.2 with
  | some k => votes.insert k ((votes.lookup k).getD [] ++ [ballot.1])
  | none => votes

def tally (ballots : List (N × Option K)) : Table K (List N) := ballots.foldl count ∅

def voters (k : K) (ballots : List (N × Option K)) : List N :=
  (ballots.filter fun b => b.2 = some k).map Prod.fst

variable {ballots : List (N × Option K)} {k k' : K} {n : N}

theorem voters_cons (b : N × Option K) :
    voters k (b :: ballots) =
      if b.2 = some k then b.1 :: voters k ballots else voters k ballots := by
  unfold voters
  by_cases votes : b.2 = some k
  · simp only [List.filter_cons, votes, decide_true, if_true, List.map_cons]
  · simp only [List.filter_cons, votes, decide_false, Bool.false_eq_true, if_false]

theorem mem_voters_iff : n ∈ voters k ballots ↔ (n, some k) ∈ ballots := by
  simp only [voters, List.mem_map, List.mem_filter, decide_eq_true_eq, Prod.exists,
    exists_and_right, exists_eq_right]

theorem lookup_count (votes : Table K (List N)) (b : N × Option K) :
    (count votes b).lookup k =
      if b.2 = some k then some ((votes.lookup k).getD [] ++ [b.1]) else votes.lookup k := by
  obtain ⟨n, choice⟩ := b
  cases choice with
  | none => simp only [count, reduceCtorEq, if_false]
  | some c =>
    simp only [count, Table.lookup_insert, Option.some.injEq]
    by_cases same : k = c
    · subst same
      simp only [if_true]
    · rw [if_neg same, if_neg fun equal => same equal.symm]

/-- What the table holds after some ballots: no entry, or the voters in their order. -/
theorem lookup_counted (votes : Table K (List N)) :
    (ballots.foldl count votes).lookup k =
      if voters k ballots = [] then votes.lookup k
      else some ((votes.lookup k).getD [] ++ voters k ballots) := by
  induction ballots generalizing votes with
  | nil => rfl
  | cons b ballots ih =>
    rw [List.foldl_cons, ih, lookup_count, voters_cons]
    by_cases votes : b.2 = some k
    · simp only [if_pos votes, List.cons_ne_nil, if_false, Option.getD_some, List.append_assoc,
        List.singleton_append]
      split
      · rename_i none
        rw [none]
      · rfl
    · simp only [if_neg votes]

theorem lookup_tally :
    (tally ballots).lookup k = if voters k ballots = [] then none else some (voters k ballots) := by
  rw [tally, lookup_counted]
  rfl

theorem voters_disjoint (ballots : List (N × Option K)) (other : k ≠ k') :
    (voters k ballots).length + (voters k' ballots).length ≤ ballots.length := by
  induction ballots with
  | nil => exact Nat.le_refl 0
  | cons b ballots ih =>
    rw [voters_cons, voters_cons, List.length_cons]
    by_cases first : b.2 = some k
    · have second : b.2 ≠ some k' := fun second => other (Option.some.inj (first.symm.trans second))
      rw [if_pos first, if_neg second, List.length_cons]
      omega
    · rw [if_neg first]
      split
      · rw [List.length_cons]
        omega
      · omega

theorem entry_voters {order : List ((_ : K) × List N)} (perm : order.Perm (tally ballots).entries) :
    ∀ e ∈ order, e.2 = voters e.1 ballots := by
  intro e member
  have stored := AList.mem_lookup_iff.mpr (perm.mem_iff.mp member)
  rw [Option.mem_def, lookup_tally] at stored
  split at stored
  · cases stored
  · exact (Option.some.inj stored).symm

/-- The only entry with more than half of the ballots, wherever the search meets it. -/
theorem find_majority {quorum : Nat} {order : List ((_ : K) × List N)}
    (perm : order.Perm (tally ballots).entries) (reached : quorum ≤ (voters k ballots).length)
    (half : ballots.length < 2 * quorum) :
    order.find? (fun e => decide (quorum ≤ e.2.length)) = some ⟨k, voters k ballots⟩ := by
  have some_votes : voters k ballots ≠ [] := by
    intro none
    rw [none, List.length_nil] at reached
    omega
  have present : (⟨k, voters k ballots⟩ : (_ : K) × List N) ∈ order := by
    rw [perm.mem_iff, ← AList.mem_lookup_iff, lookup_tally, if_neg some_votes]
    exact rfl
  cases found : order.find? (fun e => decide (quorum ≤ e.2.length)) with
  | none =>
    have short := List.find?_eq_none.mp found _ present
    exact absurd (decide_eq_true reached) short
  | some e =>
    have enough := List.find?_some found
    rw [decide_eq_true_eq] at enough
    have votes := entry_voters perm e (List.mem_of_find?_eq_some found)
    have same : e.1 = k := by
      by_contra other
      have both := voters_disjoint ballots other
      rw [← votes] at both
      omega
    obtain ⟨key, nodes⟩ := e
    dsimp only at same votes
    rw [votes, same]

theorem dissenters_le [DecidableEq N] (ballots : List (N × Option K)) (k : K) :
    ((ballots.map Prod.fst).filter fun n => n ∉ voters k ballots).length +
      (voters k ballots).length ≤ ballots.length := by
  suffices general : ∀ agreeing : List N, (∀ n ∈ voters k ballots, n ∈ agreeing) →
      ((ballots.map Prod.fst).filter fun n => n ∉ agreeing).length + (voters k ballots).length ≤
        ballots.length from general _ fun _ member => member
  intro agreeing contains
  induction ballots with
  | nil => exact Nat.le_refl 0
  | cons b ballots ih =>
    rw [voters_cons] at contains ⊢
    rw [List.map_cons, List.filter_cons, List.length_cons]
    by_cases votes : b.2 = some k
    · rw [if_pos votes] at contains ⊢
      have counted : b.1 ∈ agreeing := contains b.1 List.mem_cons_self
      have rest := ih fun n member => contains n (List.mem_cons_of_mem _ member)
      simp only [counted, not_true_eq_false, decide_false, Bool.false_eq_true, if_false,
        List.length_cons]
      omega
    · rw [if_neg votes] at contains ⊢
      have rest := ih contains
      split
      · rw [List.length_cons]
        omega
      · omega

end Votes
