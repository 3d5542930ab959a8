import Solnet.Daemon.Commitments
import Solnet.Lib.While

/-! The loops of `compute_merkle_root` over the indices of a level. They end within bounds, at
the root of the tree that a verifier of an inclusion proof splits from the top. -/
namespace Solnet.Daemon
open Fallible While

/-- An index into a vector, which panics out of bounds. -/
def index {α : Type} (xs : List α) (i : Nat) : Checked α :=
  match xs[i]? with
  | some x => .ok x
  | none => .error .slicePanic

theorem index_ok {α : Type} {xs : List α} {i : Nat} {x : α} {rest : List α}
    (here : xs.drop i = x :: rest) : index xs i = .ok x := by
  have found : xs[i]? = some x := by
    rw [← List.head?_drop, here, List.head?_cons]
  rw [index, found]

/-- The variables of the inner loop. The index is at most one more than the length of a
vector, far from the end of `usize`. -/
structure Pairing where
  i : Nat
  nextLevel : List Digest
  deriving DecidableEq, Repr

def pairing (sha : Sha256) (currentLevel : List Digest) : Loop Pairing Halt where
  guard p := decide (p.i < currentLevel.length)
  body p := do
    let left ← index currentLevel p.i
    let right ← (
      if p.i + 1 < currentLevel.length then
        index currentLevel (p.i + 1)
      else
        index currentLevel p.i)
    return ⟨p.i + 2, p.nextLevel ++ [hashPair sha left right]⟩
  variant p := currentLevel.length - p.i
  decreases := by
    intro p q go turn
    obtain ⟨left, _, rest⟩ := bind_ok_iff.mp turn
    obtain ⟨right, _, done⟩ := bind_ok_iff.mp rest
    obtain rfl := Except.ok.inj done
    have within : p.i < currentLevel.length := of_decide_eq_true go
    change currentLevel.length - (p.i + 2) < currentLevel.length - p.i
    omega

/-- What is still to pair completes the next level. -/
def Pairs (sha : Sha256) (currentLevel : List Digest) (p : Pairing) : Prop :=
  p.nextLevel ++ Merkle.nextLevel (hashPair sha) (currentLevel.drop p.i) =
    Merkle.nextLevel (hashPair sha) currentLevel

theorem pairing_turn {sha : Sha256} {currentLevel : List Digest} {p : Pairing}
    (within : p.i < currentLevel.length) (pairs : Pairs sha currentLevel p) :
    ∃ q, (pairing sha currentLevel).body p = .ok q ∧ Pairs sha currentLevel q := by
  have skip (n : Nat) : currentLevel.drop (p.i + n) = (currentLevel.drop p.i).drop n := by
    rw [List.drop_drop]
  have size : (currentLevel.drop p.i).length = currentLevel.length - p.i := List.length_drop
  unfold Pairs at pairs
  match here : currentLevel.drop p.i with
  | [] =>
    rw [here, List.length_nil] at size
    omega
  | [last] =>
    have odd : ¬ p.i + 1 < currentLevel.length := by
      rw [here, List.length_singleton] at size
      omega
    refine ⟨⟨p.i + 2, p.nextLevel ++ [hashPair sha last last]⟩, ?_, ?_⟩
    · simp only [pairing, index_ok here, if_neg odd, bind_of_ok]
      rfl
    · rw [here] at pairs
      rw [Pairs, skip, here, ← pairs, Merkle.nextLevel]
      exact List.append_nil _
  | left :: right :: rest =>
    have even : p.i + 1 < currentLevel.length := by
      rw [here, List.length_cons, List.length_cons] at size
      omega
    have next : currentLevel.drop (p.i + 1) = right :: rest := by rw [skip, here]; rfl
    refine ⟨⟨p.i + 2, p.nextLevel ++ [hashPair sha left right]⟩, ?_, ?_⟩
    · simp only [pairing, index_ok here, index_ok next, if_pos even, bind_of_ok]
      rfl
    · rw [here] at pairs
      rw [Pairs, skip, here, ← pairs, Merkle.nextLevel, List.append_assoc]
      rfl

/-- The inner loop does not leave the level, and builds the next one. -/
theorem pairing_run (sha : Sha256) (currentLevel : List Digest) :
    ∃ p, (pairing sha currentLevel).run ⟨0, []⟩ = .ok p ∧
      p.nextLevel = Merkle.nextLevel (hashPair sha) currentLevel := by
  have start : Pairs sha currentLevel ⟨0, []⟩ := rfl
  obtain ⟨p, done, pairs, stop⟩ := run_total
    (fun p go pairs => pairing_turn (of_decide_eq_true go) pairs) start
  have past : currentLevel.length ≤ p.i := Nat.not_lt.mp (of_decide_eq_false stop)
  refine ⟨p, done, ?_⟩
  rw [Pairs, List.drop_of_length_le past] at pairs
  rw [← pairs]
  exact (List.append_nil _).symm

def climbing (sha : Sha256) : Loop (List Digest) Halt where
  guard currentLevel := decide (currentLevel.length > 1)
  body currentLevel := do
    let p ← (pairing sha currentLevel).run ⟨0, []⟩
    return p.nextLevel
  variant currentLevel := currentLevel.length
  decreases := by
    intro currentLevel nextLevel go turn
    obtain ⟨p, done, next⟩ := pairing_run sha currentLevel
    rw [done, bind_of_ok] at turn
    obtain rfl := Except.ok.inj turn
    have more : 1 < currentLevel.length := of_decide_eq_true go
    rw [next, Merkle.length_nextLevel]
    omega

theorem climbing_turn (sha : Sha256) (currentLevel : List Digest) :
    (climbing sha).body currentLevel = .ok (Merkle.nextLevel (hashPair sha) currentLevel) := by
  obtain ⟨p, done, next⟩ := pairing_run sha currentLevel
  simp only [climbing, done, bind_of_ok, next]
  rfl

/-- A level that has the root of the leaves. -/
def Climbs (sha : Sha256) (leaves currentLevel : List Digest) : Prop :=
  currentLevel ≠ [] ∧ Merkle.root (hashPair sha) (.zero 32) currentLevel =
    Merkle.root (hashPair sha) (.zero 32) leaves

theorem Climbs.up {sha : Sha256} {leaves currentLevel : List Digest}
    (climbs : Climbs sha leaves currentLevel) (more : currentLevel.length > 1) :
    Climbs sha leaves (Merkle.nextLevel (hashPair sha) currentLevel) := by
  constructor
  · exact Merkle.nextLevel_ne_nil climbs.1
  · rw [← Merkle.root_level more]
    exact climbs.2

theorem climbing_run (sha : Sha256) {leaves : List Digest} (nonempty : leaves ≠ []) :
    ∃ node, (climbing sha).run leaves = .ok [node] ∧
      node = Merkle.root (hashPair sha) (.zero 32) leaves := by
  have start : Climbs sha leaves leaves := ⟨nonempty, rfl⟩
  obtain ⟨top, done, ⟨nonempty', same⟩, stop⟩ := run_total
    (fun level go climbs => ⟨_, climbing_turn sha level, climbs.up (of_decide_eq_true go)⟩) start
  have short : top.length ≤ 1 := Nat.not_lt.mp (of_decide_eq_false stop)
  have single : top.length = 1 := Nat.le_antisymm short (List.length_pos_iff.mpr nonempty')
  obtain ⟨node, rfl⟩ := List.length_eq_one_iff.mp single
  rw [Merkle.root] at same
  exact ⟨node, done, same⟩

namespace ZkReceiptBatch

/-- `compute_merkle_root` as it is written. -/
def computeMerkleRootLoop (sha : Sha256) (leaves : List Digest) : Checked Digest :=
  if leaves.isEmpty then
    .ok (.zero 32)
  else if leaves.length = 1 then
    index leaves 0
  else do
    let currentLevel ← (climbing sha).run leaves
    index currentLevel 0

/-- The loops compute the recursion that the batch is modelled with. -/
theorem computeMerkleRootLoop_eq (sha : Sha256) (leaves : List Digest) :
    computeMerkleRootLoop sha leaves = .ok (computeMerkleRoot sha leaves) := by
  unfold computeMerkleRootLoop computeMerkleRoot
  match leaves with
  | [] => rw [Merkle.root]; rfl
  | [leaf] => rw [Merkle.root]; rfl
  | a :: b :: rest =>
    obtain ⟨node, done, root⟩ := climbing_run sha (List.cons_ne_nil a (b :: rest))
    have more : ¬ (a :: b :: rest).length = 1 := by
      simp only [List.length_cons]
      omega
    rw [List.isEmpty_cons, if_neg Bool.false_ne_true, if_neg more, done, bind_of_ok, ← root]
    rfl

theorem computeMerkleRootLoop_tree (sha : Sha256) (leaves : List Digest) (nonempty : leaves ≠ [])
    (k : Nat) (least : IsLeast {k | leaves.length ≤ 2 ^ k} k) :
    ∃ root, computeMerkleRootLoop sha leaves = .ok root ∧
      Merkle.tree (hashPair sha) k leaves = some root :=
  ⟨_, computeMerkleRootLoop_eq sha leaves, Merkle.tree_eq_root nonempty least⟩

/-- The third of three receipts is paired with itself. -/
theorem threeReceipts_tree :
    computeMerkleRootLoop threeReceiptsSha [firstLeaf, secondLeaf, thirdLeaf] =
      .ok fourLeafRoot := by
  have least : IsLeast {k | [firstLeaf, secondLeaf, thirdLeaf].length ≤ 2 ^ k} 2 := by
    constructor
    · exact Nat.le_succ 3
    · intro k holds
      match k with
      | 0 => exact absurd holds (by decide : ¬ 3 ≤ 2 ^ 0)
      | 1 => exact absurd holds (by decide : ¬ 3 ≤ 2 ^ 1)
      | k + 2 => exact Nat.le_add_left 2 k
  obtain ⟨root, computed, tree⟩ := computeMerkleRootLoop_tree threeReceiptsSha
    [firstLeaf, secondLeaf, thirdLeaf] (List.cons_ne_nil _ _) 2 least
  have value : Merkle.tree (hashPair threeReceiptsSha) 2 [firstLeaf, secondLeaf, thirdLeaf] =
      some fourLeafRoot := by decide
  rw [computed, Option.some.inj (tree.symm.trans value)]

end ZkReceiptBatch

end Solnet.Daemon
