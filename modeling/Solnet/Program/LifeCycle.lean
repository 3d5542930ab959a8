import Solnet.Program.Instructions

/-! The life of a node account: each slash takes 20 points of reputation, the fifth ejects
the node, and a registration starts anew. -/
namespace Solnet.Program
open Runs Fallible

/-- The slashes of `owner` since its last registration, after one more instruction. -/
def Instruction.recount (owner : Pubkey) (slashes : Nat) : Instruction → Nat
  | .registerNode o _ _ _ => if owner = o then 0 else slashes
  | .slashNode _ o => if owner = o then slashes + 1 else slashes
  | _ => slashes

def slashesSince (owner : Pubkey) (done : List Instruction) : Nat :=
  done.foldl (Instruction.recount owner) 0

structure LifeCycle (slashes : Nat) (node : NodeAccount) : Prop where
  unlocked : node.locked = false
  few : slashes ≤ 5
  reputation : node.reputation = 100 - 20 * slashes
  initialized : node.isInitialized = true ↔ slashes < 5
  staked : node.isInitialized = true → 100_000_000 ≤ node.stakeAmount
  unstaked : node.isInitialized = false → node.stakeAmount = 0

def LivesOn (done : List Instruction) (l : Ledger) : Prop :=
  ∀ owner node, l.nodeAccounts owner = some node → LifeCycle (slashesSince owner done) node

theorem slashesSince_append (owner : Pubkey) (done : List Instruction) (ix : Instruction) :
    slashesSince owner (done ++ [ix]) = ix.recount owner (slashesSince owner done) := by
  simp only [slashesSince, List.foldl_append, List.foldl_cons, List.foldl_nil]

theorem registered_lifeCycle {owner : Pubkey} {endpoint : String} {stake : UInt64} {now : Int}
    (enough : 100_000_000 ≤ stake.toNat) :
    LifeCycle 0 (.registered owner endpoint stake now) where
  unlocked := rfl
  few := Nat.zero_le 5
  reputation := rfl
  initialized := iff_of_true rfl (Nat.zero_lt_succ 4)
  staked _ := enough
  unstaked gone := nomatch gone

theorem LifeCycle.slashed {slashes : Nat} {node : NodeAccount} (life : LifeCycle slashes node)
    (active : node.isInitialized = true) : LifeCycle (slashes + 1) node.slashed := by
  have before : slashes < 5 := life.initialized.mp active
  have left : slashedReputation node = 100 - 20 * (slashes + 1) := by
    rw [slashedReputation, life.reputation]
    omega
  have staked := life.staked active
  by_cases ejects : slashedReputation node < 20
  · have fifth : slashes = 4 := by omega
    rw [NodeAccount.slashed, if_pos ejects]
    exact ⟨rfl, by omega, left, by simp [fifth], nofun, fun _ => rfl⟩
  · have fewer : slashes < 4 := by omega
    rw [NodeAccount.slashed, if_neg ejects]
    exact ⟨rfl, by omega, left, iff_of_true active (by omega), fun _ => staked,
      fun gone => absurd (active.symm.trans gone) Bool.true_eq_false.mp⟩

theorem LivesOn.set {done : List Instruction} {l l' : Ledger} {ix : Instruction} {o : Pubkey}
    {node : NodeAccount} (lives : LivesOn done l)
    (nodes : ∀ owner, l'.nodeAccounts owner = if owner = o then some node else l.nodeAccounts owner)
    (others : ∀ owner n, owner ≠ o → ix.recount owner n = n)
    (life : LifeCycle (ix.recount o (slashesSince o done)) node) : LivesOn (done ++ [ix]) l' := by
  intro owner stored here
  rw [nodes] at here
  rw [slashesSince_append]
  by_cases same : owner = o
  · rw [if_pos same] at here
    obtain rfl := Option.some.inj here
    rw [same]
    exact life
  · rw [if_neg same] at here
    rw [others owner _ same]
    exact lives owner stored here

theorem LivesOn.frame {done : List Instruction} {l l' : Ledger} {ix : Instruction}
    (lives : LivesOn done l) (nodes : l'.nodeAccounts = l.nodeAccounts)
    (uncounted : ∀ owner n, ix.recount owner n = n) : LivesOn (done ++ [ix]) l' := by
  intro owner stored here
  rw [nodes] at here
  rw [slashesSince_append, uncounted]
  exact lives owner stored here

theorem step_livesOn (done : List Instruction) (l : Ledger) (ix : Instruction) (l' : Ledger)
    (lives : LivesOn done l) (step : Step l ix l') : LivesOn (done ++ [ix]) l' := by
  cases ix with
  | initializeProtocol admin mint bump =>
    obtain ⟨_, rfl⟩ := initializeProtocol_ok_iff.mp step
    exact lives.frame rfl fun _ _ => rfl
  | registerNode o endpoint stake now =>
    obtain ⟨_, enough, _, rfl⟩ := registerNode_ok_iff.mp step
    refine lives.set (Ledger.nodeAccounts_setNode _ o · _) (fun _ _ other => if_neg other) ?_
    rw [Instruction.recount, if_pos rfl]
    exact registered_lifeCycle enough
  | settleCompressedBatch accounts root lamports receipts batch now =>
    obtain ⟨node, state, reward, current, stored, _, _, _, _, _, _, _, _, rfl⟩ :=
      settleCompressedBatch_ok_iff.mp step
    have life := lives accounts.owner node stored
    exact lives.set (Ledger.nodeAccounts_setNode _ accounts.owner · _) (fun _ _ _ => rfl)
      ⟨life.unlocked, life.few, life.reputation, life.initialized, life.staked, life.unstaked⟩
  | stakeForPriority user tokens vault amount =>
    obtain ⟨node, stored, _, _, _, active, _, _, rfl⟩ := stakeForPriority_ok_iff.mp step
    have life := lives user node stored
    have staked := life.staked active
    exact lives.set (Ledger.nodeAccounts_setNode _ user · _) (fun _ _ _ => rfl)
      ⟨life.unlocked, life.few, life.reputation, life.initialized,
        fun _ => staked.trans (Nat.le_add_right _ _),
        fun gone => absurd (active.symm.trans gone) Bool.true_eq_false.mp⟩
  | slashNode authority o =>
    obtain ⟨node, stored, _, active, _, _, rfl⟩ := slashNode_ok_iff.mp step
    have nodes : ∀ owner, ((l.refunded o (returnAmount node)).setNode o node.slashed).nodeAccounts
        owner = if owner = o then some node.slashed else l.nodeAccounts owner := by
      intro owner
      rw [Ledger.nodeAccounts_setNode, nodeAccounts_refunded]
    refine lives.set nodes (fun _ _ other => if_neg other) ?_
    rw [Instruction.recount, if_pos rfl]
    exact (lives o node stored).slashed active
  | fundEscrow o lamports =>
    obtain rfl := Except.ok.inj step
    exact lives.frame rfl fun _ _ => rfl

theorem run_lifeCycle {ixs : List Instruction} {l : Ledger} (run : Run Step .empty ixs l) :
    LivesOn ixs l := by
  have start : LivesOn [] .empty := by
    intro owner node absent
    cases absent
  exact run.history step_livesOn start

/-- The life cycle of every account that a run of the program created. -/
theorem node_life_cycle (ixs : List Instruction) (l : Ledger) (owner : Pubkey) (node : NodeAccount)
    (run : Run Step .empty ixs l) (stored : l.nodeAccounts owner = some node) :
    node.locked = false ∧ slashesSince owner ixs ≤ 5 ∧
      node.reputation = 100 - 20 * slashesSince owner ixs ∧
      (node.isInitialized = true ↔ 20 ≤ node.reputation) ∧
      (node.isInitialized = true ↔ 0 < node.reputation) ∧
      (node.isInitialized = true → 100_000_000 ≤ node.stakeAmount) ∧
      (node.isInitialized = false → node.stakeAmount = 0) ∧
      (node.isInitialized = false ↔ slashesSince owner ixs = 5) := by
  have life := run_lifeCycle run owner node stored
  have few := life.few
  have reputation := life.reputation
  refine ⟨life.unlocked, few, reputation, ?_, ?_, life.staked, life.unstaked, ?_⟩
  · rw [life.initialized]
    omega
  · rw [life.initialized]
    omega
  · rw [← Bool.not_eq_true, life.initialized]
    omega

def twoSlashes : List Instruction :=
  [.registerNode 1 "http://localhost:9000" 200_000_000 0, .slashNode adminKey 1,
    .slashNode adminKey 1]

theorem life_cycle_of_two_slashes :
    ∃ l node, Run Step .empty twoSlashes l ∧ l.nodeAccounts 1 = some node ∧
      node.reputation = 60 := by
  have run : ∃ l node, Run Step .empty twoSlashes l ∧ l.nodeAccounts 1 = some node :=
    ⟨_, _, .cons (registerNode_ok_iff.mpr ⟨by decide, by decide, rfl, rfl⟩)
      (.cons (slashNode_ok_iff.mpr ⟨_, rfl, .inl rfl, rfl, rfl, by decide, rfl⟩)
        (.cons (slashNode_ok_iff.mpr ⟨_, rfl, .inl rfl, rfl, rfl, by decide, rfl⟩) (.nil _))), rfl⟩
  obtain ⟨l, node, run, stored⟩ := run
  obtain ⟨_, _, reputation, _⟩ := node_life_cycle twoSlashes l 1 node run stored
  exact ⟨l, node, run, stored, reputation⟩

end Solnet.Program
