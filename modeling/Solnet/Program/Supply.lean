import Solnet.Program.Instructions

/-! The supply of the reward token over whole runs. A settlement pays the schedule
from the request count it loads; the count it advances is not written back. -/
namespace Solnet.Program
open Runs

def Instruction.receipts : Instruction → Nat
  | .settleCompressedBatch _ _ _ receiptCount _ _ => receiptCount.toNat
  | _ => 0

/-- What an instruction mints on `mint` when the stored request count is zero. -/
def Instruction.reward (mint : Pubkey) : Instruction → Nat
  | .settleCompressedBatch accounts _ _ receiptCount _ _ =>
    if mint = accounts.solnetMint then scheduledReward 0 receiptCount.toNat else 0
  | _ => 0

/-- The stored count is the receipts settled so far, and the token minted so far is
the schedule up to that count, within its cap. -/
def SupplyLaw (l : Ledger) : Prop :=
  ∃ state, l.programState = some state ∧ state.globalRequestCount = l.settledReceipts ∧
    l.minted state.solnetMint = scheduledReward 0 state.globalRequestCount ∧
    l.minted state.solnetMint ≤ 2 * 10 ^ 18

/-- What the program keeps to, after `done`: the count stays at zero, so each batch
is paid as if it were the first. -/
structure Accounted (initial : ProgramState) (done : List Instruction) (l : Ledger) : Prop where
  state : l.programState = some initial
  unset : initial.globalRequestCount = 0
  receipts : l.settledReceipts = (done.map Instruction.receipts).sum
  minted : ∀ mint, l.minted mint = (done.map (Instruction.reward mint)).sum

theorem settledReceipts_settled (l : Ledger) (accounts : SettleAccounts) (batch : Bytes32)
    (record : BatchRecord) (node : NodeAccount) (reward : Nat) :
    (l.settled accounts batch record node reward).settledReceipts =
      l.settledReceipts + record.receiptCount := by
  simp only [Ledger.settledReceipts, Ledger.settled, List.map_cons, List.sum_cons, Nat.add_comm]

theorem minted_settled (l : Ledger) (accounts : SettleAccounts) (batch : Bytes32)
    (record : BatchRecord) (node : NodeAccount) (reward : Nat) (mint : Pubkey) :
    (l.settled accounts batch record node reward).minted mint =
      l.minted mint + if mint = accounts.solnetMint then reward else 0 := by
  change Function.update l.minted accounts.solnetMint _ mint = _
  rw [Function.update_apply]
  split
  · rename_i same
    rw [same]
    rfl
  · rfl

theorem Accounted.frame {initial : ProgramState} {done : List Instruction} {l l' : Ledger}
    {ix : Instruction} (inv : Accounted initial done l) (state : l'.programState = l.programState)
    (records : l'.batchRecords = l.batchRecords) (minted : l'.minted = l.minted)
    (idle : ix.receipts = 0) (unpaid : ∀ mint, ix.reward mint = 0) :
    Accounted initial (done ++ [ix]) l' where
  state := state.trans inv.state
  unset := inv.unset
  receipts := by
    have same : l'.settledReceipts = l.settledReceipts := by
      rw [Ledger.settledReceipts, Ledger.settledReceipts, records]
    simp only [same, inv.receipts, List.map_append, List.map_cons, List.map_nil, List.sum_append,
      List.sum_cons, List.sum_nil, idle, Nat.add_zero]
  minted mint := by
    simp only [minted, inv.minted, List.map_append, List.map_cons, List.map_nil, List.sum_append,
      List.sum_cons, List.sum_nil, unpaid, Nat.add_zero]

theorem step_accounted {initial : ProgramState} (done : List Instruction) (l : Ledger)
    (ix : Instruction) (l' : Ledger) (inv : Accounted initial done l) (step : Step l ix l') :
    Accounted initial (done ++ [ix]) l' := by
  cases ix with
  | initializeProtocol admin mint bump =>
    obtain ⟨fresh, _⟩ := initializeProtocol_ok_iff.mp step
    rw [inv.state] at fresh
    cases fresh
  | registerNode owner endpoint stake now =>
    obtain ⟨_, _, _, rfl⟩ := registerNode_ok_iff.mp step
    exact inv.frame rfl rfl rfl rfl fun _ => rfl
  | settleCompressedBatch accounts root lamports receipts batch now =>
    obtain ⟨node, state, reward, current, _, _, _, _, loaded, _, _, loop, _, rfl⟩ :=
      settleCompressedBatch_ok_iff.mp step
    obtain rfl := Option.some.inj (loaded.symm.trans inv.state)
    obtain ⟨paid, _⟩ := rewardLoop_ok loop
    rw [inv.unset] at paid
    refine ⟨inv.state, inv.unset, ?_, fun mint => ?_⟩
    · rw [settledReceipts_settled, inv.receipts]
      simp only [List.map_append, List.map_cons, List.map_nil, List.sum_append, List.sum_cons,
        List.sum_nil, Nat.add_zero, Instruction.receipts]
    · rw [minted_settled, inv.minted, paid]
      simp only [List.map_append, List.map_cons, List.map_nil, List.sum_append, List.sum_cons,
        List.sum_nil, Nat.add_zero, Instruction.reward]
  | stakeForPriority user tokens vault amount =>
    obtain ⟨node, _, _, _, _, _, _, _, rfl⟩ := stakeForPriority_ok_iff.mp step
    exact inv.frame rfl rfl rfl rfl fun _ => rfl
  | slashNode authority owner =>
    obtain ⟨node, _, _, _, _, _, rfl⟩ := slashNode_ok_iff.mp step
    exact inv.frame (programState_refunded l owner _) (batchRecords_refunded l owner _)
      (minted_refunded l owner _) rfl fun _ => rfl
  | fundEscrow owner lamports =>
    obtain rfl := Except.ok.inj step
    exact inv.frame rfl rfl rfl rfl fun _ => rfl

theorem run_accounted {admin mint : Pubkey} {bump : UInt8} {ixs : List Instruction} {l : Ledger}
    (run : Run Step .empty (.initializeProtocol admin mint bump :: ixs) l) :
    Accounted ⟨admin, mint, bump.toNat, 0⟩ ixs l := by
  obtain ⟨l₀, first, rest⟩ := run_cons_iff.mp run
  obtain ⟨_, rfl⟩ := initializeProtocol_ok_iff.mp first
  have start : Accounted ⟨admin, mint, bump.toNat, 0⟩ []
      { Ledger.empty with programState := some ⟨admin, mint, bump.toNat, 0⟩ } :=
    ⟨rfl, rfl, rfl, fun _ => rfl⟩
  simpa only [List.nil_append] using rest.history step_accounted start

theorem reward_of_idle (mint : Pubkey) {ix : Instruction} (idle : ix.receipts = 0) :
    ix.reward mint = 0 := by
  cases ix with
  | settleCompressedBatch accounts root lamports receipts batch now =>
    have none : receipts.toNat = 0 := idle
    simp only [Instruction.reward, none, scheduledReward_zero, ite_self]
  | _ => rfl

/-- The supply law holds after a run exactly when no settlement of the run carried a
receipt. -/
theorem supply_law_iff_no_receipts (admin mint : Pubkey) (bump : UInt8) (ixs : List Instruction)
    (l : Ledger) (run : Run Step .empty (.initializeProtocol admin mint bump :: ixs) l) :
    SupplyLaw l ↔ ∀ ix ∈ ixs, ix.receipts = 0 := by
  have inv := run_accounted run
  constructor
  · rintro ⟨state, stored, count, _⟩
    obtain rfl := Option.some.inj (stored.symm.trans inv.state)
    have total : (ixs.map Instruction.receipts).sum = 0 := (count.trans inv.receipts).symm
    intro ix member
    exact List.sum_eq_zero_iff.mp total _ (List.mem_map_of_mem member)
  · intro idle
    have total : (ixs.map Instruction.receipts).sum = 0 := by
      apply List.sum_eq_zero
      simpa only [List.mem_map, forall_exists_index, and_imp, forall_apply_eq_imp_iff₂] using idle
    have unpaid : (ixs.map (Instruction.reward mint)).sum = 0 := by
      apply List.sum_eq_zero
      simp only [List.mem_map, forall_exists_index, and_imp, forall_apply_eq_imp_iff₂]
      exact fun ix member => reward_of_idle mint (idle ix member)
    refine ⟨_, inv.state, ?_, ?_, ?_⟩
    · rw [inv.receipts, total]
    · rw [inv.minted, unpaid]
      rfl
    · rw [inv.minted, unpaid]
      exact Nat.zero_le _

def oneBatch (receipts : UInt64) : List Instruction :=
  [.registerNode 1 "http://localhost:9000" 200_000_000 0,
    .settleCompressedBatch ⟨1, 9, ⟨9, .wallet 1, 0⟩⟩ 0 0 receipts 5 0]

theorem oneBatch_runs (receipts : UInt64) {reward current : Nat}
    (loop : rewardLoop 0 receipts.toNat = .ok (reward, current)) :
    ∃ l, Run Step .empty (.initializeProtocol 2 9 255 :: oneBatch receipts) l ∧
      l.settledReceipts = receipts.toNat := by
  have fits : 0 + receipts.toNat < 2 ^ 64 := by
    rw [Nat.zero_add]
    exact receipts.toNat_lt
  refine ⟨_, .cons (initializeProtocol_ok_iff.mpr ⟨rfl, rfl⟩)
    (.cons (registerNode_ok_iff.mpr ⟨by decide, by decide, rfl, rfl⟩)
    (.cons (settleCompressedBatch_ok_iff.mpr ⟨_, _, reward, current, rfl, by simp [Ledger.setNode,
      Ledger.deposit, Ledger.empty], rfl, rfl, rfl, by decide, Nat.zero_le _, loop, fits, rfl⟩)
    (.nil _))), ?_⟩
  rw [settledReceipts_settled]
  exact Nat.zero_add _

theorem rewardLoop_first : rewardLoop 0 1 = .ok (10 ^ 10, 1) := by
  have turn : eraStep ⟨0, 0, 1⟩ = .ok ⟨10 ^ 10, 1, 0⟩ := by rfl
  rw [rewardLoop, While.run_turn rfl turn, While.run_done rfl]

theorem supply_law_of_empty_batch :
    ∃ l, Run Step .empty (.initializeProtocol 2 9 255 :: oneBatch 0) l ∧ SupplyLaw l := by
  obtain ⟨l, run, _⟩ := oneBatch_runs 0 (rewardLoop_empty 0)
  refine ⟨l, run, (supply_law_iff_no_receipts 2 9 255 (oneBatch 0) l run).mpr ?_⟩
  simp [oneBatch, Instruction.receipts]

/-- One receipt breaks it: the stored count is still zero afterwards. -/
theorem supply_law_fails_after_one_receipt :
    ¬ ∀ (admin mint : Pubkey) (bump : UInt8) (ixs : List Instruction) (l : Ledger),
      Run Step .empty (.initializeProtocol admin mint bump :: ixs) l → SupplyLaw l := by
  intro law
  obtain ⟨l, run, settled⟩ := oneBatch_runs 1 rewardLoop_first
  obtain ⟨state, stored, count, _⟩ := law 2 9 255 (oneBatch 1) l run
  obtain rfl := Option.some.inj (stored.symm.trans (run_accounted run).state)
  rw [settled] at count
  exact absurd count (by decide)

end Solnet.Program
