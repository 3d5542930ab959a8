import Mathlib.Tactic.Basic
import Solnet.Program.Instructions

/-! The escrow of an owner: what it must hold for the stake it stands for, and what
it pays out after an ejection. Every transfer into or out of an escrow is one of the
program or a deposit from outside, so a balance is what came in less what went out. -/
namespace Solnet.Program
open Runs Fallible

/-! Transfers. -/

theorem escrow_deposit (l : Ledger) (owner o : Pubkey) (n : Nat) :
    (l.deposit owner n).escrowLamports o =
      l.escrowLamports o + if o = owner then n else 0 := by
  change Function.update l.escrowLamports owner _ o = _
  rw [Function.update_apply]
  split
  · rename_i same
    rw [same]
  · rfl

theorem escrow_withdraw (l : Ledger) (owner o : Pubkey) (n : Nat) :
    (l.withdraw owner n).escrowLamports o =
      l.escrowLamports o - if o = owner then n else 0 := by
  change Function.update l.escrowLamports owner _ o = _
  rw [Function.update_apply]
  split
  · rename_i same
    rw [same]
  · rfl

theorem deposited_deposit (l : Ledger) (owner o : Pubkey) (n : Nat) :
    (l.deposit owner n).deposited o = l.deposited o + if o = owner then n else 0 := by
  simp only [Ledger.deposited, Ledger.deposit, List.map_cons, List.sum_cons, Transfer.depositFor,
    Nat.add_comm, eq_comm]

theorem paidOut_deposit (l : Ledger) (owner o : Pubkey) (n : Nat) :
    (l.deposit owner n).paidOut o = l.paidOut o := by
  simp only [Ledger.paidOut, Ledger.deposit, List.map_cons, List.sum_cons, Transfer.payoutFor,
    Nat.zero_add]

theorem deposited_withdraw (l : Ledger) (owner o : Pubkey) (n : Nat) :
    (l.withdraw owner n).deposited o = l.deposited o := by
  simp only [Ledger.deposited, Ledger.withdraw, List.map_cons, List.sum_cons, Transfer.depositFor,
    Nat.zero_add]

theorem paidOut_withdraw (l : Ledger) (owner o : Pubkey) (n : Nat) :
    (l.withdraw owner n).paidOut o = l.paidOut o + if o = owner then n else 0 := by
  simp only [Ledger.paidOut, Ledger.withdraw, List.map_cons, List.sum_cons, Transfer.payoutFor,
    Nat.add_comm, eq_comm]

/-! One transaction, seen from the escrow of one owner. -/

def Instruction.deposits (owner : Pubkey) : Instruction → Nat
  | .registerNode o _ stakeAmount _ => if owner = o then stakeAmount.toNat else 0
  | .fundEscrow o lamports => if owner = o then lamports else 0
  | _ => 0

/-- Lamports a transaction takes out of the escrow of `owner`: the payment of a
settlement, or the half of the stake that an ejecting slash returns. -/
def Instruction.payout (l : Ledger) (owner : Pubkey) : Instruction → Nat
  | .settleCompressedBatch accounts _ totalLamports _ _ _ =>
    if owner = accounts.owner then totalLamports.toNat else 0
  | .slashNode _ o =>
    if owner = o then ((l.nodeAccounts o).map returnAmount).getD 0 else 0
  | _ => 0

structure EscrowMoved (l : Ledger) (ix : Instruction) (l' : Ledger) (owner : Pubkey) : Prop where
  funded : ix.payout l owner ≤ l.escrowLamports owner
  balance : l'.escrowLamports owner =
    l.escrowLamports owner + ix.deposits owner - ix.payout l owner
  deposited : l'.deposited owner = l.deposited owner + ix.deposits owner
  paidOut : l'.paidOut owner = l.paidOut owner + ix.payout l owner

theorem EscrowMoved.still {l l' : Ledger} {ix : Instruction} {owner : Pubkey}
    (escrow : l'.escrowLamports = l.escrowLamports) (transfers : l'.transfers = l.transfers)
    (noDeposit : ix.deposits owner = 0) (noPayout : ix.payout l owner = 0) :
    EscrowMoved l ix l' owner where
  funded := by rw [noPayout]; exact Nat.zero_le _
  balance := by rw [escrow, noDeposit, noPayout]; rfl
  deposited := by rw [Ledger.deposited, transfers, noDeposit]; rfl
  paidOut := by rw [Ledger.paidOut, transfers, noPayout]; rfl

theorem EscrowMoved.of_deposit {l l' : Ledger} {ix : Instruction} {o owner : Pubkey} {n : Nat}
    (escrow : l'.escrowLamports = (l.deposit o n).escrowLamports)
    (transfers : l'.transfers = (l.deposit o n).transfers)
    (deposits : ix.deposits owner = if owner = o then n else 0)
    (noPayout : ix.payout l owner = 0) : EscrowMoved l ix l' owner where
  funded := by rw [noPayout]; exact Nat.zero_le _
  balance := by rw [escrow, escrow_deposit, deposits, noPayout]; rfl
  deposited := by
    rw [Ledger.deposited, transfers, deposits]
    exact deposited_deposit l o owner n
  paidOut := by
    rw [Ledger.paidOut, transfers, noPayout]
    exact paidOut_deposit l o owner n

theorem EscrowMoved.of_withdraw {l l' : Ledger} {ix : Instruction} {o owner : Pubkey} {n : Nat}
    (funded : n ≤ l.escrowLamports o)
    (escrow : l'.escrowLamports = (l.withdraw o n).escrowLamports)
    (transfers : l'.transfers = (l.withdraw o n).transfers)
    (noDeposit : ix.deposits owner = 0)
    (payout : ix.payout l owner = if owner = o then n else 0) : EscrowMoved l ix l' owner where
  funded := by
    rw [payout]
    split
    · rename_i same
      exact same ▸ funded
    · exact Nat.zero_le _
  balance := by rw [escrow, escrow_withdraw, noDeposit, payout]; rfl
  deposited := by
    rw [Ledger.deposited, transfers, noDeposit]
    exact deposited_withdraw l o owner n
  paidOut := by
    rw [Ledger.paidOut, transfers, payout]
    exact paidOut_withdraw l o owner n

theorem step_moved {l l' : Ledger} {ix : Instruction} (step : Step l ix l') (owner : Pubkey) :
    EscrowMoved l ix l' owner := by
  cases ix with
  | initializeProtocol admin mint bump =>
    obtain ⟨_, rfl⟩ := initializeProtocol_ok_iff.mp step
    exact .still rfl rfl rfl rfl
  | registerNode o endpoint stake now =>
    obtain ⟨_, _, _, rfl⟩ := registerNode_ok_iff.mp step
    exact .of_deposit rfl rfl rfl rfl
  | settleCompressedBatch accounts root lamports receipts batch now =>
    obtain ⟨node, state, reward, current, _, _, _, _, _, _, funded, _, _, rfl⟩ :=
      settleCompressedBatch_ok_iff.mp step
    exact .of_withdraw funded rfl rfl rfl rfl
  | stakeForPriority user tokens vault amount =>
    obtain ⟨node, _, _, _, _, _, _, _, rfl⟩ := stakeForPriority_ok_iff.mp step
    exact .still rfl rfl rfl rfl
  | slashNode authority o =>
    obtain ⟨node, stored, _, _, _, funded, rfl⟩ := slashNode_ok_iff.mp step
    have payout : (Instruction.slashNode authority o).payout l owner =
        if owner = o then returnAmount node else 0 := by
      simp only [Instruction.payout, stored, Option.map_some, Option.getD_some]
    unfold Ledger.refunded
    split
    · exact .of_withdraw funded rfl rfl rfl payout
    · rename_i nothing
      refine .still rfl rfl rfl ?_
      rw [payout]
      split <;> omega
  | fundEscrow o lamports =>
    obtain rfl := Except.ok.inj step
    exact .of_deposit rfl rfl rfl rfl

/-- Every balance is what came in less what went out. -/
def Balanced (l : Ledger) : Prop :=
  ∀ owner, l.escrowLamports owner + l.paidOut owner = l.deposited owner

theorem step_balanced (l : Ledger) (ix : Instruction) (l' : Ledger) (balanced : Balanced l)
    (step : Step l ix l') : Balanced l' := by
  intro owner
  have before := balanced owner
  have moved := step_moved step owner
  have funded := moved.funded
  rw [moved.balance, moved.paidOut, moved.deposited]
  omega

theorem run_balanced {ixs : List Instruction} {l : Ledger} (run : Run Step .empty ixs l) :
    Balanced l :=
  run.invariant step_balanced fun _ => rfl

/-! Solvency. -/

def SolventFor (l : Ledger) (owner : Pubkey) : Prop :=
  ∀ node, l.nodeAccounts owner = some node → node.isInitialized = true →
    node.stakeAmount ≤ l.escrowLamports owner

/-- Every initialised node has its stake in escrow, and the admin can slash any node
without the escrow running short. -/
def EscrowSolvency (l : Ledger) : Prop :=
  ∀ owner, SolventFor l owner ∧ slashNode l adminKey owner ≠ .error .insufficientFunds

/-- A settlement pays from what the escrow holds beyond the stake, and a priority
stake is covered by the escrow. -/
def LeavesStake (l : Ledger) : Instruction → Prop
  | .settleCompressedBatch accounts _ totalLamports _ _ _ =>
    ∀ node, l.nodeAccounts accounts.owner = some node → node.isInitialized = true →
      node.stakeAmount + totalLamports.toNat ≤ l.escrowLamports accounts.owner
  | .stakeForPriority user _ _ amount =>
    ∀ node, l.nodeAccounts user = some node →
      node.stakeAmount + amount.toNat ≤ l.escrowLamports user
  | _ => True

theorem refund_short {l : Ledger} {owner : Pubkey} {n : Nat} {e : Failure}
    (failed : l.refund owner n = .error e) : l.escrowLamports owner < n := by
  rw [← Nat.not_le]
  intro funded
  rw [refund_ok_iff.mpr ⟨funded, rfl⟩] at failed
  cases failed

theorem slashNode_unfunded {l : Ledger} {authority owner : Pubkey}
    (short : slashNode l authority owner = .error .insufficientFunds) :
    ∃ node, l.nodeAccounts owner = some node ∧ node.isInitialized = true ∧
      l.escrowLamports owner < returnAmount node := by
  simp only [slashNode, bind_error_iff, require_error_iff, require_ok_iff, exists_const,
    Ledger.loadNode_ok_iff, reduceCtorEq, and_false, exists_false, false_or, or_false, pure,
    Except.pure] at short
  rcases short with absent | ⟨node, stored, _, active, _, refund⟩
  · unfold Ledger.loadNode at absent
    split at absent <;> cases absent
  · exact ⟨node, stored, active, refund_short refund⟩

theorem returnAmount_le (node : NodeAccount) : returnAmount node ≤ node.stakeAmount := by
  unfold returnAmount
  split
  · exact Nat.div_le_self _ 2
  · exact Nat.zero_le _

theorem escrowSolvency_iff {l : Ledger} : EscrowSolvency l ↔ ∀ owner, SolventFor l owner := by
  constructor
  · exact fun solvency owner => (solvency owner).1
  · intro solvent owner
    refine ⟨solvent owner, fun short => ?_⟩
    obtain ⟨node, stored, active, lacking⟩ := slashNode_unfunded short
    have covered := solvent owner node stored active
    have half := returnAmount_le node
    omega

theorem solvent_setNode_iff {l : Ledger} (m : Ledger) (owner : Pubkey) (node : NodeAccount)
    (solvent : ∀ o, SolventFor l o) (nodes : m.nodeAccounts = l.nodeAccounts)
    (others : ∀ o, o ≠ owner → l.escrowLamports o ≤ m.escrowLamports o) :
    (∀ o, SolventFor (m.setNode owner node) o) ↔
      (node.isInitialized = true → node.stakeAmount ≤ m.escrowLamports owner) := by
  constructor
  · intro solvent' active
    have stored := (Ledger.nodeAccounts_setNode m owner owner node).trans (if_pos rfl)
    exact solvent' owner node stored active
  · intro covered o stored here active
    by_cases same : o = owner
    · subst same
      rw [Ledger.nodeAccounts_setNode, if_pos rfl] at here
      obtain rfl := Option.some.inj here
      exact covered active
    · rw [Ledger.nodeAccounts_setNode_of_ne m node same, nodes] at here
      exact (solvent o stored here active).trans (others o same)

theorem solvent_of_escrow_grows {l m : Ledger} (solvent : ∀ o, SolventFor l o)
    (nodes : m.nodeAccounts = l.nodeAccounts)
    (grows : ∀ o, l.escrowLamports o ≤ m.escrowLamports o) : ∀ o, SolventFor m o := by
  intro o node stored active
  rw [nodes] at stored
  exact (solvent o node stored active).trans (grows o)

theorem withdraw_others {l : Ledger} {owner : Pubkey} {n : Nat} (o : Pubkey) (other : o ≠ owner) :
    l.escrowLamports o ≤ (l.withdraw owner n).escrowLamports o := by
  rw [escrow_withdraw, if_neg other]
  exact Nat.le_refl _

theorem deposit_grows {l : Ledger} {owner : Pubkey} {n : Nat} (o : Pubkey) :
    l.escrowLamports o ≤ (l.deposit owner n).escrowLamports o := by
  rw [escrow_deposit]
  exact Nat.le_add_right _ _

theorem settled_solvent_iff {l : Ledger} {accounts : SettleAccounts} {batch : Bytes32}
    {record : BatchRecord} {node : NodeAccount} {reward : Nat} (solvent : ∀ o, SolventFor l o)
    (funded : record.totalLamports ≤ l.escrowLamports accounts.owner) :
    (∀ o, SolventFor (l.settled accounts batch record node reward) o) ↔
      (node.isInitialized = true →
        node.stakeAmount + record.totalLamports ≤ l.escrowLamports accounts.owner) := by
  refine Iff.trans (solvent_setNode_iff (l.withdraw accounts.owner record.totalLamports)
    accounts.owner { node with requestsServed := node.requestsServed + record.receiptCount }
    solvent rfl withdraw_others) ?_
  rw [escrow_withdraw, if_pos rfl]
  constructor
  · intro covered active
    have := covered active
    dsimp only at this
    omega
  · intro covered active
    have := covered active
    dsimp only
    omega

theorem step_solvent_iff {l : Ledger} {ix : Instruction} {l' : Ledger}
    (solvent : ∀ o, SolventFor l o) (step : Step l ix l') :
    (∀ o, SolventFor l' o) ↔ LeavesStake l ix := by
  cases ix with
  | initializeProtocol admin mint bump =>
    obtain ⟨_, rfl⟩ := initializeProtocol_ok_iff.mp step
    exact iff_of_true (solvent_of_escrow_grows solvent rfl fun _ => Nat.le_refl _) trivial
  | registerNode owner endpoint stake now =>
    obtain ⟨_, _, _, rfl⟩ := registerNode_ok_iff.mp step
    refine iff_of_true ((solvent_setNode_iff (l.deposit owner stake.toNat) owner _ solvent rfl
      fun o _ => deposit_grows o).mpr ?_) trivial
    rw [escrow_deposit, if_pos rfl]
    exact fun _ => Nat.le_add_left _ _
  | settleCompressedBatch accounts root lamports receipts batch now =>
    obtain ⟨node, state, reward, current, stored, _, _, _, _, _, funded, _, _, rfl⟩ :=
      settleCompressedBatch_ok_iff.mp step
    rw [settled_solvent_iff solvent funded]
    simp only [LeavesStake, stored, Option.some.injEq, forall_eq']
  | stakeForPriority user tokens vault amount =>
    obtain ⟨node, stored, _, _, _, active, _, _, rfl⟩ := stakeForPriority_ok_iff.mp step
    rw [solvent_setNode_iff l user _ solvent rfl fun _ _ => Nat.le_refl _]
    simp only [LeavesStake, stored, active, Option.some.injEq, forall_eq', true_implies]
  | slashNode authority owner =>
    obtain ⟨node, stored, _, active, _, _, rfl⟩ := slashNode_ok_iff.mp step
    refine iff_of_true ?_ trivial
    have covered := solvent owner node stored active
    unfold Ledger.refunded NodeAccount.slashed returnAmount
    by_cases ejects : slashedReputation node < 20
    · simp only [if_pos ejects]
      split
      · exact (solvent_setNode_iff (l.withdraw owner _) owner _ solvent rfl withdraw_others).mpr
          fun active' => absurd active' Bool.false_ne_true
      · exact (solvent_setNode_iff l owner _ solvent rfl fun _ _ => Nat.le_refl _).mpr
          fun active' => absurd active' Bool.false_ne_true
    · simp only [if_neg ejects, Nat.lt_irrefl, if_false]
      exact (solvent_setNode_iff l owner _ solvent rfl fun _ _ => Nat.le_refl _).mpr
        fun _ => covered
  | fundEscrow owner lamports =>
    obtain rfl := Except.ok.inj step
    exact iff_of_true (solvent_of_escrow_grows solvent rfl deposit_grows) trivial

theorem empty_solvency : EscrowSolvency .empty :=
  escrowSolvency_iff.mpr fun _ _ absent => nomatch absent

/-- Every state of a run is solvent exactly when each of its transactions leaves the
stakes in escrow. -/
theorem escrow_solvency_iff_leaves_stake (ixs : List Instruction) (l : Ledger)
    (run : Run Step .empty ixs l) :
    Always Step EscrowSolvency .empty ixs ↔ Run (Guarded Step LeavesStake) .empty ixs l := by
  refine always_iff_guarded (I := fun _ => True) step_deterministic (fun _ _ _ _ _ => trivial) ?_
    run trivial empty_solvency
  intro s ix t _ solvency step
  rw [escrowSolvency_iff]
  exact step_solvent_iff (escrowSolvency_iff.mp solvency) step

/-! A node with 0.2 SOL of stake and five lamports of earnings. -/

def registration : List Instruction :=
  [.initializeProtocol 2 9 255, .registerNode 1 "http://localhost:9000" 200_000_000 0,
    .fundEscrow 1 5]

def settleLamports (totalLamports : UInt64) : Instruction :=
  .settleCompressedBatch ⟨1, 9, ⟨9, .wallet 1, 0⟩⟩ 0 totalLamports 0 5 0

structure ReadyToSettle (l : Ledger) (node : NodeAccount) (escrow : Nat) : Prop where
  stored : l.nodeAccounts 1 = some node
  fresh : l.batchRecords = []
  state : l.programState = some ⟨2, 9, 255, 0⟩
  standing : 0 < node.reputation
  unserved : node.requestsServed = 0
  held : l.escrowLamports 1 = escrow

theorem registration_runs :
    ∃ l, Run (Guarded Step LeavesStake) .empty registration l ∧
      ReadyToSettle l (.registered 1 "http://localhost:9000" 200_000_000 0) 200_000_005 :=
  ⟨_, .cons ⟨initializeProtocol_ok_iff.mpr ⟨rfl, rfl⟩, trivial⟩
    (.cons ⟨registerNode_ok_iff.mpr ⟨by decide, by decide, rfl, rfl⟩, trivial⟩
    (.cons ⟨rfl, trivial⟩ (.nil _))), ⟨rfl, rfl, rfl, by decide, rfl, rfl⟩⟩

theorem ReadyToSettle.step {l : Ledger} {node : NodeAccount} {escrow : Nat} {n : UInt64}
    (ready : ReadyToSettle l node escrow) (funded : n.toNat ≤ escrow) :
    ∃ l', Step l (settleLamports n) l' ∧ l'.escrowLamports 1 = escrow - n.toNat ∧
      l'.nodeAccounts 1 = some { node with requestsServed := 0 } := by
  have step : Step l (settleLamports n) _ := settleCompressedBatch_ok_iff.mpr
    ⟨node, _, _, _, ready.stored, by simp [ready.fresh], rfl, rfl, ready.state, ready.standing,
      ready.held ▸ funded, rewardLoop_empty 0, by rw [ready.unserved]; decide, rfl⟩
  have moved := step_moved step 1
  refine ⟨_, step, ?_, ?_⟩
  · rw [moved.balance, ready.held]
    rfl
  · simp only [Ledger.settled, Ledger.setNode, Function.update_self, ready.unserved]
    rfl

theorem escrow_solvency_of_earnings :
    Always Step EscrowSolvency .empty (registration ++ [settleLamports 5]) := by
  obtain ⟨l, registered, ready⟩ := registration_runs
  obtain ⟨l', step, _⟩ := ready.step (n := 5) (by decide)
  have leaves : LeavesStake l (settleLamports 5) := by
    intro node stored _
    obtain rfl := Option.some.inj (ready.stored.symm.trans stored)
    rw [show l.escrowLamports (SettleAccounts.owner _) = 200_000_005 from ready.held]
    decide
  have guarded : Run (Guarded Step LeavesStake) .empty (registration ++ [settleLamports 5]) l' :=
    run_append_iff.mpr ⟨l, registered, .cons ⟨step, leaves⟩ (.nil _)⟩
  exact (escrow_solvency_iff_leaves_stake _ l' guarded.unguarded).mpr guarded

/-- The escrow pays a settlement of more than that out of the stake. -/
theorem escrow_solvency_fails_after_settlement :
    ¬ ∀ (ixs : List Instruction) (l : Ledger), Run Step .empty ixs l → EscrowSolvency l := by
  intro solvency
  obtain ⟨l, registered, ready⟩ := registration_runs
  obtain ⟨l', step, drained, stored⟩ := ready.step (n := 200_000_005) (by decide)
  have run : Run Step .empty (registration ++ [settleLamports 200_000_005]) l' :=
    run_append_iff.mpr ⟨l, registered.unguarded, .cons step (.nil _)⟩
  have covered := (solvency _ l' run 1).1 _ stored rfl
  rw [drained] at covered
  exact absurd covered (by decide)

end Solnet.Program
