import Solnet.Lib.Runs
import Solnet.Program.Reward

/-! The instructions, as functions from the ledger before to the ledger after. An
error rolls the whole instruction back. Events and log texts are left out, and so
are the wallets that pay rent: nothing the program stores depends on them. -/
namespace Solnet.Program
open Fallible

def initializeProtocol (l : Ledger) (admin solnetMint : Pubkey) (mintAuthorityBump : UInt8) :
    Except Failure Ledger := do
  require (l.programState = none) .accountInUse
  return { l with
    programState := some ⟨admin, solnetMint, mintAuthorityBump.toNat, 0⟩ }

/-- The account `register_node` leaves: every field is written anew. -/
def NodeAccount.registered (owner : Pubkey) (endpoint : String) (stakeAmount : UInt64)
    (now : Int) : NodeAccount where
  owner := owner
  endpoint := endpoint
  stakeAmount := stakeAmount.toNat
  reputation := 100
  registeredAt := now
  requestsServed := 0
  isInitialized := true
  locked := false

def registerNode (l : Ledger) (owner : Pubkey) (endpoint : String) (stakeAmount : UInt64)
    (now : Int) : Except Failure Ledger := do
  let stored := (l.nodeAccounts owner).getD .zeroed
  require (endpoint.utf8ByteSize ≤ 100) (.sns .invalidEndpoint)
  require (100_000_000 ≤ stakeAmount.toNat) (.sns .insufficientStake)
  require (stored.isInitialized = false) (.sns .nodeAlreadyRegistered)
  let node := NodeAccount.registered owner endpoint stakeAmount now
  return (l.deposit owner stakeAmount.toNat).setNode owner
    (RegisterNode.nodeAccount.exit stored node)

/-- The accounts of a settlement that are not fixed by the owner's seeds. -/
structure SettleAccounts where
  owner : Pubkey
  solnetMint : Pubkey
  nodeTokenAccount : TokenAccount

def settleCompressedBatch (l : Ledger) (accounts : SettleAccounts) (merkleRoot : Bytes32)
    (totalLamports receiptCount : UInt64) (batchIdBytes : Bytes32) (now : Int) :
    Except Failure Ledger := do
  let owner := accounts.owner
  let node ← l.loadNode owner
  require (∀ b ∈ l.batchRecords, b.1 ≠ batchIdBytes) .accountInUse
  require (accounts.nodeTokenAccount.mint = accounts.solnetMint) .constraint
  require (accounts.nodeTokenAccount.owner = .wallet owner) .constraint
  let state ← l.loadProgramState
  require (0 < node.reputation) (.sns .nodeSlashed)
  require (totalLamports.toNat ≤ l.escrowLamports owner) (.sns .insufficientEscrow)
  let paid ← l.payOut owner totalLamports.toNat
  let (rewardAmount, currentGlobal) ← rewardLoop state.globalRequestCount receiptCount.toNat
  let globalState := { state with globalRequestCount := currentGlobal }
  let record : BatchRecord :=
    ⟨.nodePda owner, merkleRoot, totalLamports.toNat, receiptCount.toNat, now⟩
  let requestsServed ← checkedAdd node.requestsServed receiptCount.toNat
  return { (paid.mintTo accounts.solnetMint rewardAmount).setNode owner
      (SettleCompressedBatch.nodeAccount.exit node { node with requestsServed }) with
    batchRecords := (batchIdBytes, record) :: l.batchRecords
    programState := some (SettleCompressedBatch.programState.exit state globalState) }

def stakeForPriority (l : Ledger) (user : Pubkey) (userTokenAccount stakeVault : TokenAccount)
    (amount : UInt64) : Except Failure Ledger := do
  let node ← l.loadNode user
  require (stakeVault.mint = userTokenAccount.mint) .constraint
  require (stakeVault.owner = .nodePda user) .constraint
  require (1000 * 10 ^ 9 ≤ amount.toNat) (.sns .insufficientStake)
  require (node.isInitialized = true) (.sns .nodeNotFound)
  -- the tokens leave the user's account; no lamports move
  require (userTokenAccount.owner = .wallet user ∧ amount.toNat ≤ userTokenAccount.amount)
    .insufficientFunds
  let stakeAmount ← checkedAdd node.stakeAmount amount.toNat
  return l.setNode user (StakeForPriority.nodeAccount.exit node { node with stakeAmount })

def slashedReputation (node : NodeAccount) : Nat := node.reputation - 20

/-- The account a slash leaves; the lock it takes is released at the end. -/
def NodeAccount.slashed (node : NodeAccount) : NodeAccount :=
  if slashedReputation node < 20 then
    { node with
      reputation := slashedReputation node
      isInitialized := false
      stakeAmount := 0
      locked := false }
  else { node with reputation := slashedReputation node, locked := false }

/-- The lamports a slash returns to the owner: half the stake on ejection. -/
def returnAmount (node : NodeAccount) : Nat :=
  if slashedReputation node < 20 then node.stakeAmount / 2 else 0

def Ledger.refund (l : Ledger) (owner : Pubkey) (lamports : Nat) : Except Failure Ledger :=
  if 0 < lamports then l.payOut owner lamports else .ok l

def slashNode (l : Ledger) (authority owner : Pubkey) : Except Failure Ledger := do
  let node ← l.loadNode owner
  require (authority = adminKey ∨ authority = owner) (.sns .unauthorized)
  require (node.isInitialized = true) (.sns .nodeNotFound)
  require (node.locked = false) (.sns .reentrancy)
  let paid ← l.refund owner (returnAmount node)
  return paid.setNode owner (SlashNode.nodeAccount.exit node node.slashed)

/-- A transaction of a run: an instruction of the program, or a transfer from
outside into an escrow. -/
inductive Instruction where
  | initializeProtocol (admin solnetMint : Pubkey) (mintAuthorityBump : UInt8)
  | registerNode (owner : Pubkey) (endpoint : String) (stakeAmount : UInt64) (now : Int)
  | settleCompressedBatch (accounts : SettleAccounts) (merkleRoot : Bytes32)
      (totalLamports receiptCount : UInt64) (batchIdBytes : Bytes32) (now : Int)
  | stakeForPriority (user : Pubkey) (userTokenAccount stakeVault : TokenAccount)
      (amount : UInt64)
  | slashNode (authority owner : Pubkey)
  | fundEscrow (owner : Pubkey) (lamports : Nat)

def execute (l : Ledger) : Instruction → Except Failure Ledger
  | .initializeProtocol admin solnetMint bump => initializeProtocol l admin solnetMint bump
  | .registerNode owner endpoint stake now => registerNode l owner endpoint stake now
  | .settleCompressedBatch accounts root lamports receipts batch now =>
    settleCompressedBatch l accounts root lamports receipts batch now
  | .stakeForPriority user tokens vault amount => stakeForPriority l user tokens vault amount
  | .slashNode authority owner => slashNode l authority owner
  | .fundEscrow owner lamports => .ok (l.deposit owner lamports)

def Step (l : Ledger) (ix : Instruction) (l' : Ledger) : Prop := execute l ix = .ok l'

theorem step_deterministic : Runs.Deterministic Step := by
  intro l ix l₁ l₂ first second
  exact Except.ok.inj (first.symm.trans second)

/-! What each instruction requires and what it leaves. -/

theorem initializeProtocol_ok_iff {l l' : Ledger} {admin mint : Pubkey} {bump : UInt8} :
    initializeProtocol l admin mint bump = .ok l' ↔
      l.programState = none ∧
        { l with programState := some ⟨admin, mint, bump.toNat, 0⟩ } = l' := by
  simp only [initializeProtocol, bind_ok_iff, require_ok_iff, exists_and_left, exists_const, pure,
    Except.pure, Except.ok.injEq]

theorem registerNode_ok_iff {l l' : Ledger} {owner : Pubkey} {endpoint : String}
    {stake : UInt64} {now : Int} :
    registerNode l owner endpoint stake now = .ok l' ↔
      endpoint.utf8ByteSize ≤ 100 ∧ 100_000_000 ≤ stake.toNat ∧
        ((l.nodeAccounts owner).getD .zeroed).isInitialized = false ∧
        (l.deposit owner stake.toNat).setNode owner
          (.registered owner endpoint stake now) = l' := by
  simp only [registerNode, bind_ok_iff, require_ok_iff, exists_and_left, exists_const, pure,
    Except.pure, Except.ok.injEq]
  exact Iff.rfl

theorem settle_exit {l : Ledger} {state advanced : ProgramState}
    (loaded : l.programState = some state) :
    some (SettleCompressedBatch.programState.exit state advanced) = l.programState :=
  loaded.symm

/-- The ledger a settlement leaves. The program state is the one it loaded: its
account is not writable, so the count it advanced is dropped. -/
def Ledger.settled (l : Ledger) (accounts : SettleAccounts) (batchIdBytes : Bytes32)
    (record : BatchRecord) (node : NodeAccount) (rewardAmount : Nat) : Ledger :=
  { ((l.withdraw accounts.owner record.totalLamports).mintTo accounts.solnetMint
      rewardAmount).setNode accounts.owner
      { node with requestsServed := node.requestsServed + record.receiptCount } with
    batchRecords := (batchIdBytes, record) :: l.batchRecords }

theorem settleCompressedBatch_ok_iff {l l' : Ledger} {accounts : SettleAccounts} {root : Bytes32}
    {lamports receipts : UInt64} {batch : Bytes32} {now : Int} :
    settleCompressedBatch l accounts root lamports receipts batch now = .ok l' ↔
      ∃ node state rewardAmount currentGlobal,
        l.nodeAccounts accounts.owner = some node ∧
        (∀ b ∈ l.batchRecords, b.1 ≠ batch) ∧
        accounts.nodeTokenAccount.mint = accounts.solnetMint ∧
        accounts.nodeTokenAccount.owner = .wallet accounts.owner ∧
        l.programState = some state ∧ 0 < node.reputation ∧
        lamports.toNat ≤ l.escrowLamports accounts.owner ∧
        rewardLoop state.globalRequestCount receipts.toNat = .ok (rewardAmount, currentGlobal) ∧
        node.requestsServed + receipts.toNat < 2 ^ 64 ∧
        l.settled accounts batch
          ⟨.nodePda accounts.owner, root, lamports.toNat, receipts.toNat, now⟩ node
          rewardAmount = l' := by
  simp only [settleCompressedBatch, bind_ok_iff, require_ok_iff, exists_and_left, exists_const,
    pure, Except.pure, Except.ok.injEq, Ledger.loadNode_ok_iff, Ledger.loadProgramState_ok_iff,
    Ledger.payOut_ok_iff, checkedAdd, addWithin_ok_iff, Prod.exists]
  constructor
  · rintro ⟨node, stored, fresh, mint, wallet, state, loaded, standing, funded, paid,
      ⟨_, rfl⟩, reward, current, loop, served, ⟨fits, rfl⟩, rfl⟩
    refine ⟨node, stored, fresh, mint, wallet, state, loaded, standing, funded, reward, current,
      loop, fits, ?_⟩
    rw [settle_exit loaded]
    rfl
  · rintro ⟨node, stored, fresh, mint, wallet, state, loaded, standing, funded, reward, current,
      loop, fits, rfl⟩
    refine ⟨node, stored, fresh, mint, wallet, state, loaded, standing, funded, _, ⟨funded, rfl⟩,
      reward, current, loop, _, ⟨fits, rfl⟩, ?_⟩
    rw [settle_exit loaded]
    rfl

theorem stakeForPriority_ok_iff {l l' : Ledger} {user : Pubkey} {tokens vault : TokenAccount}
    {amount : UInt64} :
    stakeForPriority l user tokens vault amount = .ok l' ↔
      ∃ node, l.nodeAccounts user = some node ∧ vault.mint = tokens.mint ∧
        vault.owner = .nodePda user ∧ 1000 * 10 ^ 9 ≤ amount.toNat ∧
        node.isInitialized = true ∧
        (tokens.owner = .wallet user ∧ amount.toNat ≤ tokens.amount) ∧
        node.stakeAmount + amount.toNat < 2 ^ 64 ∧
        l.setNode user { node with stakeAmount := node.stakeAmount + amount.toNat } = l' := by
  simp only [stakeForPriority, bind_ok_iff, require_ok_iff, exists_and_left, exists_const, pure,
    Except.pure, Except.ok.injEq, Ledger.loadNode_ok_iff, checkedAdd, addWithin_ok_iff]
  constructor
  · rintro ⟨node, stored, mint, vault, enough, active, held, stake, ⟨fits, rfl⟩, rfl⟩
    exact ⟨node, stored, mint, vault, enough, active, held, fits, rfl⟩
  · rintro ⟨node, stored, mint, vault, enough, active, held, fits, rfl⟩
    exact ⟨node, stored, mint, vault, enough, active, held, _, ⟨fits, rfl⟩, rfl⟩

def Ledger.refunded (l : Ledger) (owner : Pubkey) (lamports : Nat) : Ledger :=
  if 0 < lamports then l.withdraw owner lamports else l

theorem nodeAccounts_refunded (l : Ledger) (owner : Pubkey) (lamports : Nat) :
    (l.refunded owner lamports).nodeAccounts = l.nodeAccounts := by
  unfold Ledger.refunded
  split <;> rfl

theorem batchRecords_refunded (l : Ledger) (owner : Pubkey) (lamports : Nat) :
    (l.refunded owner lamports).batchRecords = l.batchRecords := by
  unfold Ledger.refunded
  split <;> rfl

theorem programState_refunded (l : Ledger) (owner : Pubkey) (lamports : Nat) :
    (l.refunded owner lamports).programState = l.programState := by
  unfold Ledger.refunded
  split <;> rfl

theorem minted_refunded (l : Ledger) (owner : Pubkey) (lamports : Nat) :
    (l.refunded owner lamports).minted = l.minted := by
  unfold Ledger.refunded
  split <;> rfl

theorem refund_ok_iff {l l' : Ledger} {owner : Pubkey} {lamports : Nat} :
    l.refund owner lamports = .ok l' ↔
      lamports ≤ l.escrowLamports owner ∧ l.refunded owner lamports = l' := by
  by_cases returns : 0 < lamports
  · rw [Ledger.refund, if_pos returns, Ledger.refunded, if_pos returns, Ledger.payOut_ok_iff]
  · have funded : lamports ≤ l.escrowLamports owner := by omega
    rw [Ledger.refund, if_neg returns, Ledger.refunded, if_neg returns]
    simp only [Except.ok.injEq, funded, true_and]

theorem slashNode_ok_iff {l l' : Ledger} {authority owner : Pubkey} :
    slashNode l authority owner = .ok l' ↔
      ∃ node, l.nodeAccounts owner = some node ∧ (authority = adminKey ∨ authority = owner) ∧
        node.isInitialized = true ∧ node.locked = false ∧
        returnAmount node ≤ l.escrowLamports owner ∧
        (l.refunded owner (returnAmount node)).setNode owner node.slashed = l' := by
  simp only [slashNode, bind_ok_iff, require_ok_iff, exists_and_left, exists_const, pure,
    Except.pure, Except.ok.injEq, Ledger.loadNode_ok_iff, refund_ok_iff]
  constructor
  · rintro ⟨node, stored, signed, active, unlocked, paid, ⟨funded, rfl⟩, rfl⟩
    exact ⟨node, stored, signed, active, unlocked, funded, rfl⟩
  · rintro ⟨node, stored, signed, active, unlocked, funded, rfl⟩
    exact ⟨node, stored, signed, active, unlocked, _, ⟨funded, rfl⟩, rfl⟩

end Solnet.Program
