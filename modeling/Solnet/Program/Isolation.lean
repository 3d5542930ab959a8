import Solnet.Program.Escrow

/-! What an instruction of one owner does to another owner. Node accounts and escrows have
the owner's key among their seeds; a batch record has only the batch id. -/
namespace Solnet.Program
open Runs Fallible

/-- The one signer of an instruction. A transfer from outside is no instruction. -/
def Instruction.signer : Instruction → Option Pubkey
  | .initializeProtocol admin _ _ => some admin
  | .registerNode owner _ _ _ => some owner
  | .settleCompressedBatch accounts _ _ _ _ _ => some accounts.owner
  | .stakeForPriority user _ _ _ => some user
  | .slashNode authority _ => some authority
  | .fundEscrow _ _ => none

/-- The seed of the batch record that an instruction creates. -/
def Instruction.batchSeed : Instruction → Option Bytes32
  | .settleCompressedBatch _ _ _ _ batchIdBytes _ => some batchIdBytes
  | _ => none

/-- The settlement succeeds and moves `paid` lamports to its owner. -/
def PaysBatch (l : Ledger) (accounts : SettleAccounts) (merkleRoot : Bytes32)
    (totalLamports receiptCount : UInt64) (batchIdBytes : Bytes32) (now : Int) (paid : Nat) :
    Prop :=
  ∃ l', settleCompressedBatch l accounts merkleRoot totalLamports receiptCount batchIdBytes now =
    .ok l' ∧ l'.paidOut accounts.owner = l.paidOut accounts.owner + paid

/-- Nothing `owner` has in the ledger `l` is touched on the way to `l'`, and each
settlement of `owner` pays after it what it paid before it. -/
structure Undisturbed (l l' : Ledger) (owner : Pubkey) : Prop where
  node : l'.nodeAccounts owner = l.nodeAccounts owner
  escrow : l'.escrowLamports owner = l.escrowLamports owner
  settlements : ∀ accounts merkleRoot totalLamports receiptCount batchIdBytes now paid,
    accounts.owner = owner →
      PaysBatch l accounts merkleRoot totalLamports receiptCount batchIdBytes now paid →
      PaysBatch l' accounts merkleRoot totalLamports receiptCount batchIdBytes now paid

/-- The owner could settle: it has a node account that is not slashed to zero. -/
def InStanding (l : Ledger) (owner : Pubkey) : Prop :=
  ∃ node, l.nodeAccounts owner = some node ∧ 0 < node.reputation

theorem step_node_of_other {l l' : Ledger} {ix : Instruction} {owner signer : Pubkey}
    (step : Step l ix l') (signed : ix.signer = some signer) (other : owner ≠ signer)
    (notAdmin : signer ≠ adminKey) : l'.nodeAccounts owner = l.nodeAccounts owner := by
  cases ix with
  | initializeProtocol admin mint bump =>
    obtain ⟨_, rfl⟩ := initializeProtocol_ok_iff.mp step
    rfl
  | registerNode o endpoint stake now =>
    obtain rfl := Option.some.inj signed
    obtain ⟨_, _, _, rfl⟩ := registerNode_ok_iff.mp step
    exact Ledger.nodeAccounts_setNode_of_ne (l.deposit o stake.toNat) _ other
  | settleCompressedBatch accounts root lamports receipts batch now =>
    obtain rfl := Option.some.inj signed
    obtain ⟨node, state, reward, current, _, _, _, _, _, _, _, _, _, rfl⟩ :=
      settleCompressedBatch_ok_iff.mp step
    exact Ledger.nodeAccounts_setNode_of_ne (l.withdraw accounts.owner lamports.toNat) _ other
  | stakeForPriority user tokens vault amount =>
    obtain rfl := Option.some.inj signed
    obtain ⟨node, _, _, _, _, _, _, _, rfl⟩ := stakeForPriority_ok_iff.mp step
    exact Ledger.nodeAccounts_setNode_of_ne l _ other
  | slashNode authority o =>
    obtain rfl := Option.some.inj signed
    obtain ⟨node, _, allowed, _, _, _, rfl⟩ := slashNode_ok_iff.mp step
    have own : authority = o := allowed.resolve_left notAdmin
    rw [Ledger.nodeAccounts_setNode_of_ne _ _ (own ▸ other), nodeAccounts_refunded]
  | fundEscrow o lamports => cases signed

theorem step_escrow_of_other {l l' : Ledger} {ix : Instruction} {owner signer : Pubkey}
    (step : Step l ix l') (signed : ix.signer = some signer) (other : owner ≠ signer)
    (notAdmin : signer ≠ adminKey) : l'.escrowLamports owner = l.escrowLamports owner := by
  have moved := step_moved step owner
  have still : ix.deposits owner = 0 ∧ ix.payout l owner = 0 := by
    cases ix with
    | initializeProtocol admin mint bump => exact ⟨rfl, rfl⟩
    | registerNode o endpoint stake now =>
      obtain rfl := Option.some.inj signed
      exact ⟨if_neg other, rfl⟩
    | settleCompressedBatch accounts root lamports receipts batch now =>
      obtain rfl := Option.some.inj signed
      exact ⟨rfl, if_neg other⟩
    | stakeForPriority user tokens vault amount => exact ⟨rfl, rfl⟩
    | slashNode authority o =>
      obtain rfl := Option.some.inj signed
      obtain ⟨node, _, allowed, _⟩ := slashNode_ok_iff.mp step
      have own : authority = o := allowed.resolve_left notAdmin
      exact ⟨rfl, if_neg (own ▸ other)⟩
    | fundEscrow o lamports => cases signed
  rw [moved.balance, still.1, still.2]
  rfl

theorem step_programState {l l' : Ledger} {ix : Instruction} {state : ProgramState}
    (step : Step l ix l') (loaded : l.programState = some state) :
    l'.programState = some state := by
  cases ix with
  | initializeProtocol admin mint bump =>
    obtain ⟨fresh, _⟩ := initializeProtocol_ok_iff.mp step
    exact absurd (fresh.symm.trans loaded) (by simp)
  | registerNode o endpoint stake now =>
    obtain ⟨_, _, _, rfl⟩ := registerNode_ok_iff.mp step
    exact loaded
  | settleCompressedBatch accounts root lamports receipts batch now =>
    obtain ⟨node, state', reward, current, _, _, _, _, _, _, _, _, _, rfl⟩ :=
      settleCompressedBatch_ok_iff.mp step
    exact loaded
  | stakeForPriority user tokens vault amount =>
    obtain ⟨node, _, _, _, _, _, _, _, rfl⟩ := stakeForPriority_ok_iff.mp step
    exact loaded
  | slashNode authority o =>
    obtain ⟨node, _, _, _, _, _, rfl⟩ := slashNode_ok_iff.mp step
    exact (programState_refunded l o _).trans loaded
  | fundEscrow o lamports =>
    obtain rfl := Except.ok.inj step
    exact loaded

theorem step_batchRecords {l l' : Ledger} {ix : Instruction} (step : Step l ix l')
    (unseeded : ix.batchSeed = none) : l'.batchRecords = l.batchRecords := by
  cases ix with
  | initializeProtocol admin mint bump =>
    obtain ⟨_, rfl⟩ := initializeProtocol_ok_iff.mp step
    rfl
  | registerNode o endpoint stake now =>
    obtain ⟨_, _, _, rfl⟩ := registerNode_ok_iff.mp step
    rfl
  | settleCompressedBatch accounts root lamports receipts batch now => cases unseeded
  | stakeForPriority user tokens vault amount =>
    obtain ⟨node, _, _, _, _, _, _, _, rfl⟩ := stakeForPriority_ok_iff.mp step
    rfl
  | slashNode authority o =>
    obtain ⟨node, _, _, _, _, _, rfl⟩ := slashNode_ok_iff.mp step
    exact batchRecords_refunded l o _
  | fundEscrow o lamports =>
    obtain rfl := Except.ok.inj step
    rfl

theorem paysBatch_iff {l : Ledger} {accounts : SettleAccounts} {root : Bytes32}
    {lamports receipts : UInt64} {batch : Bytes32} {now : Int} {paid : Nat} :
    PaysBatch l accounts root lamports receipts batch now paid ↔
      (∃ l', settleCompressedBatch l accounts root lamports receipts batch now = .ok l') ∧
        paid = lamports.toNat := by
  have pays : ∀ l', settleCompressedBatch l accounts root lamports receipts batch now = .ok l' →
      l'.paidOut accounts.owner = l.paidOut accounts.owner + lamports.toNat := by
    intro l' settled
    have step : Step l (.settleCompressedBatch accounts root lamports receipts batch now) l' :=
      settled
    have moved := step_moved step accounts.owner
    rw [moved.paidOut, Instruction.payout, if_pos rfl]
  constructor
  · rintro ⟨l', settled, amount⟩
    have paidOut := pays l' settled
    exact ⟨⟨l', settled⟩, by omega⟩
  · rintro ⟨⟨l', settled⟩, rfl⟩
    exact ⟨l', settled, pays l' settled⟩

/-- What a settlement reads besides its own arguments decides whether it succeeds. -/
theorem settle_carries {l l' : Ledger} {accounts : SettleAccounts} {root : Bytes32}
    {lamports receipts : UInt64} {batch : Bytes32} {now : Int}
    (node : l'.nodeAccounts accounts.owner = l.nodeAccounts accounts.owner)
    (escrow : l'.escrowLamports accounts.owner = l.escrowLamports accounts.owner)
    (state : ∀ state, l.programState = some state → l'.programState = some state)
    (records : l'.batchRecords = l.batchRecords)
    (settles : ∃ after, settleCompressedBatch l accounts root lamports receipts batch now =
      .ok after) :
    ∃ after, settleCompressedBatch l' accounts root lamports receipts batch now = .ok after := by
  obtain ⟨after, settles⟩ := settles
  obtain ⟨stored, loaded, reward, current, has, fresh, mint, wallet, initialized, standing, funded,
    loop, fits, _⟩ := settleCompressedBatch_ok_iff.mp settles
  exact ⟨_, settleCompressedBatch_ok_iff.mpr ⟨stored, loaded, reward, current, node.trans has,
    records ▸ fresh, mint, wallet, state loaded initialized, standing, escrow ▸ funded, loop, fits,
    rfl⟩⟩

theorem PaysBatch.inStanding {l : Ledger} {accounts : SettleAccounts} {root : Bytes32}
    {lamports receipts : UInt64} {batch : Bytes32} {now : Int} {paid : Nat}
    (pays : PaysBatch l accounts root lamports receipts batch now paid) :
    InStanding l accounts.owner := by
  obtain ⟨l', settled, _⟩ := pays
  obtain ⟨node, _, _, _, stored, _, _, _, _, standing, _⟩ :=
    settleCompressedBatch_ok_iff.mp settled
  exact ⟨node, stored, standing⟩

def ServedWithin (l : Ledger) : Prop :=
  ∀ owner node, l.nodeAccounts owner = some node → node.requestsServed < 2 ^ 64

theorem ServedWithin.set {l l' : Ledger} {o : Pubkey} {node : NodeAccount}
    (within : ServedWithin l) (nodes : l'.nodeAccounts = Function.update l.nodeAccounts o node)
    (small : node.requestsServed < 2 ^ 64) : ServedWithin l' := by
  intro owner stored here
  rw [nodes, Function.update_apply] at here
  split at here
  · obtain rfl := Option.some.inj here
    exact small
  · exact within owner stored here

theorem step_servedWithin (l : Ledger) (ix : Instruction) (l' : Ledger) (within : ServedWithin l)
    (step : Step l ix l') : ServedWithin l' := by
  cases ix with
  | initializeProtocol admin mint bump =>
    obtain ⟨_, rfl⟩ := initializeProtocol_ok_iff.mp step
    exact within
  | registerNode o endpoint stake now =>
    obtain ⟨_, _, _, rfl⟩ := registerNode_ok_iff.mp step
    exact within.set rfl (Nat.two_pow_pos 64)
  | settleCompressedBatch accounts root lamports receipts batch now =>
    obtain ⟨node, state, reward, current, _, _, _, _, _, _, _, _, fits, rfl⟩ :=
      settleCompressedBatch_ok_iff.mp step
    exact within.set rfl fits
  | stakeForPriority user tokens vault amount =>
    obtain ⟨node, stored, _, _, _, _, _, _, rfl⟩ := stakeForPriority_ok_iff.mp step
    exact within.set rfl (within user node stored)
  | slashNode authority o =>
    obtain ⟨node, stored, _, _, _, _, rfl⟩ := slashNode_ok_iff.mp step
    have nodes := nodeAccounts_refunded l o (returnAmount node)
    apply within.set (congrArg (Function.update · o _) nodes)
    have served : node.slashed.requestsServed = node.requestsServed := by
      unfold NodeAccount.slashed
      split <;> rfl
    rw [served]
    exact within o node stored
  | fundEscrow o lamports =>
    obtain rfl := Except.ok.inj step
    exact within

theorem run_servedWithin {ixs : List Instruction} {l : Ledger} (run : Run Step .empty ixs l) :
    ServedWithin l :=
  run.invariant step_servedWithin fun _ _ absent => nomatch absent

/-- The batch id that a settlement uses up was free before it for every owner in standing,
and is free for none after it. -/
theorem settlement_disturbs {l l' : Ledger} {ix : Instruction} {owner : Pubkey} {batch : Bytes32}
    (within : ServedWithin l) (step : Step l ix l') (seeded : ix.batchSeed = some batch)
    (standing : InStanding l owner) : ¬ Undisturbed l l' owner := by
  intro undisturbed
  obtain ⟨own, stored, active⟩ := standing
  cases ix with
  | settleCompressedBatch accounts root lamports receipts batchId now =>
    obtain rfl := Option.some.inj seeded
    obtain ⟨node, state, reward, current, _, fresh, _, _, loaded, _, _, _, _, rfl⟩ :=
      settleCompressedBatch_ok_iff.mp step
    have served := within owner own stored
    have before : PaysBatch l ⟨owner, 9, ⟨9, .wallet owner, 0⟩⟩ 0 0 0 batchId 0 0 :=
      paysBatch_iff.mpr ⟨⟨_, settleCompressedBatch_ok_iff.mpr ⟨own, state, 0, _, stored, fresh, rfl,
        rfl, loaded, active, Nat.zero_le _, rewardLoop_empty _, served, rfl⟩⟩, rfl⟩
    obtain ⟨after, settled, _⟩ := undisturbed.settlements _ _ _ _ _ _ _ rfl before
    obtain ⟨_, _, _, _, _, stillFresh, _⟩ := settleCompressedBatch_ok_iff.mp settled
    exact stillFresh _ List.mem_cons_self rfl
  | _ => cases seeded

/-- An instruction of another owner leaves `owner` undisturbed exactly when it settles
nothing, or `owner` is in no standing to settle. -/
theorem undisturbed_iff_nothing_settled (ixs : List Instruction) (l : Ledger)
    (run : Run Step .empty ixs l) (owner signer : Pubkey) (other : owner ≠ signer)
    (notAdmin : signer ≠ adminKey) (ix : Instruction) (signed : ix.signer = some signer)
    (l' : Ledger) (step : Step l ix l') :
    Undisturbed l l' owner ↔ ix.batchSeed = none ∨ ¬ InStanding l owner := by
  have node := step_node_of_other step signed other notAdmin
  have escrow := step_escrow_of_other step signed other notAdmin
  constructor
  · intro undisturbed
    by_cases standing : InStanding l owner
    · left
      cases seeded : ix.batchSeed with
      | none => rfl
      | some batch =>
        exact absurd undisturbed (settlement_disturbs (run_servedWithin run) step seeded standing)
    · exact .inr standing
  · intro harmless
    refine ⟨node, escrow, ?_⟩
    rintro accounts root lamports receipts batch now paid rfl pays
    rcases harmless with unseeded | lacking
    · rw [paysBatch_iff] at pays ⊢
      exact ⟨settle_carries node escrow (fun _ => step_programState step)
        (step_batchRecords step unseeded) pays.1, pays.2⟩
    · exact absurd pays.inStanding lacking

/-! Owner 1 has registered, and owner 3 registers and settles a batch. -/

def firstRegisters : List Instruction :=
  [.initializeProtocol 2 9 255, .registerNode 1 "http://localhost:9000" 200_000_000 0]

def secondRegisters : Instruction := .registerNode 3 "http://localhost:9001" 100_000_000 0

def secondSettles : Instruction :=
  .settleCompressedBatch ⟨3, 9, ⟨9, .wallet 3, 0⟩⟩ 0 0 0 5 0

theorem twoOwners_run : ∃ l l' l'', Run Step .empty firstRegisters l ∧ Step l secondRegisters l' ∧
    Step l' secondSettles l'' ∧ InStanding l' 1 :=
  ⟨_, _, _, .cons (initializeProtocol_ok_iff.mpr ⟨rfl, rfl⟩)
    (.cons (registerNode_ok_iff.mpr ⟨by decide, by decide, rfl, rfl⟩) (.nil _)),
    registerNode_ok_iff.mpr ⟨by decide, by decide, rfl, rfl⟩,
    settleCompressedBatch_ok_iff.mpr ⟨_, _, 0, 0, rfl, by simp [Ledger.setNode, Ledger.deposit,
      Ledger.empty], rfl, rfl, rfl, by decide, Nat.zero_le _, rewardLoop_empty 0, by decide, rfl⟩,
    _, rfl, by decide⟩

theorem registration_undisturbed :
    ∃ l l', Step l secondRegisters l' ∧ Undisturbed l l' 1 := by
  obtain ⟨l, l', _, run, step, _⟩ := twoOwners_run
  exact ⟨l, l', step, (undisturbed_iff_nothing_settled _ l run 1 3 (by decide) (by decide) _ rfl
    l' step).mpr (.inl rfl)⟩

/-- The settlement takes its batch id from the first owner. -/
theorem settlement_disturbs_other_owner :
    ¬ ∀ (ixs : List Instruction) (l : Ledger), Run Step .empty ixs l →
      ∀ (owner signer : Pubkey), owner ≠ signer → signer ≠ adminKey →
      ∀ (ix : Instruction), ix.signer = some signer → ∀ l', Step l ix l' →
        Undisturbed l l' owner := by
  intro undisturbed
  obtain ⟨l, l', l'', run, registers, settles, standing⟩ := twoOwners_run
  have run' : Run Step .empty (firstRegisters ++ [secondRegisters]) l' :=
    run_append_iff.mpr ⟨l, run, .cons registers (.nil _)⟩
  exact settlement_disturbs (run_servedWithin run') settles rfl standing
    (undisturbed _ l' run' 1 3 (by decide) (by decide) secondSettles rfl l'' settles)

end Solnet.Program
