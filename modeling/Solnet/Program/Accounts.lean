import Mathlib.Logic.Function.Basic
import Solnet.Lib.Fallible

/-! Accounts of the on-chain program and the runtime effects its instructions use.
A PDA is named by its seeds, so the node account and the escrow of an owner are
entries of maps keyed by that owner. Signer wallets and token balances are outside:
they come with each instruction, as the accounts passed to it. -/
namespace Solnet.Program
open Fallible

abbrev Pubkey := BitVec 256
abbrev Bytes32 := BitVec 256

/-- The key written out in `slash_node`, decoded from base 58. -/
def adminKey : Pubkey := 0x277cdef56444349a8a9755452609571e205534ce5547dc8eb5c990000000000

inductive Address where
  | wallet (key : Pubkey)
  | nodePda (owner : Pubkey)
  deriving DecidableEq, Repr

structure NodeAccount where
  owner : Pubkey
  endpoint : String
  stakeAmount : Nat
  reputation : Nat
  registeredAt : Int
  requestsServed : Nat
  isInitialized : Bool
  locked : Bool
  deriving DecidableEq, Repr

/-- What `init_if_needed` allocates. -/
def NodeAccount.zeroed : NodeAccount :=
  ⟨0, "", 0, 0, 0, 0, false, false⟩

structure BatchRecord where
  node : Address
  merkleRoot : Bytes32
  totalLamports : Nat
  receiptCount : Nat
  settledAt : Int
  deriving DecidableEq, Repr

structure ProgramState where
  admin : Pubkey
  solnetMint : Pubkey
  mintAuthorityBump : Nat
  globalRequestCount : Nat
  deriving DecidableEq, Repr

structure TokenAccount where
  mint : Pubkey
  owner : Address
  amount : Nat
  deriving DecidableEq, Repr

inductive SnsError where
  | nodeAlreadyRegistered | insufficientStake | unauthorized | nodeNotFound | invalidEndpoint
  | overflow | reentrancy | insufficientEscrow | nodeSlashed
  deriving DecidableEq, Repr

/-- Why an instruction is rolled back: an error of the program, an account check of
Anchor, a failed transfer, or a panic under overflow-checks. -/
inductive Failure where
  | sns (e : SnsError)
  | accountNotInitialized
  | accountInUse
  | constraint
  | insufficientFunds
  | panic
  deriving DecidableEq, Repr

/-- A system transfer into an escrow, or out of it to the owner. -/
inductive Transfer where
  | deposit (owner : Pubkey) (lamports : Nat)
  | payout (owner : Pubkey) (lamports : Nat)
  deriving DecidableEq, Repr

def Transfer.depositFor (owner : Pubkey) : Transfer → Nat
  | .deposit o lamports => if o = owner then lamports else 0
  | .payout _ _ => 0

def Transfer.payoutFor (owner : Pubkey) : Transfer → Nat
  | .deposit _ _ => 0
  | .payout o lamports => if o = owner then lamports else 0

structure Ledger where
  programState : Option ProgramState
  nodeAccounts : Pubkey → Option NodeAccount
  escrowLamports : Pubkey → Nat
  batchRecords : List (Bytes32 × BatchRecord)
  minted : Pubkey → Nat
  /-- The transfers made so far, the latest first. -/
  transfers : List Transfer

def Ledger.empty : Ledger :=
  ⟨none, fun _ => none, fun _ => 0, [], fun _ => 0, []⟩

/-! The attribute of an account in an Accounts struct decides what Anchor writes back. -/

inductive AccountAttr where
  | plain | mut | init | initIfNeeded
  deriving DecidableEq, Repr

def AccountAttr.writable : AccountAttr → Bool
  | .plain => false
  | .mut | .init | .initIfNeeded => true

/-- Anchor's exit: the account stored after the instruction. -/
def AccountAttr.exit {α : Type} (attr : AccountAttr) (stored loaded : α) : α :=
  if attr.writable then loaded else stored

def RegisterNode.nodeAccount : AccountAttr := .initIfNeeded

def SettleCompressedBatch.nodeAccount : AccountAttr := .mut
def SettleCompressedBatch.programState : AccountAttr := .plain

def StakeForPriority.nodeAccount : AccountAttr := .mut

def SlashNode.nodeAccount : AccountAttr := .mut

/-! Effects. -/

def checkedAdd (a b : Nat) : Except Failure Nat := addWithin 64 (.sns .overflow) a b

namespace Ledger

def loadNode (l : Ledger) (owner : Pubkey) : Except Failure NodeAccount :=
  match l.nodeAccounts owner with
  | some node => .ok node
  | none => .error .accountNotInitialized

def loadProgramState (l : Ledger) : Except Failure ProgramState :=
  match l.programState with
  | some state => .ok state
  | none => .error .accountNotInitialized

def setNode (l : Ledger) (owner : Pubkey) (node : NodeAccount) : Ledger :=
  { l with nodeAccounts := Function.update l.nodeAccounts owner (some node) }

theorem nodeAccounts_setNode (l : Ledger) (o owner : Pubkey) (node : NodeAccount) :
    (l.setNode o node).nodeAccounts owner = if owner = o then some node else l.nodeAccounts owner :=
  Function.update_apply _ _ _ _

theorem nodeAccounts_setNode_of_ne (l : Ledger) {o owner : Pubkey} (node : NodeAccount)
    (other : owner ≠ o) : (l.setNode o node).nodeAccounts owner = l.nodeAccounts owner :=
  (nodeAccounts_setNode l o owner node).trans (if_neg other)

def deposit (l : Ledger) (owner : Pubkey) (lamports : Nat) : Ledger :=
  { l with
    escrowLamports := Function.update l.escrowLamports owner (l.escrowLamports owner + lamports)
    transfers := .deposit owner lamports :: l.transfers }

/-- The escrow after a system transfer that the escrow signs. -/
def withdraw (l : Ledger) (owner : Pubkey) (lamports : Nat) : Ledger :=
  { l with
    escrowLamports := Function.update l.escrowLamports owner (l.escrowLamports owner - lamports)
    transfers := .payout owner lamports :: l.transfers }

def payOut (l : Ledger) (owner : Pubkey) (lamports : Nat) : Except Failure Ledger :=
  if lamports ≤ l.escrowLamports owner then .ok (l.withdraw owner lamports)
  else .error .insufficientFunds

/-- The token program adds exactly the given amount. -/
def mintTo (l : Ledger) (mint : Pubkey) (amount : Nat) : Ledger :=
  { l with minted := Function.update l.minted mint (l.minted mint + amount) }

/-- Lamports moved into the escrow of `owner` so far. -/
def deposited (l : Ledger) (owner : Pubkey) : Nat :=
  (l.transfers.map (Transfer.depositFor owner)).sum

def paidOut (l : Ledger) (owner : Pubkey) : Nat :=
  (l.transfers.map (Transfer.payoutFor owner)).sum

def settledReceipts (l : Ledger) : Nat :=
  (l.batchRecords.map fun b => b.2.receiptCount).sum

end Ledger

/-! Inversion of the effects. -/

namespace Ledger

theorem loadNode_ok_iff {l : Ledger} {owner : Pubkey} {node : NodeAccount} :
    l.loadNode owner = .ok node ↔ l.nodeAccounts owner = some node := by
  unfold loadNode
  split <;> simp_all

theorem loadProgramState_ok_iff {l : Ledger} {state : ProgramState} :
    l.loadProgramState = .ok state ↔ l.programState = some state := by
  unfold loadProgramState
  split <;> simp_all

theorem payOut_ok_iff {l l' : Ledger} {owner : Pubkey} {lamports : Nat} :
    l.payOut owner lamports = .ok l' ↔
      lamports ≤ l.escrowLamports owner ∧ l.withdraw owner lamports = l' := by
  rw [payOut, guarded_ok_iff]

end Ledger

end Solnet.Program
