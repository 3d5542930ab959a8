import Solnet.Lib.Schedules
import Solnet.Program.Settlements

/-! Owners that do not share batch ids act as if each were alone. The runtime may process their
instructions in any order that keeps the order of each owner. -/
namespace Solnet.Program
open Fallible Schedules

/-- The owner whose node account or escrow an instruction names. -/
def Instruction.owner : Instruction → Option Pubkey
  | .initializeProtocol _ _ _ => none
  | .registerNode owner _ _ _ => some owner
  | .settleCompressedBatch accounts _ _ _ _ _ => some accounts.owner
  | .stakeForPriority user _ _ _ => some user
  | .slashNode _ owner => some owner
  | .fundEscrow owner _ => some owner

/-- An instruction that fails is rolled back. -/
def tried (l : Ledger) (ix : Instruction) : Ledger × Bool := (attempt l ix, (execute l ix).isOk)

/-- The ledgers have the same of what an instruction of the owner reads. -/
structure SameView (ix : Instruction) (owner : Pubkey) (l m : Ledger) : Prop where
  programState : m.programState = l.programState
  node : m.nodeAccounts owner = l.nodeAccounts owner
  escrow : m.escrowLamports owner = l.escrowLamports owner
  batch : ∀ batch, ix.batchSeed = some batch →
    ((∀ b ∈ m.batchRecords, b.1 ≠ batch) ↔ ∀ b ∈ l.batchRecords, b.1 ≠ batch)

/-- What an instruction of an owner does to the ledger. -/
structure Change where
  node : Option NodeAccount
  escrow : Nat
  record : Option (Bytes32 × BatchRecord)
  mint : Pubkey
  reward : Nat
  transfer : Option Transfer

def Ledger.changed (l : Ledger) (owner : Pubkey) (c : Change) : Ledger :=
  { l.mintTo c.mint c.reward with
    nodeAccounts := Function.update l.nodeAccounts owner c.node
    escrowLamports := Function.update l.escrowLamports owner c.escrow
    batchRecords := c.record.toList ++ l.batchRecords
    transfers := c.transfer.toList ++ l.transfers }

/-- Ledgers that differ in the order of their records and transfers alone. -/
structure Alike (l m : Ledger) : Prop where
  initialized : l.programState ≠ none
  programState : m.programState = l.programState
  nodeAccounts : m.nodeAccounts = l.nodeAccounts
  escrowLamports : m.escrowLamports = l.escrowLamports
  minted : m.minted = l.minted
  batchRecords : m.batchRecords.Perm l.batchRecords
  transfers : m.transfers.Perm l.transfers

theorem mintTo_nothing (l : Ledger) (mint : Pubkey) : l.mintTo mint 0 = l := by
  rw [Ledger.mintTo, Nat.add_zero, Function.update_eq_self]

/-- A success changes every ledger with the same view in the same way. -/
theorem step_change {l l' : Ledger} {ix : Instruction} {owner : Pubkey}
    (named : ix.owner = some owner) (step : Step l ix l') :
    ∃ c : Change, (∀ b ∈ c.record, ix.batchSeed = some b.1) ∧
      ∀ m, SameView ix owner l m → Step m ix (m.changed owner c) := by
  cases ix with
  | initializeProtocol admin mint bump => cases named
  | registerNode o endpoint stake now =>
    obtain rfl := Option.some.inj named
    obtain ⟨short, enough, free, _⟩ := registerNode_ok_iff.mp step
    refine ⟨⟨some (.registered o endpoint stake now), l.escrowLamports o + stake.toNat, none, 0, 0,
      some (.deposit o stake.toNat)⟩, by simp, fun m view => ?_⟩
    refine registerNode_ok_iff.mpr ⟨short, enough, view.node ▸ free, ?_⟩
    rw [Ledger.changed, mintTo_nothing, ← view.escrow]
    rfl
  | settleCompressedBatch accounts root lamports receipts batch now =>
    obtain rfl := Option.some.inj named
    obtain ⟨node, state, reward, current, stored, fresh, mint, wallet, loaded, standing, funded,
      loop, fits, _⟩ := settleCompressedBatch_ok_iff.mp step
    refine ⟨⟨some { node with requestsServed := node.requestsServed + receipts.toNat },
      l.escrowLamports accounts.owner - lamports.toNat,
      some (batch, ⟨.nodePda accounts.owner, root, lamports.toNat, receipts.toNat, now⟩),
      accounts.solnetMint, reward, some (.payout accounts.owner lamports.toNat)⟩, ?_, ?_⟩
    · rintro b ⟨⟩
      rfl
    · intro m view
      refine settleCompressedBatch_ok_iff.mpr ⟨node, state, reward, current,
        view.node.trans stored, (view.batch batch rfl).mpr fresh, mint, wallet,
        view.programState.trans loaded, standing, view.escrow ▸ funded, loop, fits, ?_⟩
      rw [Ledger.changed, ← view.escrow]
      rfl
  | stakeForPriority user tokens vault amount =>
    obtain rfl := Option.some.inj named
    obtain ⟨node, stored, mint, pda, enough, active, held, fits, _⟩ :=
      stakeForPriority_ok_iff.mp step
    refine ⟨⟨some { node with stakeAmount := node.stakeAmount + amount.toNat },
      l.escrowLamports user, none, 0, 0, none⟩, by simp, fun m view => ?_⟩
    refine stakeForPriority_ok_iff.mpr
      ⟨node, view.node.trans stored, mint, pda, enough, active, held, fits, ?_⟩
    rw [Ledger.changed, mintTo_nothing, ← view.escrow, Function.update_eq_self]
    rfl
  | slashNode authority o =>
    obtain rfl := Option.some.inj named
    obtain ⟨node, stored, signed, active, unlocked, funded, _⟩ := slashNode_ok_iff.mp step
    by_cases returns : 0 < returnAmount node
    · refine ⟨⟨some node.slashed, l.escrowLamports o - returnAmount node, none, 0, 0,
        some (.payout o (returnAmount node))⟩, by simp, fun m view => ?_⟩
      refine slashNode_ok_iff.mpr
        ⟨node, view.node.trans stored, signed, active, unlocked, view.escrow ▸ funded, ?_⟩
      rw [Ledger.changed, mintTo_nothing, ← view.escrow, Ledger.refunded, if_pos returns]
      rfl
    · refine ⟨⟨some node.slashed, l.escrowLamports o, none, 0, 0, none⟩, by simp,
        fun m view => ?_⟩
      refine slashNode_ok_iff.mpr
        ⟨node, view.node.trans stored, signed, active, unlocked, view.escrow ▸ funded, ?_⟩
      rw [Ledger.changed, mintTo_nothing, ← view.escrow, Function.update_eq_self,
        Ledger.refunded, if_neg returns]
      rfl
  | fundEscrow o lamports =>
    obtain rfl := Option.some.inj named
    refine ⟨⟨l.nodeAccounts o, l.escrowLamports o + lamports, none, 0, 0,
      some (.deposit o lamports)⟩, by simp, fun m view => ?_⟩
    show Except.ok _ = Except.ok _
    rw [Ledger.changed, mintTo_nothing, ← view.escrow, ← view.node, Function.update_eq_self]
    rfl

/-- The change of an instruction that fails. -/
def Change.idle (l : Ledger) (owner : Pubkey) : Change :=
  ⟨l.nodeAccounts owner, l.escrowLamports owner, none, 0, 0, none⟩

theorem changed_idle {l m : Ledger} {ix : Instruction} {owner : Pubkey}
    (view : SameView ix owner l m) : m.changed owner (.idle l owner) = m := by
  rw [Ledger.changed, Change.idle, mintTo_nothing, ← view.node, ← view.escrow,
    Function.update_eq_self, Function.update_eq_self]
  rfl

theorem SameView.refl (ix : Instruction) (owner : Pubkey) (l : Ledger) : SameView ix owner l l :=
  ⟨rfl, rfl, rfl, fun _ _ => Iff.rfl⟩

theorem SameView.symm {ix : Instruction} {owner : Pubkey} {l m : Ledger}
    (view : SameView ix owner l m) : SameView ix owner m l :=
  ⟨view.programState.symm, view.node.symm, view.escrow.symm,
    fun batch seed => (view.batch batch seed).symm⟩

/-- Whether it succeeds or fails, what an instruction does is decided by its view. -/
theorem tried_changes {ix : Instruction} {owner : Pubkey} (named : ix.owner = some owner)
    (l : Ledger) :
    ∃ (c : Change) (ok : Bool), (∀ b ∈ c.record, ix.batchSeed = some b.1) ∧
      ∀ m, SameView ix owner l m → tried m ix = (m.changed owner c, ok) := by
  cases here : execute l ix with
  | ok l' =>
    obtain ⟨c, own, same⟩ := step_change named here
    refine ⟨c, true, own, fun m view => ?_⟩
    have step : execute m ix = .ok (m.changed owner c) := same m view
    rw [tried, attempt_of_ok step, step]
    rfl
  | error failure =>
    refine ⟨.idle l owner, false, by simp [Change.idle], fun m view => ?_⟩
    rw [changed_idle view]
    cases there : execute m ix with
    | ok m' =>
      -- It would succeed in the first ledger, too.
      obtain ⟨c, _, same⟩ := step_change named there
      have step : execute l ix = .ok (l.changed owner c) := same l view.symm
      exact absurd (step.symm.trans here) (by simp)
    | error failure' =>
      rw [tried, attempt_of_error there, there]
      rfl

theorem tried_unowned {ix : Instruction} {l : Ledger} (unnamed : ix.owner = none)
    (initialized : l.programState ≠ none) : tried l ix = (l, false) := by
  cases ix with
  | initializeProtocol admin mint bump =>
    cases here : execute l (.initializeProtocol admin mint bump) with
    | ok l' => exact absurd (initializeProtocol_ok_iff.mp here).1 initialized
    | error failure =>
      rw [tried, attempt_of_error here, here]
      rfl
  | _ => cases unnamed

/-- A change for one owner is not in the view of another. -/
theorem sameView_changed {ix ix' : Instruction} {owner owner' : Pubkey} {c : Change}
    (l : Ledger) (other : owner' ≠ owner) (own : ∀ b ∈ c.record, ix.batchSeed = some b.1)
    (apart : ∀ batch, ix.batchSeed = some batch → ix'.batchSeed ≠ some batch) :
    SameView ix' owner' l (l.changed owner c) where
  programState := rfl
  node := Function.update_of_ne other _ _
  escrow := Function.update_of_ne other _ _
  batch := by
    intro batch seed
    simp only [Ledger.changed, List.mem_append, Option.mem_toList]
    constructor
    · exact fun free b member => free b (.inr member)
    · rintro free b (made | member)
      · rintro rfl
        exact apart b.1 (own b made) seed
      · exact free b member

theorem minted_mintTo_comm (l : Ledger) (mint mint' : Pubkey) (n n' : Nat) :
    ((l.mintTo mint n).mintTo mint' n').minted = ((l.mintTo mint' n').mintTo mint n).minted := by
  funext key
  simp only [Ledger.mintTo, Function.update_apply]
  split <;> split <;> simp_all
  omega

theorem changed_comm {l : Ledger} {owner owner' : Pubkey} (initialized : l.programState ≠ none)
    (other : owner ≠ owner') (c c' : Change) :
    Alike ((l.changed owner c).changed owner' c') ((l.changed owner' c').changed owner c) where
  initialized := initialized
  programState := rfl
  nodeAccounts := Function.update_comm other.symm _ _ _
  escrowLamports := Function.update_comm other.symm _ _ _
  minted := (minted_mintTo_comm l _ _ _ _).symm
  batchRecords := List.perm_append_comm_assoc _ _ _
  transfers := List.perm_append_comm_assoc _ _ _

theorem Alike.symm {l m : Ledger} (alike : Alike l m) : Alike m l where
  initialized := alike.programState ▸ alike.initialized
  programState := alike.programState.symm
  nodeAccounts := alike.nodeAccounts.symm
  escrowLamports := alike.escrowLamports.symm
  minted := alike.minted.symm
  batchRecords := alike.batchRecords.symm
  transfers := alike.transfers.symm

theorem Alike.refl {l : Ledger} (initialized : l.programState ≠ none) : Alike l l :=
  ⟨initialized, rfl, rfl, rfl, rfl, .refl _, .refl _⟩

theorem Alike.trans {l m n : Ledger} (first : Alike l m) (second : Alike m n) : Alike l n where
  initialized := first.initialized
  programState := second.programState.trans first.programState
  nodeAccounts := second.nodeAccounts.trans first.nodeAccounts
  escrowLamports := second.escrowLamports.trans first.escrowLamports
  minted := second.minted.trans first.minted
  batchRecords := second.batchRecords.trans first.batchRecords
  transfers := second.transfers.trans first.transfers

theorem Alike.view {l m : Ledger} (alike : Alike l m) (ix : Instruction) (owner : Pubkey) :
    SameView ix owner l m where
  programState := alike.programState
  node := congrFun alike.nodeAccounts owner
  escrow := congrFun alike.escrowLamports owner
  batch := fun _ _ => forall_congr' fun _ => imp_congr alike.batchRecords.mem_iff Iff.rfl

theorem Alike.changed {l m : Ledger} (alike : Alike l m) (owner : Pubkey) (c : Change) :
    Alike (l.changed owner c) (m.changed owner c) where
  initialized := alike.initialized
  programState := alike.programState
  nodeAccounts := by
    rw [Ledger.changed, Ledger.changed, alike.nodeAccounts]
  escrowLamports := by
    rw [Ledger.changed, Ledger.changed, alike.escrowLamports]
  minted := by
    simp only [Ledger.changed, Ledger.mintTo]
    rw [alike.minted]
  batchRecords := alike.batchRecords.append_left _
  transfers := alike.transfers.append_left _

/-- Neither settles a batch with the id of the other. -/
def BatchesApart (ix ix' : Instruction) : Prop :=
  ∀ batch, ix.batchSeed = some batch → ix'.batchSeed ≠ some batch

theorem tried_comm {l : Ledger} {ix ix' : Instruction} {owner owner' : Pubkey}
    (initialized : l.programState ≠ none) (named : ix.owner = some owner)
    (named' : ix'.owner = some owner') (other : owner ≠ owner') (apart : BatchesApart ix ix') :
    Alike (tried (tried l ix).1 ix').1 (tried (tried l ix').1 ix).1 ∧
      (tried (tried l ix).1 ix').2 = (tried l ix').2 ∧
      (tried (tried l ix').1 ix).2 = (tried l ix).2 := by
  obtain ⟨c, ok, own, does⟩ := tried_changes named l
  obtain ⟨c', ok', own', does'⟩ := tried_changes named' l
  have first := does l (.refl ix owner l)
  have first' := does' l (.refl ix' owner' l)
  have second := does' _ (sameView_changed l other.symm own apart)
  have second' := does _ (sameView_changed l other own' fun batch seed seed' =>
    apart batch seed' seed)
  rw [first, first', second, second']
  exact ⟨changed_comm initialized other c c', rfl, rfl⟩

theorem tried_initialized {l : Ledger} (initialized : l.programState ≠ none) (ix : Instruction) :
    (tried l ix).1.programState ≠ none := by
  cases named : ix.owner with
  | none => rwa [tried_unowned named initialized]
  | some owner =>
    obtain ⟨c, ok, _, does⟩ := tried_changes named l
    rwa [does l (.refl ix owner l)]

theorem tried_commuting : Commuting tried Instruction.owner BatchesApart Alike where
  symm := Alike.symm
  trans := Alike.trans
  respects := by
    intro l m ix alike
    cases named : ix.owner with
    | none =>
      rw [tried_unowned named alike.initialized, tried_unowned named alike.symm.initialized]
      exact ⟨alike, rfl⟩
    | some owner =>
      obtain ⟨c, ok, _, does⟩ := tried_changes named l
      rw [does l (.refl ix owner l), does m (alike.view ix owner)]
      exact ⟨alike.changed owner c, rfl⟩
  commutes := by
    intro l ix ix' alike others apart
    have kept := tried_initialized alike.initialized ix
    have kept' := tried_initialized alike.initialized ix'
    cases named : ix.owner with
    | none =>
      rw [tried_unowned named kept', tried_unowned named alike.initialized]
      exact ⟨.refl kept', rfl, rfl⟩
    | some owner =>
      cases named' : ix'.owner with
      | none =>
        rw [tried_unowned named' kept, tried_unowned named' alike.initialized]
        exact ⟨.refl kept, rfl, rfl⟩
      | some owner' =>
        have other : owner ≠ owner' := fun same => others (by rw [named, named', same])
        exact tried_comm alike.initialized named named' other apart

/-- Two orders that keep the order of each owner's instructions, none of which share a batch id
between owners, end in the same accounts, balances and supply; the same instructions of each
owner succeed. -/
theorem owners_commute (l : Ledger) (initialized : l.programState ≠ none)
    (ixs ixs' : List Instruction)
    (same : ∀ owner, ixs.filter (fun ix => ix.owner = owner) =
      ixs'.filter fun ix => ix.owner = owner)
    (apart : ∀ ix ∈ ixs, ∀ ix' ∈ ixs, ix.owner ≠ ix'.owner → BatchesApart ix ix') :
    Alike (perform tried l ixs).1 (perform tried l ixs').1 ∧
      ∀ owner, (perform tried l ixs).2.filter (fun done => done.1.owner = owner) =
        (perform tried l ixs').2.filter fun done => done.1.owner = owner :=
  tried_commuting.schedules same apart (.refl initialized)

def initializedLedger : Ledger := { Ledger.empty with programState := some ⟨1, 2, 255, 0⟩ }

theorem owners_commute_registrations :
    Alike
      (perform tried initializedLedger [.fundEscrow 3 5, .registerNode 3 "a" 100_000_000 0,
        .registerNode 4 "b" 100_000_000 0]).1
      (perform tried initializedLedger [.registerNode 4 "b" 100_000_000 0, .fundEscrow 3 5,
        .registerNode 3 "a" 100_000_000 0]).1 := by
  refine (owners_commute _ (by simp [initializedLedger]) _ _ ?_ ?_).1
  · intro owner
    by_cases first : some 3 = owner
    · subst first
      rfl
    · by_cases second : some 4 = owner
      · subst second
        rfl
      · simp only [List.filter_cons, List.filter_nil, Instruction.owner, first, second,
          decide_false, Bool.false_eq_true, if_false]
  · intro ix member ix' member' _ batch seed
    simp only [List.mem_cons, List.not_mem_nil, or_false] at member
    rcases member with rfl | rfl | rfl <;> cases seed

end Solnet.Program
