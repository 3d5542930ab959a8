import Solnet.Program.Escrow

/-! The half of a stake that an ejection keeps. It stays in the escrow of the ejected
owner, and nothing marks it there: what a later settlement or a second ejection may
take is bounded by the whole balance. -/
namespace Solnet.Program
open Runs

/-- A slash that ejects `owner`, whose account was `node`. -/
structure Ejection (l : Ledger) (authority owner : Pubkey) (node : NodeAccount)
    (ejected : Ledger) : Prop where
  stored : l.nodeAccounts owner = some node
  falls : slashedReputation node < 20
  slash : Step l (.slashNode authority owner) ejected

def forfeited (node : NodeAccount) : Nat := node.stakeAmount - node.stakeAmount / 2

/-- Since the ejection the owner got at most what came in since, and what the escrow
held beyond the forfeited part. -/
def StaysForfeited (ejected : Ledger) (owner : Pubkey) (forfeit : Nat) (l : Ledger) : Prop :=
  l.paidOut owner - ejected.paidOut owner ≤
    (l.deposited owner - ejected.deposited owner) + (ejected.escrowLamports owner - forfeit)

def KeepsReserve (owner : Pubkey) (reserve : Nat) (l : Ledger) : Instruction → Prop
  | .settleCompressedBatch accounts _ totalLamports _ _ _ =>
    accounts.owner = owner → reserve + totalLamports.toNat ≤ l.escrowLamports owner
  | .slashNode _ o =>
    o = owner → ∀ node, l.nodeAccounts owner = some node →
      reserve + returnAmount node ≤ l.escrowLamports owner
  | _ => True

theorem keepsReserve_iff {owner : Pubkey} {reserve : Nat} {l l' : Ledger} {ix : Instruction}
    (held : reserve ≤ l.escrowLamports owner) (step : Step l ix l') :
    reserve ≤ l'.escrowLamports owner ↔ KeepsReserve owner reserve l ix := by
  have moved := step_moved step owner
  have funded := moved.funded
  have balance := moved.balance
  cases ix with
  | settleCompressedBatch accounts root lamports receipts batch now =>
    simp only [Instruction.payout, Instruction.deposits, KeepsReserve, eq_comm (a := owner)]
      at funded balance ⊢
    by_cases own : accounts.owner = owner
    · simp only [own, if_true, true_implies] at funded balance ⊢
      omega
    · simp only [own, if_false, false_implies, iff_true] at balance ⊢
      omega
  | slashNode authority o =>
    simp only [Instruction.payout, Instruction.deposits, KeepsReserve, eq_comm (a := owner)]
      at funded balance ⊢
    by_cases own : o = owner
    · subst own
      obtain ⟨node, stored, _⟩ := slashNode_ok_iff.mp step
      simp only [stored, if_true, true_implies, Option.map_some, Option.getD_some,
        Option.some.injEq, forall_eq'] at funded balance ⊢
      omega
    · simp only [own, if_false, false_implies, iff_true] at balance ⊢
      omega
  | _ =>
    refine iff_of_true ?_ trivial
    rw [balance]
    exact held.trans (Nat.le_add_right _ _)

structure Since (ejected : Ledger) (owner : Pubkey) (l : Ledger) : Prop where
  balanced : l.escrowLamports owner + l.paidOut owner = l.deposited owner
  deposited : ejected.deposited owner ≤ l.deposited owner
  paidOut : ejected.paidOut owner ≤ l.paidOut owner

theorem step_since {ejected : Ledger} {owner : Pubkey} (l : Ledger) (ix : Instruction)
    (l' : Ledger) (since : Since ejected owner l) (step : Step l ix l') :
    Since ejected owner l' := by
  have moved := step_moved step owner
  have funded := moved.funded
  have balanced := since.balanced
  refine ⟨?_, ?_, ?_⟩
  · rw [moved.balance, moved.paidOut, moved.deposited]
    omega
  · rw [moved.deposited]
    exact since.deposited.trans (Nat.le_add_right _ _)
  · rw [moved.paidOut]
    exact since.paidOut.trans (Nat.le_add_right _ _)

/-- Payments stay within the bound exactly while the escrow holds the forfeited part,
or all it held after the ejection when that was less. -/
theorem staysForfeited_iff {ejected l : Ledger} {owner : Pubkey} {forfeit : Nat}
    (balanced : Balanced ejected) (since : Since ejected owner l) :
    StaysForfeited ejected owner forfeit l ↔
      min (ejected.escrowLamports owner) forfeit ≤ l.escrowLamports owner := by
  have before := balanced owner
  have after := since.balanced
  have moreIn := since.deposited
  have moreOut := since.paidOut
  unfold StaysForfeited
  omega

theorem Ejection.returns_half {l ejected : Ledger} {authority owner : Pubkey} {node : NodeAccount}
    (ejection : Ejection l authority owner node ejected) :
    ejected.paidOut owner = l.paidOut owner + node.stakeAmount / 2 := by
  have moved := step_moved ejection.slash owner
  rw [moved.paidOut]
  simp only [Instruction.payout, if_true, ejection.stored, Option.map_some, Option.getD_some,
    returnAmount, ejection.falls]

/-- An ejection returns half of the stake, and the other half is never paid back exactly
when every later settlement and ejection of that owner leaves it in escrow. -/
theorem forfeit_iff_keeps_reserve (before after : List Instruction) (l ejected l' : Ledger)
    (authority owner : Pubkey) (node : NodeAccount) (run : Run Step .empty before l)
    (ejection : Ejection l authority owner node ejected) (rest : Run Step ejected after l') :
    ejected.paidOut owner = l.paidOut owner + node.stakeAmount / 2 ∧
      (Always Step (StaysForfeited ejected owner (forfeited node)) ejected after ↔
        Run (Guarded Step (KeepsReserve owner
          (min (ejected.escrowLamports owner) (forfeited node)))) ejected after l') := by
  refine ⟨ejection.returns_half, ?_⟩
  have balanced : Balanced ejected := step_balanced _ _ _ (run_balanced run) ejection.slash
  have now : Since ejected owner ejected := ⟨balanced owner, Nat.le_refl _, Nat.le_refl _⟩
  refine always_iff_guarded (I := Since ejected owner) step_deterministic step_since ?_ rest now
    ((staysForfeited_iff balanced now).mpr (Nat.min_le_left _ _))
  intro s ix t since held step
  rw [staysForfeited_iff balanced (step_since s ix t since step)]
  exact keepsReserve_iff ((staysForfeited_iff balanced since).mp held) step

/-! A node that registers with 0.2 SOL, slashes itself five times and registers again. -/

def registersWith (stakeAmount : UInt64) : Instruction :=
  .registerNode 1 "http://localhost:9000" stakeAmount 0

def fourSlashes : List Instruction :=
  [.initializeProtocol 2 9 255, registersWith 200_000_000, .slashNode 1 1, .slashNode 1 1,
    .slashNode 1 1, .slashNode 1 1]

def fourTimesSlashed : NodeAccount :=
  { NodeAccount.registered 1 "http://localhost:9000" 200_000_000 0 with reputation := 20 }

theorem fourSlashes_runs :
    ∃ l, Run Step .empty fourSlashes l ∧ ReadyToSettle l fourTimesSlashed 200_000_000 :=
  ⟨_, .cons (initializeProtocol_ok_iff.mpr ⟨rfl, rfl⟩)
    (.cons (registerNode_ok_iff.mpr ⟨by decide, by decide, rfl, rfl⟩)
    (.cons (slashNode_ok_iff.mpr ⟨_, rfl, .inr rfl, rfl, rfl, Nat.zero_le _, rfl⟩)
    (.cons (slashNode_ok_iff.mpr ⟨_, rfl, .inr rfl, rfl, rfl, Nat.zero_le _, rfl⟩)
    (.cons (slashNode_ok_iff.mpr ⟨_, rfl, .inr rfl, rfl, rfl, Nat.zero_le _, rfl⟩)
    (.cons (slashNode_ok_iff.mpr ⟨_, rfl, .inr rfl, rfl, rfl, Nat.zero_le _, rfl⟩)
    (.nil _)))))), ⟨rfl, rfl, rfl, by decide, rfl, rfl⟩⟩

theorem rejoin_runs :
    ∃ l ejected rejoined, Run Step .empty fourSlashes l ∧
      Ejection l 1 1 fourTimesSlashed ejected ∧ ejected.escrowLamports 1 = 100_000_000 ∧
      Step ejected (registersWith 100_000_000) rejoined ∧
      ReadyToSettle rejoined (.registered 1 "http://localhost:9000" 100_000_000 0)
        200_000_000 := by
  obtain ⟨l, slashes, ready⟩ := fourSlashes_runs
  have funded : returnAmount fourTimesSlashed ≤ l.escrowLamports 1 := by
    rw [ready.held]
    decide
  have returned : l.refunded 1 (returnAmount fourTimesSlashed) = l.withdraw 1 100_000_000 :=
    if_pos (by decide)
  have slash : Step l (.slashNode 1 1) ((l.withdraw 1 100_000_000).setNode 1
      fourTimesSlashed.slashed) :=
    slashNode_ok_iff.mpr
      ⟨fourTimesSlashed, ready.stored, .inr rfl, rfl, rfl, funded, by rw [returned]⟩
  have half : (l.withdraw 1 100_000_000).escrowLamports 1 = 100_000_000 := by
    rw [escrow_withdraw, ready.held]
    rfl
  refine ⟨l, _, _, slashes, ⟨ready.stored, by decide, slash⟩, half,
    registerNode_ok_iff.mpr ⟨by decide, by decide, rfl, rfl⟩,
    ⟨rfl, ready.fresh, ready.state, by decide, rfl, ?_⟩⟩
  exact (escrow_deposit _ 1 1 _).trans (congrArg (· + 100_000_000) half)

theorem forfeit_kept_by_small_settlement :
    ∃ l ejected rejoined, Run Step .empty fourSlashes l ∧
      Ejection l 1 1 fourTimesSlashed ejected ∧
      Run Step ejected [registersWith 100_000_000, settleLamports 100_000_000] rejoined ∧
      Always Step (StaysForfeited ejected 1 (forfeited fourTimesSlashed)) ejected
        [registersWith 100_000_000, settleLamports 100_000_000] := by
  obtain ⟨l, ejected, rejoined, slashes, ejection, half, rejoin, ready⟩ := rejoin_runs
  obtain ⟨l', settle, _⟩ := ready.step (n := 100_000_000) (by decide)
  have rest : Run Step ejected [registersWith 100_000_000, settleLamports 100_000_000] l' :=
    .cons rejoin (.cons settle (.nil _))
  have leaves : KeepsReserve 1 (min (ejected.escrowLamports 1) (forfeited fourTimesSlashed))
      rejoined (settleLamports 100_000_000) := by
    intro _
    rw [half, ready.held]
    decide
  exact ⟨l, ejected, l', slashes, ejection, rest,
    ((forfeit_iff_keeps_reserve fourSlashes _ l ejected l' 1 1 fourTimesSlashed slashes ejection
      rest).2).mpr (.cons ⟨rejoin, trivial⟩ (.cons ⟨settle, leaves⟩ (.nil _)))⟩

/-- A settlement of the whole balance pays it back. -/
theorem forfeit_paid_back_after_rejoining :
    ¬ ∀ (before after : List Instruction) (l ejected l' : Ledger) (authority owner : Pubkey)
      (node : NodeAccount), Run Step .empty before l →
      Ejection l authority owner node ejected → Run Step ejected after l' →
      StaysForfeited ejected owner (forfeited node) l' := by
  intro stays
  obtain ⟨l, ejected, rejoined, slashes, ejection, half, rejoin, ready⟩ := rejoin_runs
  obtain ⟨l', settle, drained, _⟩ := ready.step (n := 200_000_000) (by decide)
  have rest : Run Step ejected [registersWith 100_000_000, settleLamports 200_000_000] l' :=
    .cons rejoin (.cons settle (.nil _))
  have bound := stays _ _ _ _ _ _ _ _ slashes ejection rest
  have balanced : Balanced ejected := step_balanced _ _ _ (run_balanced slashes) ejection.slash
  have since : Since ejected 1 l' :=
    rest.invariant step_since ⟨balanced 1, Nat.le_refl _, Nat.le_refl _⟩
  rw [staysForfeited_iff balanced since, half, drained] at bound
  exact absurd bound (by decide)

end Solnet.Program
