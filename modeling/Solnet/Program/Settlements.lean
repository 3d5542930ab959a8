import Solnet.Program.Isolation
import Solnet.Program.Supply

/-! The settlement ledger of each node over whole runs. An instruction of a run may fail;
the runtime then rolls it back. -/
namespace Solnet.Program
open Runs Fallible

/-- The ledger after an instruction, whether it succeeded or was rolled back. -/
def attempt (l : Ledger) (ix : Instruction) : Ledger := (execute l ix).toOption.getD l

def Attempt (l : Ledger) (ix : Instruction) (l' : Ledger) : Prop := attempt l ix = l'

def Ledger.batchRecord (l : Ledger) (batchIdBytes : Bytes32) : Option BatchRecord :=
  l.batchRecords.lookup batchIdBytes

/-- The receipts of the records that name the node. -/
def receiptsOf (node : Address) (records : List (Bytes32 × BatchRecord)) : Nat :=
  ((records.filter fun b => b.2.node = node).map fun b => b.2.receiptCount).sum

/-- The batch ids of the settlements that succeeded so far, the latest first, and the
records that existed when an owner last registered successfully. -/
structure Settlements where
  ids : List Bytes32
  atRegistration : Pubkey → List (Bytes32 × BatchRecord)

namespace Settlements

def none : Settlements := ⟨[], fun _ => []⟩

def succeeded (l : Ledger) (h : Settlements) : Instruction → Settlements
  | .registerNode owner _ _ _ =>
    { h with atRegistration := Function.update h.atRegistration owner l.batchRecords }
  | .settleCompressedBatch _ _ _ _ batchIdBytes _ => { h with ids := batchIdBytes :: h.ids }
  | _ => h

def note (l : Ledger) (ix : Instruction) (h : Settlements) : Settlements :=
  match execute l ix with
  | .ok _ => succeeded l h ix
  | .error _ => h

end Settlements

/-- The node served the receipts of the records made since it registered. -/
def Served (l : Ledger) (registered : List (Bytes32 × BatchRecord)) (owner : Pubkey)
    (node : NodeAccount) : Prop :=
  ∃ since, l.batchRecords = since ++ registered ∧
    node.requestsServed = receiptsOf (.nodePda owner) since

structure Tallied (x : Ledger × Settlements) : Prop where
  ids : x.2.ids = x.1.batchRecords.map Prod.fst
  once : x.2.ids.Nodup
  within : ServedWithin x.1
  served : ∀ owner node, x.1.nodeAccounts owner = some node →
    Served x.1 (x.2.atRegistration owner) owner node

theorem attempt_of_ok {l l' : Ledger} {ix : Instruction} (ok : execute l ix = .ok l') :
    attempt l ix = l' := by
  rw [attempt, ok]
  rfl

theorem attempt_of_error {l : Ledger} {ix : Instruction} {failure : Failure}
    (error : execute l ix = .error failure) : attempt l ix = l := by
  rw [attempt, error]
  rfl

theorem receiptsOf_cons (node : Address) (b : Bytes32 × BatchRecord)
    (records : List (Bytes32 × BatchRecord)) :
    receiptsOf node (b :: records) =
      (if b.2.node = node then b.2.receiptCount else 0) + receiptsOf node records := by
  by_cases names : b.2.node = node
  · simp [receiptsOf, names]
  · simp [receiptsOf, names]

theorem Served.append {l l' : Ledger} {registered : List (Bytes32 × BatchRecord)}
    {owner : Pubkey} {node node' : NodeAccount} {b : Bytes32 × BatchRecord}
    (served : Served l registered owner node) (records : l'.batchRecords = b :: l.batchRecords)
    (counted : node'.requestsServed =
      (if b.2.node = .nodePda owner then b.2.receiptCount else 0) + node.requestsServed) :
    Served l' registered owner node' := by
  obtain ⟨since, split, sum⟩ := served
  refine ⟨b :: since, ?_, ?_⟩
  · rw [records, split, List.cons_append]
  · rw [counted, sum, receiptsOf_cons]

/-- Accounts whose count is not touched stay tallied while no record is made. -/
theorem Tallied.frame {l l' : Ledger} {h : Settlements} (tallied : Tallied (l, h))
    (within : ServedWithin l') (records : l'.batchRecords = l.batchRecords)
    (kept : ∀ owner node', l'.nodeAccounts owner = some node' →
      ∃ node, l.nodeAccounts owner = some node ∧ node'.requestsServed = node.requestsServed) :
    Tallied (l', h) where
  ids := tallied.ids.trans (congrArg (List.map Prod.fst) records.symm)
  once := tallied.once
  within := within
  served := by
    intro owner node' here
    obtain ⟨node, stored, same⟩ := kept owner node' here
    obtain ⟨since, split, sum⟩ := tallied.served owner node stored
    exact ⟨since, records.trans split, same.trans sum⟩

theorem kept_setNode {l l' : Ledger} {o : Pubkey} {node node' : NodeAccount}
    (nodes : l'.nodeAccounts = l.nodeAccounts) (stored : l.nodeAccounts o = some node)
    (same : node'.requestsServed = node.requestsServed) (owner : Pubkey) (after : NodeAccount)
    (here : (l'.setNode o node').nodeAccounts owner = some after) :
    ∃ before, l.nodeAccounts owner = some before ∧
      after.requestsServed = before.requestsServed := by
  rw [Ledger.nodeAccounts_setNode, nodes] at here
  split at here
  · rename_i own
    obtain rfl := Option.some.inj here
    exact ⟨node, own ▸ stored, same⟩
  · exact ⟨after, here, rfl⟩

theorem requestsServed_slashed (node : NodeAccount) :
    node.slashed.requestsServed = node.requestsServed := by
  unfold NodeAccount.slashed
  split <;> rfl

theorem Tallied.registered {l : Ledger} {h : Settlements} {o : Pubkey} {endpoint : String}
    {stake : UInt64} {now : Int} (tallied : Tallied (l, h))
    (within : ServedWithin ((l.deposit o stake.toNat).setNode o
      (.registered o endpoint stake now))) :
    Tallied ((l.deposit o stake.toNat).setNode o (.registered o endpoint stake now),
      h.succeeded l (.registerNode o endpoint stake now)) where
  ids := tallied.ids
  once := tallied.once
  within := within
  served := by
    intro owner node here
    rw [Ledger.nodeAccounts_setNode] at here
    by_cases own : owner = o
    · subst own
      rw [if_pos rfl] at here
      obtain rfl := Option.some.inj here
      refine ⟨[], ?_, rfl⟩
      exact (Function.update_self owner l.batchRecords h.atRegistration).symm
    · rw [if_neg own] at here
      obtain ⟨since, split, sum⟩ := tallied.served owner node here
      refine ⟨since, ?_, sum⟩
      simp only [Settlements.succeeded, Function.update_of_ne own]
      exact split

theorem Tallied.settled {l : Ledger} {h : Settlements} {accounts : SettleAccounts}
    {root : Bytes32} {lamports receipts : UInt64} {batch : Bytes32} {now : Int}
    {node : NodeAccount} {reward : Nat} (tallied : Tallied (l, h))
    (within : ServedWithin (l.settled accounts batch
      ⟨.nodePda accounts.owner, root, lamports.toNat, receipts.toNat, now⟩ node reward))
    (stored : l.nodeAccounts accounts.owner = some node)
    (fresh : ∀ b ∈ l.batchRecords, b.1 ≠ batch) :
    Tallied (l.settled accounts batch
        ⟨.nodePda accounts.owner, root, lamports.toNat, receipts.toNat, now⟩ node reward,
      h.succeeded l (.settleCompressedBatch accounts root lamports receipts batch now)) where
  ids := congrArg (batch :: ·) tallied.ids
  once := by
    refine List.nodup_cons.mpr ⟨fun used => ?_, tallied.once⟩
    rw [tallied.ids] at used
    obtain ⟨b, member, same⟩ := List.mem_map.mp used
    exact fresh b member same
  within := within
  served := by
    intro owner after here
    rw [show (l.settled accounts batch _ node reward).nodeAccounts owner = _ from
      Ledger.nodeAccounts_setNode _ accounts.owner owner _] at here
    by_cases own : owner = accounts.owner
    · subst own
      rw [if_pos rfl] at here
      obtain rfl := Option.some.inj here
      apply (tallied.served _ node stored).append rfl
      rw [if_pos rfl, Nat.add_comm]
    · rw [if_neg own] at here
      apply (tallied.served owner after here).append rfl
      rw [if_neg fun names => own (Address.nodePda.inj names).symm, Nat.zero_add]

theorem ok_tallied {l l' : Ledger} {h : Settlements} {ix : Instruction}
    (tallied : Tallied (l, h)) (step : Step l ix l') : Tallied (l', h.succeeded l ix) := by
  have within := step_servedWithin l ix l' tallied.within step
  cases ix with
  | initializeProtocol admin mint bump =>
    obtain ⟨_, rfl⟩ := initializeProtocol_ok_iff.mp step
    exact tallied.frame within rfl fun _ node here => ⟨node, here, rfl⟩
  | registerNode o endpoint stake now =>
    obtain ⟨_, _, _, rfl⟩ := registerNode_ok_iff.mp step
    exact tallied.registered within
  | settleCompressedBatch accounts root lamports receipts batch now =>
    obtain ⟨node, state, reward, current, stored, fresh, _, _, _, _, _, _, _, rfl⟩ :=
      settleCompressedBatch_ok_iff.mp step
    exact tallied.settled within stored fresh
  | stakeForPriority user tokens vault amount =>
    obtain ⟨node, stored, _, _, _, _, _, _, rfl⟩ := stakeForPriority_ok_iff.mp step
    exact tallied.frame within rfl (kept_setNode rfl stored rfl)
  | slashNode authority o =>
    obtain ⟨node, stored, _, _, _, _, rfl⟩ := slashNode_ok_iff.mp step
    exact tallied.frame within (batchRecords_refunded l o _)
      (kept_setNode (nodeAccounts_refunded l o _) stored (requestsServed_slashed node))
  | fundEscrow o lamports =>
    obtain rfl := Except.ok.inj step
    exact tallied.frame within rfl fun _ node here => ⟨node, here, rfl⟩

theorem step_tallied (x : Ledger × Settlements) (ix : Instruction) (y : Ledger × Settlements)
    (tallied : Tallied x) (step : Traced Attempt Settlements.note x ix y) : Tallied y := by
  obtain ⟨l, h⟩ := x
  obtain ⟨l', h'⟩ := y
  obtain ⟨rfl, rfl⟩ : attempt l ix = l' ∧ h' = Settlements.note l ix h := step
  cases done : execute l ix with
  | ok after =>
    rw [Settlements.note, done, attempt_of_ok done]
    exact ok_tallied tallied done
  | error failure =>
    rw [Settlements.note, done, attempt_of_error done]
    exact tallied

theorem initial_tallied : Tallied (.empty, .none) where
  ids := rfl
  once := List.nodup_nil
  within := nofun
  served := nofun

/-! Records stay as they are. -/

theorem ok_records {l l' : Ledger} {ix : Instruction} (step : Step l ix l') :
    l.batchRecords <:+ l'.batchRecords := by
  cases seeded : ix.batchSeed with
  | none => rw [step_batchRecords step seeded]
  | some batch =>
    cases ix with
    | settleCompressedBatch accounts root lamports receipts batchId now =>
      obtain ⟨_, _, _, _, _, _, _, _, _, _, _, _, _, rfl⟩ := settleCompressedBatch_ok_iff.mp step
      exact List.suffix_cons _ _
    | _ => cases seeded

theorem attempt_records (l : Ledger) (ix : Instruction) :
    l.batchRecords <:+ (attempt l ix).batchRecords := by
  cases done : execute l ix with
  | ok after =>
    rw [attempt_of_ok done]
    exact ok_records done
  | error failure => rw [attempt_of_error done]

theorem run_records {l l' : Ledger} {ixs : List Instruction} (run : Run Attempt l ixs l') :
    l.batchRecords <:+ l'.batchRecords := by
  refine run.invariant (I := fun after => l.batchRecords <:+ after.batchRecords) ?_ List.suffix_rfl
  rintro s ix t kept rfl
  exact kept.trans (attempt_records s ix)

theorem lookup_of_suffix {records later : List (Bytes32 × BatchRecord)} {batch : Bytes32}
    {record : BatchRecord} (suffix : records <:+ later) (once : (later.map Prod.fst).Nodup)
    (found : records.lookup batch = some record) : later.lookup batch = some record := by
  obtain ⟨newer, rfl⟩ := suffix
  induction newer with
  | nil => exact found
  | cons b newer ih =>
    obtain ⟨fresh, once⟩ := List.nodup_cons.mp once
    have stored := ih once
    rw [List.cons_append, List.lookup_cons]
    split
    · rename_i same
      -- the newer record would have the id of a stored one
      obtain ⟨before, after, split, _⟩ := List.lookup_eq_some_iff.mp stored
      have used : batch ∈ (newer ++ records).map Prod.fst := by simp [split]
      exact absurd (beq_iff_eq.mp same ▸ used) fresh
    · exact stored

/-- Each batch id settles at most once, its record stays as it was made, and each node
served the receipts recorded for it since it last registered. -/
theorem settlement_ledger (ixs : List Instruction) (l : Ledger) (h : Settlements)
    (run : Run (Traced Attempt Settlements.note) (.empty, .none) ixs (l, h)) :
    h.ids.Nodup ∧
      (∀ ixs' l', Run Attempt l ixs' l' → ∀ batch record, l.batchRecord batch = some record →
        l'.batchRecord batch = some record) ∧
      (∀ owner node, l.nodeAccounts owner = some node →
        node.requestsServed < 2 ^ 64 ∧ Served l (h.atRegistration owner) owner node) ∧
      ∀ accounts root lamports receipts batch now failure l' h',
        execute l (.settleCompressedBatch accounts root lamports receipts batch now) =
          .error failure →
        Traced Attempt Settlements.note (l, h)
          (.settleCompressedBatch accounts root lamports receipts batch now) (l', h') →
        l' = l ∧ h' = h := by
  have tallied : Tallied (l, h) := run.invariant step_tallied initial_tallied
  refine ⟨tallied.once, ?_, ?_, ?_⟩
  · intro ixs' l' later batch record found
    obtain ⟨h', traced⟩ := later.traced Settlements.note h
    have tallied' : Tallied (l', h') := traced.invariant step_tallied tallied
    exact lookup_of_suffix (run_records later) (tallied'.ids ▸ tallied'.once) found
  · intro owner node stored
    exact ⟨tallied.within owner node stored, tallied.served owner node stored⟩
  · rintro accounts root lamports receipts batch now failure l' h' error ⟨rfl, rfl⟩
    refine ⟨attempt_of_error error, ?_⟩
    rw [Settlements.note, error]

theorem settlement_ledger_of_one_receipt :
    ∃ l h, Run (Traced Attempt Settlements.note) (.empty, .none)
        (.initializeProtocol 2 9 255 :: oneBatch 1) (l, h) ∧
      l.settledReceipts = 1 ∧ h.ids.Nodup := by
  obtain ⟨l, run, settled⟩ := oneBatch_runs 1 rewardLoop_first
  obtain ⟨h, traced⟩ := (run.mono fun _ _ _ => attempt_of_ok).traced Settlements.note .none
  exact ⟨l, h, traced, settled, (settlement_ledger _ l h traced).1⟩

end Solnet.Program
