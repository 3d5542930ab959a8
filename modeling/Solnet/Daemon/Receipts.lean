import Mathlib.Tactic.ByContra
import Solnet.Daemon.Checked
import Solnet.Lib.Bytes
import Solnet.Lib.Hex
import Solnet.Lib.Merkle

/-! Payment receipts and the commitment to a batch of them. SHA-256 comes from outside. -/
namespace Solnet.Daemon
open Fallible Bytes

abbrev Digest := Block 32
abbrev Sha256 := List UInt8 → Digest

structure PaymentReceipt where
  clientIpHash : String
  amountLamports : UInt64
  method : String
  timestamp : UInt64
  nonce : String
  nodeSignature : String
  deriving DecidableEq, Repr

namespace PaymentReceipt

/-- The bytes of a receipt that are hashed into its leaf. -/
def leafInput (r : PaymentReceipt) : List UInt8 :=
  ofString r.clientIpHash ++ le 8 r.amountLamports.toNat ++ ofString r.nonce ++
    le 8 r.timestamp.toNat

def committed (r : PaymentReceipt) : String × UInt64 × String × UInt64 :=
  (r.clientIpHash, r.amountLamports, r.nonce, r.timestamp)

end PaymentReceipt

structure CompressedBatch where
  batchId : String
  merkleRoot : String
  totalLamports : Nat
  receiptCount : Nat
  compressedAt : Nat
  deriving DecidableEq, Repr

/-- The text of a version 4 UUID: 32 digits and four hyphens. -/
structure Uuid where
  text : String
  size : text.length = 36
  deriving DecidableEq, Repr

structure ZkReceiptBatch where
  receipts : List PaymentReceipt
  batchId : Uuid
  deriving DecidableEq, Repr

def hashPair (sha : Sha256) (left right : Digest) : Digest := sha (left.bytes ++ right.bytes)

/-- The iterator's `sum`, which checks each addition. -/
def sumLamports (receipts : List PaymentReceipt) : Checked Nat :=
  receipts.foldlM (fun total r => checkedAdd 64 total r.amountLamports.toNat) 0

namespace ZkReceiptBatch

def new (batchId : Uuid) : ZkReceiptBatch := ⟨[], batchId⟩

def addReceipt (batch : ZkReceiptBatch) (receipt : PaymentReceipt) : ZkReceiptBatch :=
  { batch with receipts := batch.receipts ++ [receipt] }

def computeMerkleRoot (sha : Sha256) (leaves : List Digest) : Digest :=
  Merkle.root (hashPair sha) (.zero 32) leaves

def leaves (sha : Sha256) (receipts : List PaymentReceipt) : List Digest :=
  receipts.map fun r => sha r.leafInput

def compress (sha : Sha256) (batch : ZkReceiptBatch) (now : Nat) : Checked CompressedBatch := do
  let totalLamports ← sumLamports batch.receipts
  let merkleRoot := computeMerkleRoot sha (leaves sha batch.receipts)
  return ⟨batch.batchId.text, Hex.encode merkleRoot.bytes, totalLamports, batch.receipts.length,
    now⟩

end ZkReceiptBatch

def totalOf (receipts : List PaymentReceipt) : Nat :=
  (receipts.map fun r => r.amountLamports.toNat).sum

theorem sumLamports_from {receipts : List PaymentReceipt} {start total : Nat}
    (small : start < 2 ^ 64) :
    receipts.foldlM (fun total r => checkedAdd 64 total r.amountLamports.toNat) start = .ok total ↔
      start + totalOf receipts < 2 ^ 64 ∧ start + totalOf receipts = total := by
  induction receipts generalizing start with
  | nil =>
    change Except.ok start = _ ↔ start + 0 < 2 ^ 64 ∧ start + 0 = total
    rw [Except.ok.injEq, Nat.add_zero, and_iff_right small]
  | cons r receipts ih =>
    have whole : start + totalOf (r :: receipts) =
        start + r.amountLamports.toNat + totalOf receipts := by
      simp only [totalOf, List.map_cons, List.sum_cons, Nat.add_assoc]
    rw [List.foldlM_cons, bind_ok_iff, whole]
    constructor
    · rintro ⟨next, added, rest⟩
      obtain ⟨fits, rfl⟩ := addWithin_ok_iff.mp added
      exact (ih fits).mp rest
    · rintro ⟨fits, total⟩
      have first : start + r.amountLamports.toNat < 2 ^ 64 := by omega
      exact ⟨_, addWithin_ok_iff.mpr ⟨first, rfl⟩, (ih first).mpr ⟨fits, total⟩⟩

theorem sumLamports_ok_iff {receipts : List PaymentReceipt} {total : Nat} :
    sumLamports receipts = .ok total ↔ totalOf receipts < 2 ^ 64 ∧ totalOf receipts = total := by
  have sum := @sumLamports_from receipts 0 total (Nat.two_pow_pos 64)
  rwa [Nat.zero_add] at sum

theorem compress_ok_iff {sha : Sha256} {batch : ZkReceiptBatch} {now : Nat}
    {compressed : CompressedBatch} :
    batch.compress sha now = .ok compressed ↔ totalOf batch.receipts < 2 ^ 64 ∧
      ⟨batch.batchId.text, Hex.encode (ZkReceiptBatch.computeMerkleRoot sha
        (ZkReceiptBatch.leaves sha batch.receipts)).bytes, totalOf batch.receipts,
        batch.receipts.length, now⟩ = compressed := by
  simp only [ZkReceiptBatch.compress, bind_ok_iff, sumLamports_ok_iff, pure, Except.pure,
    Except.ok.injEq]
  constructor
  · rintro ⟨_, ⟨fits, rfl⟩, rfl⟩
    exact ⟨fits, rfl⟩
  · rintro ⟨fits, rfl⟩
    exact ⟨_, ⟨fits, rfl⟩, rfl⟩

/-! What a commitment binds. -/

def NoCollision (sha : Sha256) (inputs : List (List UInt8)) : Prop :=
  ∀ x ∈ inputs, ∀ y ∈ inputs, sha x = sha y → x = y

def hashedInputs (sha : Sha256) (receipts : List PaymentReceipt) : List (List UInt8) :=
  receipts.map PaymentReceipt.leafInput ++
    (Merkle.treePairs (hashPair sha) (ZkReceiptBatch.leaves sha receipts)).map
      fun p => p.1.bytes ++ p.2.bytes

/-- If both batches compress to the same root, their receipts agree at every position. -/
def RootBinds (sha : Sha256) (a b : ZkReceiptBatch) : Prop :=
  ∀ now now' x y, a.compress sha now = .ok x → b.compress sha now' = .ok y →
    x.merkleRoot = y.merkleRoot →
    a.receipts.map PaymentReceipt.committed = b.receipts.map PaymentReceipt.committed

/-- The bytes of each leaf split in the same places: the first text has the same size. -/
def SameSplit (xs ys : List PaymentReceipt) : Prop :=
  xs.map (fun r => r.clientIpHash.utf8ByteSize) = ys.map fun r => r.clientIpHash.utf8ByteSize

theorem committed_of_leafInput {r s : PaymentReceipt} (same : r.leafInput = s.leafInput)
    (split : r.clientIpHash.utf8ByteSize = s.clientIpHash.utf8ByteSize) :
    r.committed = s.committed := by
  obtain ⟨front, timestamps⟩ := List.append_inj' same (by rw [length_le, length_le])
  have heads : (ofString r.clientIpHash ++ le 8 r.amountLamports.toNat).length =
      (ofString s.clientIpHash ++ le 8 s.amountLamports.toNat).length := by
    rw [List.length_append, List.length_append, length_le, length_le, length_ofString,
      length_ofString, split]
  obtain ⟨head, nonces⟩ := List.append_inj front heads
  obtain ⟨ips, amounts⟩ := List.append_inj' head (by rw [length_le, length_le])
  rw [PaymentReceipt.committed, ofString_inj ips, le64_inj amounts, ofString_inj nonces,
    le64_inj timestamps]
  rfl

theorem committed_of_leafInputs {xs ys : List PaymentReceipt}
    (same : xs.map PaymentReceipt.leafInput = ys.map PaymentReceipt.leafInput)
    (split : SameSplit xs ys) :
    xs.map PaymentReceipt.committed = ys.map PaymentReceipt.committed := by
  induction xs generalizing ys with
  | nil =>
    obtain rfl := List.map_eq_nil_iff.mp same.symm
    rfl
  | cons r xs ih =>
    cases ys with
    | nil => cases same
    | cons s ys =>
      obtain ⟨first, rest⟩ := List.cons.inj same
      obtain ⟨size, sizes⟩ := List.cons.inj split
      rw [List.map_cons, List.map_cons, committed_of_leafInput first size, ih rest sizes]

theorem NoCollision.mono {sha : Sha256} {inputs more : List (List UInt8)}
    (noCollision : NoCollision sha more) (sub : ∀ x ∈ inputs, x ∈ more) : NoCollision sha inputs :=
  fun x hx y hy => noCollision x (sub x hx) y (sub y hy)

theorem NoCollision.map_inj {sha : Sha256} {us vs : List (List UInt8)}
    (noCollision : NoCollision sha (us ++ vs)) (same : us.map sha = vs.map sha) : us = vs := by
  induction us generalizing vs with
  | nil => exact (List.map_eq_nil_iff.mp same.symm).symm
  | cons u us ih =>
    cases vs with
    | nil => cases same
    | cons v vs =>
      obtain ⟨first, rest⟩ := List.cons.inj same
      have heads : u = v := noCollision u (by simp) v (by simp) first
      rw [heads, ih (noCollision.mono ?_) rest]
      intro x member
      rcases List.mem_append.mp member with member | member
      · exact List.mem_append_left _ (List.mem_cons_of_mem _ member)
      · exact List.mem_append_right _ (List.mem_cons_of_mem _ member)

theorem NoCollision.pair_inj {sha : Sha256} {inputs : List (List UInt8)}
    (noCollision : NoCollision sha inputs) (p q : Digest × Digest)
    (hashed : p.1.bytes ++ p.2.bytes ∈ inputs) (hashed' : q.1.bytes ++ q.2.bytes ∈ inputs)
    (collides : hashPair sha p.1 p.2 = hashPair sha q.1 q.2) : p = q := by
  have joined := noCollision _ hashed _ hashed' collides
  obtain ⟨lefts, rights⟩ := List.append_inj joined (p.1.full.trans q.1.full.symm)
  exact Prod.ext (Block.eq lefts) (Block.eq rights)

/-- The inputs hashed on the way from the leaves to the root. -/
def pairInputs (sha : Sha256) (leaves : List Digest) : List (List UInt8) :=
  (Merkle.treePairs (hashPair sha) leaves).map fun p => p.1.bytes ++ p.2.bytes

theorem leaves_of_root {sha : Sha256} {xs ys : List Digest} (length : xs.length = ys.length)
    (noCollision : NoCollision sha (pairInputs sha xs ++ pairInputs sha ys))
    (same : ZkReceiptBatch.computeMerkleRoot sha xs = ZkReceiptBatch.computeMerkleRoot sha ys) :
    xs = ys := by
  apply Merkle.root_inj length noCollision.pair_inj _ _ same
  · intro p member
    exact List.mem_append_left _ (List.mem_map_of_mem member)
  · intro p member
    exact List.mem_append_right _ (List.mem_map_of_mem member)

theorem leafInputs_of_root {sha : Sha256} {xs ys : List PaymentReceipt}
    (length : xs.length = ys.length)
    (noCollision : NoCollision sha (hashedInputs sha xs ++ hashedInputs sha ys))
    (same : ZkReceiptBatch.computeMerkleRoot sha (ZkReceiptBatch.leaves sha xs) =
      ZkReceiptBatch.computeMerkleRoot sha (ZkReceiptBatch.leaves sha ys)) :
    xs.map PaymentReceipt.leafInput = ys.map PaymentReceipt.leafInput := by
  have leaves : ZkReceiptBatch.leaves sha xs = ZkReceiptBatch.leaves sha ys := by
    apply leaves_of_root _ (noCollision.mono _) same
    · rw [ZkReceiptBatch.leaves, ZkReceiptBatch.leaves, List.length_map, List.length_map, length]
    · intro x member
      rcases List.mem_append.mp member with member | member
      · exact List.mem_append_left _ (List.mem_append_right _ member)
      · exact List.mem_append_right _ (List.mem_append_right _ member)
  refine NoCollision.map_inj (noCollision.mono ?_) ?_
  · intro x member
    rcases List.mem_append.mp member with member | member
    · exact List.mem_append_left _ (List.mem_append_left _ member)
    · exact List.mem_append_right _ (List.mem_append_left _ member)
  · rw [List.map_map, List.map_map]
    exact leaves

/-- The root binds the receipts exactly when one of the sums of lamports overflows, some leaf
inputs differ, or the leaf inputs are split in the same places. -/
theorem root_binds_iff (sha : Sha256) (a b : ZkReceiptBatch)
    (length : a.receipts.length = b.receipts.length)
    (noCollision : NoCollision sha (hashedInputs sha a.receipts ++ hashedInputs sha b.receipts)) :
    RootBinds sha a b ↔ 2 ^ 64 ≤ totalOf a.receipts ∨ 2 ^ 64 ≤ totalOf b.receipts ∨
      a.receipts.map PaymentReceipt.leafInput ≠ b.receipts.map PaymentReceipt.leafInput ∨
      SameSplit a.receipts b.receipts := by
  constructor
  · intro binds
    by_contra otherwise
    simp only [not_or, Nat.not_le, not_not] at otherwise
    obtain ⟨fits, fits', leaves, split⟩ := otherwise
    have digests : ZkReceiptBatch.leaves sha a.receipts = ZkReceiptBatch.leaves sha b.receipts := by
      have hashed := congrArg (List.map sha) leaves
      rwa [List.map_map, List.map_map] at hashed
    have same := binds 0 0 _ _ (compress_ok_iff.mpr ⟨fits, rfl⟩) (compress_ok_iff.mpr ⟨fits', rfl⟩)
      (by rw [digests])
    have sizes := congrArg (List.map fun c => c.1.utf8ByteSize) same
    rw [List.map_map, List.map_map] at sizes
    exact split sizes
  · rintro condition now now' x y compressed compressed' same
    obtain ⟨fits, rfl⟩ := compress_ok_iff.mp compressed
    obtain ⟨fits', rfl⟩ := compress_ok_iff.mp compressed'
    have roots := Block.eq (Hex.encode_inj same)
    have leaves := leafInputs_of_root length noCollision roots
    rcases condition with overflows | overflows | differ | split
    · omega
    · omega
    · exact absurd leaves differ
    · exact committed_of_leafInputs leaves split

/-! Batches of one receipt. -/

def freshId : Uuid := ⟨"9b2f6d3e-1c64-4a51-9d2e-0f6b7c8a9e10", by decide⟩

def receiptOf (clientIpHash nonce : String) (amountLamports : UInt64) : PaymentReceipt :=
  ⟨clientIpHash, amountLamports, "getBalance", 1700000000, nonce, ""⟩

def oneReceipt (clientIpHash nonce : String) (amountLamports : UInt64) : ZkReceiptBatch :=
  ⟨[receiptOf clientIpHash nonce amountLamports], freshId⟩

/-- SHA-256 on the leaves of two receipts that differ in the amount. -/
def twoAmountsSha : Sha256 := fun input =>
  if input = (receiptOf "9f86d081" "n-1" 5000).leafInput then
    ⟨[0xf6, 0x97, 0xbb, 0x41, 0x43, 0xfa, 0xfb, 0x08, 0xd1, 0xd3, 0xe7, 0xef, 0xfd, 0x9a,
      0x80, 0xe5, 0x79, 0x08, 0x2a, 0x42, 0xb1, 0x58, 0x00, 0x5a, 0x80, 0x37, 0x99, 0x34,
      0x5d, 0x44, 0xc8, 0x09], rfl⟩
  else if input = (receiptOf "9f86d081" "n-1" 6000).leafInput then
    ⟨[0x87, 0x6f, 0x9d, 0xcb, 0x3c, 0x88, 0xf3, 0x40, 0xe4, 0xe8, 0x00, 0x37, 0xa9, 0x2a,
      0xb2, 0x81, 0xb2, 0x50, 0x4b, 0x23, 0x12, 0xbe, 0xdc, 0xb0, 0x91, 0xf7, 0x21, 0xe7,
      0x28, 0xb9, 0x9b, 0x59], rfl⟩
  else .zero 32

theorem hashedInputs_one (sha : Sha256) (receipt : PaymentReceipt) :
    hashedInputs sha [receipt] = [receipt.leafInput] := by
  simp only [hashedInputs, ZkReceiptBatch.leaves, List.map_cons, List.map_nil, Merkle.treePairs,
    List.append_nil]

theorem root_binds_equal_split :
    RootBinds twoAmountsSha (oneReceipt "9f86d081" "n-1" 5000)
      (oneReceipt "9f86d081" "n-1" 6000) := by
  have other : (receiptOf "9f86d081" "n-1" 6000).leafInput ≠
      (receiptOf "9f86d081" "n-1" 5000).leafInput := by
    intro same
    have fields := committed_of_leafInput same rfl
    exact absurd fields (by decide)
  have noCollision : NoCollision twoAmountsSha
      (hashedInputs twoAmountsSha (oneReceipt "9f86d081" "n-1" 5000).receipts ++
        hashedInputs twoAmountsSha (oneReceipt "9f86d081" "n-1" 6000).receipts) := by
    rw [oneReceipt, oneReceipt, hashedInputs_one, hashedInputs_one]
    intro x hx y hy same
    simp only [List.cons_append, List.nil_append, List.mem_cons, List.not_mem_nil, or_false]
      at hx hy
    rcases hx with rfl | rfl <;> rcases hy with rfl | rfl
    · rfl
    · simp [twoAmountsSha, if_neg other] at same
    · simp [twoAmountsSha, if_neg other] at same
    · rfl
  exact (root_binds_iff twoAmountsSha (oneReceipt "9f86d081" "n-1" 5000)
    (oneReceipt "9f86d081" "n-1" 6000) rfl noCollision).mpr (.inr (.inr (.inr rfl)))

def movedLetterSha : Sha256 := fun _ =>
  ⟨[0x5c, 0x21, 0xd4, 0x97, 0xc1, 0x8f, 0x09, 0x10, 0x65, 0xc4, 0xce, 0x46, 0xa3, 0xfd,
    0x9d, 0xa0, 0xad, 0xbd, 0xef, 0x74, 0x39, 0x3e, 0xcc, 0xd3, 0x2e, 0x4b, 0xc7, 0xd8,
    0xca, 0x41, 0xac, 0x57], rfl⟩

/-- A letter may stand at the end of the address or at the front of the nonce, when the bytes
of the amount between them are the same letter. -/
theorem root_does_not_bind :
    ¬ ∀ (sha : Sha256) (a b : ZkReceiptBatch), a.receipts.length = b.receipts.length →
      NoCollision sha (hashedInputs sha a.receipts ++ hashedInputs sha b.receipts) →
      RootBinds sha a b := by
  intro binds
  have same : (receiptOf "A" "" 0x4141414141414141).leafInput =
      (receiptOf "" "A" 0x4141414141414141).leafInput := by decide
  have bound := binds movedLetterSha (oneReceipt "A" "" 0x4141414141414141)
    (oneReceipt "" "A" 0x4141414141414141) rfl ?_
  · have fields := bound 0 0 _ _ (compress_ok_iff.mpr ⟨by decide, rfl⟩)
      (compress_ok_iff.mpr ⟨by decide, rfl⟩) rfl
    exact absurd fields (by decide)
  · rw [oneReceipt, oneReceipt, hashedInputs_one, hashedInputs_one, same]
    intro x hx y hy _
    simp only [List.cons_append, List.nil_append, List.mem_cons, List.not_mem_nil, or_false,
      or_self] at hx hy
    rw [hx, hy]

end Solnet.Daemon
