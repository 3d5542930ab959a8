import Solnet.Daemon.Receipts

/-! What the settled root says about the leaves, and when one more receipt leaves it as it is. -/
namespace Solnet.Daemon
open ZkReceiptBatch Bytes

/-- SHA-256 as a constructor on these inputs: no two have the same digest, and none begins with
its own. -/
structure Constructs (sha : Sha256) (inputs : List (List UInt8)) : Prop where
  noCollision : NoCollision sha inputs
  acyclic : ∀ x ∈ inputs, ¬ (sha x).bytes <+: x

theorem Constructs.mono {sha : Sha256} {inputs more : List (List UInt8)}
    (constructs : Constructs sha more) (sub : ∀ x ∈ inputs, x ∈ more) : Constructs sha inputs :=
  ⟨constructs.noCollision.mono sub, fun x member => constructs.acyclic x (sub x member)⟩

/-! SHA-256 on three receipts, on the pairs of their leaves and on the pair of those. -/

def numbered (nonce : String) : PaymentReceipt := receiptOf "9f86d081" nonce 5000

def firstLeaf : Digest := twoAmountsSha (numbered "n-1").leafInput

def secondLeaf : Digest :=
  ⟨[0x0f, 0x38, 0x7e, 0xc3, 0xbb, 0x93, 0x3f, 0x01, 0xc7, 0xbc, 0x54, 0x48, 0xcf, 0x7f, 0xef,
    0xa9, 0x33, 0x7c, 0xb2, 0x30, 0x55, 0x79, 0x0b, 0x63, 0xfb, 0xc3, 0x70, 0xa6, 0x93, 0xa7,
    0xad, 0xd5], rfl⟩

def thirdLeaf : Digest :=
  ⟨[0x51, 0x85, 0x30, 0xef, 0xe7, 0x10, 0x58, 0x29, 0x06, 0x52, 0x18, 0x95, 0xf4, 0xef, 0xa2,
    0x68, 0xb6, 0x50, 0x65, 0x08, 0x55, 0xcc, 0xca, 0xaa, 0x35, 0x81, 0xc9, 0xe8, 0x35, 0xbe,
    0x83, 0xde], rfl⟩

def firstPair : Digest :=
  ⟨[0xf2, 0x50, 0x41, 0x95, 0x36, 0x85, 0xc0, 0x1d, 0xa8, 0x3c, 0x9c, 0x67, 0xc4, 0x9a, 0xf0,
    0xa8, 0xc3, 0x59, 0xb5, 0xa2, 0xde, 0x77, 0x49, 0x16, 0x8f, 0xdd, 0x64, 0x14, 0x3a, 0x3f,
    0xf1, 0x45], rfl⟩

def lastPair : Digest :=
  ⟨[0xb2, 0x49, 0xe7, 0x80, 0x78, 0xd2, 0x47, 0x87, 0x77, 0x64, 0x47, 0x86, 0xcb, 0x8b, 0x4c,
    0x20, 0x5e, 0x15, 0x1f, 0x4d, 0x5d, 0xfc, 0x27, 0xb2, 0xc3, 0xb1, 0x1b, 0x68, 0x75, 0x5a,
    0x07, 0xb0], rfl⟩

def fourLeafRoot : Digest :=
  ⟨[0x7f, 0x81, 0x72, 0xec, 0x4b, 0x52, 0xa7, 0x54, 0xbb, 0xf6, 0xf3, 0xea, 0x28, 0x47, 0xbe,
    0x9a, 0x0d, 0xd6, 0x2c, 0xb5, 0xe0, 0x00, 0xd4, 0xac, 0x5b, 0x02, 0xab, 0x83, 0xdb, 0x3c,
    0x0b, 0xcb], rfl⟩

def threeReceiptsSha : Sha256 := fun input =>
  if input = (numbered "n-1").leafInput then firstLeaf
  else if input = (numbered "n-2").leafInput then secondLeaf
  else if input = (numbered "n-3").leafInput then thirdLeaf
  else if input = firstLeaf.bytes ++ secondLeaf.bytes then firstPair
  else if input = thirdLeaf.bytes ++ thirdLeaf.bytes then lastPair
  else if input = firstPair.bytes ++ lastPair.bytes then fourLeafRoot
  else .zero 32

def threeReceiptsInputs : List (List UInt8) :=
  [(numbered "n-1").leafInput, (numbered "n-2").leafInput, (numbered "n-3").leafInput,
    firstLeaf.bytes ++ secondLeaf.bytes, thirdLeaf.bytes ++ thirdLeaf.bytes,
    firstPair.bytes ++ lastPair.bytes]

def firstTwo : ZkReceiptBatch := ⟨[numbered "n-1", numbered "n-2"], freshId⟩

def allThree : ZkReceiptBatch := firstTwo.addReceipt (numbered "n-3")

/-- What the hash comes to on these inputs. -/
theorem threeReceipts_hashed :
    (∀ x ∈ threeReceiptsInputs, ∀ y ∈ threeReceiptsInputs,
      threeReceiptsSha x = threeReceiptsSha y → x = y) ∧
    (∀ x ∈ threeReceiptsInputs, ¬ (threeReceiptsSha x).bytes <+: x) ∧
    (leaves threeReceiptsSha allThree.receipts = [firstLeaf, secondLeaf, thirdLeaf] ∧
      hashPair threeReceiptsSha firstLeaf secondLeaf = firstPair ∧
      hashPair threeReceiptsSha thirdLeaf thirdLeaf = lastPair) := by
  decide

theorem threeReceipts_construct : Constructs threeReceiptsSha threeReceiptsInputs :=
  ⟨threeReceipts_hashed.1, threeReceipts_hashed.2.1⟩

theorem threeReceipts_leaves :
    leaves threeReceiptsSha firstTwo.receipts = [firstLeaf, secondLeaf] ∧
    leaves threeReceiptsSha allThree.receipts = [firstLeaf, secondLeaf, thirdLeaf] ∧
    leaves threeReceiptsSha (allThree.addReceipt (numbered "n-3")).receipts =
      [firstLeaf, secondLeaf, thirdLeaf, thirdLeaf] := by
  have three := threeReceipts_hashed.2.2.1
  have hashes : threeReceiptsSha (numbered "n-1").leafInput = firstLeaf ∧
      threeReceiptsSha (numbered "n-2").leafInput = secondLeaf ∧
      threeReceiptsSha (numbered "n-3").leafInput = thirdLeaf := by
    simpa [allThree, firstTwo, addReceipt, leaves] using three
  simp [allThree, firstTwo, addReceipt, leaves, hashes]

theorem pairInputs_two (sha : Sha256) (left right : Digest) :
    pairInputs sha [left, right] = [left.bytes ++ right.bytes] := by
  simp only [pairInputs, Merkle.treePairs, Merkle.levelPairs, Merkle.nextLevel, List.append_nil,
    List.map_cons, List.map_nil]

/-- With the third leaf once or twice, the same pairs are hashed. -/
theorem pairInputs_padded {rest : List Digest} (padded : rest = [] ∨ rest = [thirdLeaf]) :
    pairInputs threeReceiptsSha (firstLeaf :: secondLeaf :: thirdLeaf :: rest) =
      [firstLeaf.bytes ++ secondLeaf.bytes, thirdLeaf.bytes ++ thirdLeaf.bytes,
        firstPair.bytes ++ lastPair.bytes] := by
  obtain ⟨_, first, last⟩ := threeReceipts_hashed.2.2
  rcases padded with rfl | rfl
  · simp only [pairInputs, Merkle.treePairs, Merkle.levelPairs, Merkle.nextLevel, first, last,
      List.append_nil, List.cons_append, List.nil_append, List.map_cons, List.map_nil]
  · simp only [pairInputs, Merkle.treePairs, Merkle.levelPairs, Merkle.nextLevel, first, last,
      List.append_nil, List.cons_append, List.nil_append, List.map_cons, List.map_nil]

/-! What they commit to. -/

/-- The root and the number of receipts, which the program records, determine each leaf and
its place. -/
theorem root_and_count_bind (sha : Sha256) (xs ys : List Digest)
    (noCollision : NoCollision sha (pairInputs sha xs ++ pairInputs sha ys)) :
    computeMerkleRoot sha xs = computeMerkleRoot sha ys ∧ xs.length = ys.length ↔
      ∀ i : Nat, xs[i]? = ys[i]? := by
  constructor
  · rintro ⟨same, length⟩ i
    rw [leaves_of_root length noCollision same]
  · intro same
    obtain rfl := List.ext_getElem? same
    exact ⟨rfl, rfl⟩

theorem root_and_count_bind_pairs :
    computeMerkleRoot threeReceiptsSha [firstLeaf, secondLeaf] ≠
      computeMerkleRoot threeReceiptsSha [thirdLeaf, thirdLeaf] := by
  intro same
  have noCollision : NoCollision threeReceiptsSha
      (pairInputs threeReceiptsSha [firstLeaf, secondLeaf] ++
        pairInputs threeReceiptsSha [thirdLeaf, thirdLeaf]) := by
    rw [pairInputs_two, pairInputs_two]
    exact threeReceipts_construct.noCollision.mono (by simp [threeReceiptsInputs])
  have leaves := (root_and_count_bind threeReceiptsSha _ _ noCollision).mp ⟨same, rfl⟩ 0
  exact absurd leaves (by decide)

/-- If the batch compresses with and without the receipt, the roots differ. -/
def AddingChanges (sha : Sha256) (batch : ZkReceiptBatch) (receipt : PaymentReceipt) : Prop :=
  ∀ now now' x y, batch.compress sha now = .ok x →
    (batch.addReceipt receipt).compress sha now' = .ok y → x.merkleRoot ≠ y.merkleRoot

theorem leaves_addReceipt (sha : Sha256) (batch : ZkReceiptBatch) (receipt : PaymentReceipt) :
    leaves sha (batch.addReceipt receipt).receipts =
      leaves sha batch.receipts ++ [sha receipt.leafInput] := by
  rw [addReceipt, leaves, List.map_append]
  rfl

/-- A leaf pads the tree as its input pads the list of inputs. -/
theorem pads_leaves_iff {sha : Sha256} {receipts : List PaymentReceipt} {receipt : PaymentReceipt}
    (noCollision : NoCollision sha ((receipts ++ [receipt]).map PaymentReceipt.leafInput)) :
    Merkle.Pads (sha receipt.leafInput) (leaves sha receipts) ↔
      Merkle.Pads receipt.leafInput (receipts.map PaymentReceipt.leafInput) := by
  have suffixes (n : Nat) : List.replicate n (sha receipt.leafInput) <:+ leaves sha receipts ↔
      List.replicate n receipt.leafInput <:+ receipts.map PaymentReceipt.leafInput := by
    have hashed : leaves sha receipts = (receipts.map PaymentReceipt.leafInput).map sha := by
      rw [List.map_map]
      rfl
    rw [hashed, ← List.map_replicate]
    constructor
    · rw [List.suffix_iff_eq_drop, List.suffix_iff_eq_drop, ← List.map_drop, List.length_map,
        List.length_map, List.length_map]
      intro same
      apply NoCollision.map_inj (noCollision.mono _) same
      intro x member
      rw [List.map_append]
      rcases List.mem_append.mp member with own | stored
      · rw [(List.mem_replicate.mp own).2]
        exact List.mem_append_right _ List.mem_cons_self
      · exact List.mem_append_left _ (List.mem_of_mem_drop stored)
    · intro suffix
      exact suffix.map sha
  constructor
  · rintro ⟨k, m, length, suffix⟩
    rw [leaves, List.length_map] at length
    exact ⟨k, m, by rwa [List.length_map], (suffixes _).mp suffix⟩
  · rintro ⟨k, m, length, suffix⟩
    rw [List.length_map] at length
    exact ⟨k, m, by rwa [leaves, List.length_map], (suffixes _).mpr suffix⟩

theorem root_addReceipt_iff {sha : Sha256} {batch : ZkReceiptBatch} {receipt : PaymentReceipt}
    (nonempty : batch.receipts ≠ [])
    (constructs : Constructs sha (hashedInputs sha batch.receipts ++
      hashedInputs sha (batch.addReceipt receipt).receipts)) :
    computeMerkleRoot sha (leaves sha batch.receipts) =
        computeMerkleRoot sha (leaves sha (batch.addReceipt receipt).receipts) ↔
      Merkle.Pads receipt.leafInput (batch.receipts.map PaymentReceipt.leafInput) := by
  have noCollision : NoCollision sha
      ((batch.receipts ++ [receipt]).map PaymentReceipt.leafInput) :=
    constructs.noCollision.mono fun x member =>
      List.mem_append_right _ (List.mem_append_left _ member)
  rw [leaves_addReceipt, ← pads_leaves_iff noCollision]
  apply Merkle.root_append_iff constructs.noCollision.pair_inj
  · intro p hashed self
    apply constructs.acyclic _ hashed
    have digest : sha (p.1.bytes ++ p.2.bytes) = p.1 := self
    rw [digest]
    exact List.prefix_append _ _
  · exact fun none => nonempty (List.map_eq_nil_iff.mp none)
  · intro p member
    exact List.mem_append_left _ (List.mem_append_right _ (List.mem_map_of_mem member))
  · intro p member
    rw [← leaves_addReceipt] at member
    exact List.mem_append_right _ (List.mem_append_right _ (List.mem_map_of_mem member))

/-- A receipt changes the root exactly when the lamports with it overflow, or it is not what
pads the tree: its leaf input stands at the end of the batch as often as the number of receipts
has factors of two, which is no power of two. -/
theorem adding_changes_iff (sha : Sha256) (batch : ZkReceiptBatch) (receipt : PaymentReceipt)
    (nonempty : batch.receipts ≠ [])
    (constructs : Constructs sha (hashedInputs sha batch.receipts ++
      hashedInputs sha (batch.addReceipt receipt).receipts)) :
    AddingChanges sha batch receipt ↔ 2 ^ 64 ≤ totalOf (batch.addReceipt receipt).receipts ∨
      ¬ Merkle.Pads receipt.leafInput (batch.receipts.map PaymentReceipt.leafInput) := by
  have roots := root_addReceipt_iff nonempty constructs
  constructor
  · intro changes
    by_contra otherwise
    simp only [not_or, Nat.not_le, not_not] at otherwise
    obtain ⟨fits, pads⟩ := otherwise
    have grows : totalOf batch.receipts ≤ totalOf (batch.addReceipt receipt).receipts := by
      rw [totalOf, totalOf, addReceipt, List.map_append, List.sum_append]
      exact Nat.le_add_right _ _
    apply changes 0 0 _ _ (compress_ok_iff.mpr ⟨Nat.lt_of_le_of_lt grows fits, rfl⟩)
      (compress_ok_iff.mpr ⟨fits, rfl⟩)
    rw [roots.mpr pads]
  · rintro condition now now' x y compressed compressed' same
    obtain ⟨_, rfl⟩ := compress_ok_iff.mp compressed
    obtain ⟨fits, rfl⟩ := compress_ok_iff.mp compressed'
    rcases condition with overflows | other
    · exact absurd fits (Nat.not_lt_of_le overflows)
    · exact other (roots.mp (Block.eq (Hex.encode_inj same)))

theorem adding_changes_new :
    AddingChanges threeReceiptsSha firstTwo (numbered "n-3") := by
  obtain ⟨two, three, _⟩ := threeReceipts_leaves
  have inputs : ∀ x ∈ hashedInputs threeReceiptsSha firstTwo.receipts ++
      hashedInputs threeReceiptsSha allThree.receipts, x ∈ threeReceiptsInputs := by
    rw [hashedInputs, hashedInputs, two, three, ← pairInputs, ← pairInputs, pairInputs_two,
      pairInputs_padded (.inl rfl)]
    simp [firstTwo, allThree, addReceipt, threeReceiptsInputs]
  have changes := adding_changes_iff threeReceiptsSha firstTwo (numbered "n-3") (by decide)
    (threeReceipts_construct.mono inputs)
  apply changes.mpr
  right
  intro pads
  exact absurd (Merkle.three_le_of_pads pads) (by decide)

/-- A copy of the last of three receipts is what pads their tree. -/
theorem adding_copy_changes_nothing :
    ¬ ∀ (sha : Sha256) (batch : ZkReceiptBatch) (receipt : PaymentReceipt), batch.receipts ≠ [] →
      Constructs sha (hashedInputs sha batch.receipts ++
        hashedInputs sha (batch.addReceipt receipt).receipts) →
      AddingChanges sha batch receipt := by
  intro changes
  obtain ⟨_, three, four⟩ := threeReceipts_leaves
  have inputs : ∀ x ∈ hashedInputs threeReceiptsSha allThree.receipts ++
      hashedInputs threeReceiptsSha (allThree.addReceipt (numbered "n-3")).receipts,
      x ∈ threeReceiptsInputs := by
    rw [hashedInputs, hashedInputs, three, four, ← pairInputs, ← pairInputs,
      pairInputs_padded (.inl rfl), pairInputs_padded (.inr rfl)]
    simp [firstTwo, allThree, addReceipt, threeReceiptsInputs]
  apply changes threeReceiptsSha allThree (numbered "n-3") (by decide)
    (threeReceipts_construct.mono inputs) 1700000000 1700000060 _ _
    (compress_ok_iff.mpr ⟨by decide, rfl⟩) (compress_ok_iff.mpr ⟨by decide, rfl⟩)
  have root (rest : List Digest) (padded : rest = [] ∨ rest = [thirdLeaf]) :
      computeMerkleRoot threeReceiptsSha (firstLeaf :: secondLeaf :: thirdLeaf :: rest) =
        hashPair threeReceiptsSha firstPair lastPair := by
    obtain ⟨_, first, last⟩ := threeReceipts_hashed.2.2
    rcases padded with rfl | rfl
    · simp only [computeMerkleRoot, Merkle.root, Merkle.nextLevel, first, last]
    · simp only [computeMerkleRoot, Merkle.root, Merkle.nextLevel, first, last]
  dsimp only
  rw [three, four, root _ (.inl rfl), root _ (.inr rfl)]

end Solnet.Daemon
