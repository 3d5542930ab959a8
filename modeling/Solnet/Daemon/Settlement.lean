import Solnet.Daemon.Receipts
import Solnet.Lib.Runs
import Solnet.Lib.Table

/-! Settling a batch: its receipts go to a file named by its id, and only then are they
cleared. The printer of the JSON file comes from outside. -/
namespace Solnet.Daemon
open Fallible Bytes Runs

abbrev Disk := Table String String

/-- How the disk takes a call, and the id that is generated after a write. -/
inductive DiskOutcome where
  | createFails
  | writeFails (left : Option String)
  | written (nextId : Uuid)
  deriving DecidableEq, Repr

inductive PersistError where
  | createDirAll | write
  deriving DecidableEq, Repr

def batchFile (path batchId : String) : String := path ++ "/batch_" ++ batchId ++ ".json"

/-- What a failed write leaves under the name: no file, or some content. -/
def Disk.leave (disk : Disk) (file : String) : Option String → Disk
  | none => disk.erase file
  | some content => disk.insert file content

def ZkReceiptBatch.persistAndClear (sha : Sha256) (pretty : List PaymentReceipt → String)
    (batch : ZkReceiptBatch) (disk : Disk) (path : String) (now : Nat) (outcome : DiskOutcome) :
    Checked (Except PersistError CompressedBatch × ZkReceiptBatch × Disk) := do
  let compressed ← batch.compress sha now
  let file := batchFile path batch.batchId.text
  match outcome with
  | .createFails => return (.error .createDirAll, batch, disk)
  | .writeFails left => return (.error .write, batch, disk.leave file left)
  | .written nextId =>
    return (.ok compressed, { receipts := [], batchId := nextId },
      disk.insert file (pretty batch.receipts))

/-! Runs of calls on one batch. -/

inductive BatchCall where
  | addReceipt (receipt : PaymentReceipt)
  | persistAndClear (path : String) (now : Nat) (outcome : DiskOutcome)
  deriving DecidableEq, Repr

structure Settling where
  batch : ZkReceiptBatch
  disk : Disk

def BatchStep (sha : Sha256) (pretty : List PaymentReceipt → String) (s : Settling) :
    BatchCall → Settling → Prop
  | .addReceipt receipt, t => t = ⟨s.batch.addReceipt receipt, s.disk⟩
  | .persistAndClear path now outcome, t =>
    ∃ result, s.batch.persistAndClear sha pretty s.disk path now outcome =
      .ok (result, t.batch, t.disk)

/-- A call that returned `Ok`: where it wrote, the batch before it, and what it returned. -/
structure IssuedBatch where
  path : String
  batch : ZkReceiptBatch
  compressed : CompressedBatch
  deriving DecidableEq, Repr

def noteIssued (sha : Sha256) (pretty : List PaymentReceipt → String) (s : Settling)
    (call : BatchCall) (issued : List IssuedBatch) : List IssuedBatch :=
  match call with
  | .addReceipt _ => issued
  | .persistAndClear path now outcome =>
    match s.batch.persistAndClear sha pretty s.disk path now outcome with
    | .ok (.ok compressed, _, _) => issued ++ [⟨path, s.batch, compressed⟩]
    | _ => issued

def BatchCall.receipt : BatchCall → Option PaymentReceipt
  | .addReceipt receipt => some receipt
  | _ => none

def BatchCall.nextId : BatchCall → Option Uuid
  | .persistAndClear _ _ (.written nextId) => some nextId
  | _ => none

/-- The ids generated up to now, that of the new batch first. -/
def generatedIds (firstId : Uuid) (calls : List BatchCall) : List Uuid :=
  firstId :: calls.filterMap BatchCall.nextId

/-- The summary an `Ok` returned is that of the receipts, and the file holds them. -/
structure IssuedBatch.Filed (sha : Sha256) (pretty : List PaymentReceipt → String) (disk : Disk)
    (issued : IssuedBatch) : Prop where
  batchId : issued.compressed.batchId = issued.batch.batchId.text
  receiptCount : issued.compressed.receiptCount = issued.batch.receipts.length
  totalLamports : issued.compressed.totalLamports = totalOf issued.batch.receipts
  merkleRoot : issued.compressed.merkleRoot = Hex.encode (ZkReceiptBatch.computeMerkleRoot sha
    (ZkReceiptBatch.leaves sha issued.batch.receipts)).bytes
  file : disk.lookup (batchFile issued.path issued.compressed.batchId) =
    some (pretty issued.batch.receipts)

variable {sha : Sha256} {pretty : List PaymentReceipt → String}

theorem batchFile_inj {path path' : String} {a b : Uuid}
    (same : batchFile path a.text = batchFile path' b.text) : a = b := by
  have chars := congrArg String.toList same
  simp only [batchFile, String.toList_append] at chars
  obtain ⟨front, _⟩ := List.append_inj' chars rfl
  have sizes : a.text.toList.length = b.text.toList.length := by
    rw [String.length_toList, String.length_toList, a.size, b.size]
  obtain ⟨_, ids⟩ := List.append_inj' front sizes
  have texts : a.text = b.text := String.toList_inj.mp ids
  cases a
  cases b
  cases texts
  rfl

theorem lookup_leave (disk : Disk) (file other : String) (left : Option String)
    (differs : other ≠ file) : (disk.leave file left).lookup other = disk.lookup other := by
  cases left with
  | none => rw [Disk.leave, Table.lookup_erase, if_neg differs]
  | some content => rw [Disk.leave, Table.lookup_insert, if_neg differs]

/-- A call that returned `Err` keeps the batch, and touches no file but that of the batch. -/
structure FailedCall (batch : ZkReceiptBatch) (disk : Disk) (path : String)
    (outcome : DiskOutcome) (batch' : ZkReceiptBatch) (disk' : Disk) : Prop where
  ungenerated : ∀ nextId, outcome ≠ .written nextId
  keeps : batch' = batch
  files : ∀ file, file ≠ batchFile path batch.batchId.text → disk'.lookup file = disk.lookup file

theorem persistAndClear_ok {batch batch' : ZkReceiptBatch} {disk disk' : Disk} {path : String}
    {now : Nat} {outcome : DiskOutcome} {result : Except PersistError CompressedBatch}
    (ok : batch.persistAndClear sha pretty disk path now outcome = .ok (result, batch', disk')) :
    (∃ error, result = .error error ∧ FailedCall batch disk path outcome batch' disk') ∨
      ∃ nextId compressed, outcome = .written nextId ∧ batch.compress sha now = .ok compressed ∧
        result = .ok compressed ∧ batch' = ⟨[], nextId⟩ ∧
        disk' = disk.insert (batchFile path batch.batchId.text) (pretty batch.receipts) := by
  obtain ⟨compressed, compress, ok⟩ := bind_ok_iff.mp ok
  cases outcome with
  | createFails =>
    obtain ⟨rfl, rfl, rfl⟩ : _ ∧ _ ∧ _ := by simpa [pure, Except.pure] using ok
    exact .inl ⟨_, rfl, nofun, rfl, fun _ _ => rfl⟩
  | writeFails left =>
    obtain ⟨rfl, rfl, rfl⟩ : _ ∧ _ ∧ _ := by simpa [pure, Except.pure] using ok
    exact .inl ⟨_, rfl, nofun, rfl, fun file differs => lookup_leave disk _ file left differs⟩
  | written nextId =>
    obtain ⟨rfl, rfl, rfl⟩ : _ ∧ _ ∧ _ := by simpa [pure, Except.pure] using ok
    exact .inr ⟨nextId, compressed, rfl, compress, rfl, rfl, rfl⟩

/-- After `done`: nothing is lost or doubled, all summaries are filed, and the id of the
batch is the latest one generated, under which nothing has been issued. -/
structure Kept (sha : Sha256) (pretty : List PaymentReceipt → String) (firstId : Uuid)
    (done : List BatchCall) (x : Settling × List IssuedBatch) : Prop where
  receipts : x.2.flatMap (fun i => i.batch.receipts) ++ x.1.batch.receipts =
    done.filterMap BatchCall.receipt
  filed : ∀ i ∈ x.2, i.Filed sha pretty x.1.disk
  ids : ∃ earlier, generatedIds firstId done = earlier ++ [x.1.batch.batchId] ∧
    ∀ i ∈ x.2, i.batch.batchId ∈ earlier

theorem generatedIds_append (firstId : Uuid) (done : List BatchCall) (call : BatchCall) :
    generatedIds firstId (done ++ [call]) =
      generatedIds firstId done ++ call.nextId.toList := by
  cases next : call.nextId with
  | none => simp [generatedIds, List.filterMap_append, next]
  | some id => simp [generatedIds, List.filterMap_append, next]

theorem filterMap_receipt_append (done : List BatchCall) (call : BatchCall) :
    (done ++ [call]).filterMap BatchCall.receipt =
      done.filterMap BatchCall.receipt ++ call.receipt.toList := by
  cases added : call.receipt with
  | none => simp [List.filterMap_append, added]
  | some receipt => simp [List.filterMap_append, added]

theorem Kept.failed {firstId : Uuid} {done : List BatchCall} {s : Settling}
    {issued : List IssuedBatch}
    {call : BatchCall} {disk : Disk} (kept : Kept sha pretty firstId done (s, issued))
    (added : call.receipt = none) (ungenerated : call.nextId = none)
    (files : ∀ i ∈ issued, disk.lookup (batchFile i.path i.compressed.batchId) =
      s.disk.lookup (batchFile i.path i.compressed.batchId)) :
    Kept sha pretty firstId (done ++ [call]) (⟨s.batch, disk⟩, issued) where
  receipts := by
    rw [filterMap_receipt_append, added, ← kept.receipts]
    exact (List.append_nil _).symm
  filed i member :=
    { kept.filed i member with file := (files i member).trans (kept.filed i member).file }
  ids := by
    rw [generatedIds_append, ungenerated]
    exact (List.append_nil (generatedIds firstId done)).symm ▸ kept.ids

theorem Kept.received {firstId : Uuid} {done : List BatchCall} {s : Settling}
    {issued : List IssuedBatch} (kept : Kept sha pretty firstId done (s, issued))
    (receipt : PaymentReceipt) :
    Kept sha pretty firstId (done ++ [.addReceipt receipt])
      (⟨s.batch.addReceipt receipt, s.disk⟩, issued) where
  receipts := by
    rw [filterMap_receipt_append, ← kept.receipts]
    exact (List.append_assoc _ _ _).symm
  filed := kept.filed
  ids := by
    rw [generatedIds_append]
    exact (List.append_nil (generatedIds firstId done)).symm ▸ kept.ids

/-- Nothing has been issued under the id of the batch, so its file is none of the issued ones. -/
theorem Kept.otherFile {firstId : Uuid} {done : List BatchCall} {s : Settling}
    {issued : List IssuedBatch} (kept : Kept sha pretty firstId done (s, issued))
    (distinct : (generatedIds firstId done).Nodup) {i : IssuedBatch} (member : i ∈ issued)
    (path : String) :
    batchFile i.path i.compressed.batchId ≠ batchFile path s.batch.batchId.text := by
  intro same
  obtain ⟨earlier, ids, used⟩ := kept.ids
  rw [(kept.filed i member).batchId] at same
  rw [ids] at distinct
  exact (List.nodup_append.mp distinct).2.2 _ (used i member) _ List.mem_cons_self
    (batchFile_inj same)

theorem Kept.saved {firstId nextId : Uuid} {done : List BatchCall} {s : Settling}
    {issued : List IssuedBatch} (kept : Kept sha pretty firstId done (s, issued))
    (distinct : (generatedIds firstId done).Nodup) {path : String} {now : Nat}
    {compressed : CompressedBatch} (compress : s.batch.compress sha now = .ok compressed) :
    Kept sha pretty firstId (done ++ [.persistAndClear path now (.written nextId)])
      (⟨⟨[], nextId⟩, s.disk.insert (batchFile path s.batch.batchId.text)
        (pretty s.batch.receipts)⟩, issued ++ [⟨path, s.batch, compressed⟩]) := by
  obtain ⟨_, rfl⟩ := compress_ok_iff.mp compress
  obtain ⟨earlier, ids, used⟩ := kept.ids
  refine ⟨?_, fun i member => ?_, earlier ++ [s.batch.batchId], ?_, fun i member => ?_⟩
  · rw [filterMap_receipt_append, ← kept.receipts]
    simp [BatchCall.receipt]
  · rcases List.mem_append.mp member with member | member
    · have other := kept.otherFile distinct member path
      exact { kept.filed i member with
        file := by rw [Table.lookup_insert, if_neg other, (kept.filed i member).file] }
    · obtain rfl := List.mem_singleton.mp member
      exact ⟨rfl, rfl, rfl, rfl, by rw [Table.lookup_insert, if_pos rfl]⟩
  · rw [generatedIds_append, ids]
    rfl
  · rcases List.mem_append.mp member with member | member
    · exact List.mem_append_left _ (used i member)
    · obtain rfl := List.mem_singleton.mp member
      exact List.mem_append_right _ List.mem_cons_self

theorem step_kept {firstId : Uuid} (done : List BatchCall) (x : Settling × List IssuedBatch)
    (call : BatchCall) (y : Settling × List IssuedBatch)
    (inv : (generatedIds firstId done).Nodup → Kept sha pretty firstId done x)
    (step : Runs.Traced (BatchStep sha pretty) (noteIssued sha pretty) x call y)
    (distinct : (generatedIds firstId (done ++ [call])).Nodup) :
    Kept sha pretty firstId (done ++ [call]) y := by
  rw [generatedIds_append] at distinct
  have nodup := distinct.of_append_left
  have before := inv nodup
  obtain ⟨s, issued⟩ := x
  obtain ⟨⟨batch, disk⟩, issued'⟩ := y
  obtain ⟨step, rfl⟩ := step
  cases call with
  | addReceipt receipt =>
    obtain ⟨rfl, rfl⟩ := Settling.mk.inj step
    exact before.received receipt
  | persistAndClear path now outcome =>
    obtain ⟨result, ok⟩ := step
    rcases persistAndClear_ok ok with
      ⟨error, rfl, failed⟩ | ⟨nextId, compressed, rfl, compress, rfl, saved⟩
    · have ungenerated : (BatchCall.persistAndClear path now outcome).nextId = none := by
        cases outcome with
        | written nextId => exact absurd rfl (failed.ungenerated nextId)
        | _ => rfl
      have noted : noteIssued sha pretty s (.persistAndClear path now outcome) issued = issued := by
        simp only [noteIssued, ok]
      obtain rfl : batch = s.batch := failed.keeps
      rw [noted]
      exact before.failed rfl ungenerated fun i member =>
        failed.files _ (before.otherFile nodup member path)
    · have noted : noteIssued sha pretty s (.persistAndClear path now (.written nextId)) issued =
          issued ++ [⟨path, s.batch, compressed⟩] := by
        simp only [noteIssued, ok]
      obtain ⟨rfl, rfl⟩ : batch = ⟨[], nextId⟩ ∧ disk = _ := saved
      rw [noted]
      exact before.saved nodup compress

/-- Over every run of calls with distinct ids, the receipts issued and those pending are the
receipts added, every summary issued is that of its file, and a call on a batch whose lamports
fit returns, with the batch unchanged if it is an error. -/
theorem receipts_settled_once (sha : Sha256) (pretty : List PaymentReceipt → String)
    (firstId : Uuid) (disk : Disk) (calls : List BatchCall) (s : Settling) (issued : List IssuedBatch)
    (run : Run (Runs.Traced (BatchStep sha pretty) (noteIssued sha pretty))
      (⟨.new firstId, disk⟩, []) calls (s, issued))
    (distinct : (generatedIds firstId calls).Nodup) :
    issued.flatMap (fun i => i.batch.receipts) ++ s.batch.receipts =
        calls.filterMap BatchCall.receipt ∧
      (∀ i ∈ issued, i.Filed sha pretty s.disk) ∧
      ∀ path now outcome, totalOf s.batch.receipts < 2 ^ 64 →
        ∃ result batch' disk', s.batch.persistAndClear sha pretty s.disk path now outcome =
            .ok (result, batch', disk') ∧
          ∀ error, result = .error error → batch' = s.batch := by
  have start : (generatedIds firstId []).Nodup →
      Kept sha pretty firstId [] (⟨.new firstId, disk⟩, []) := fun _ =>
    ⟨rfl, nofun, [], rfl, nofun⟩
  have kept := run.history step_kept start distinct
  refine ⟨kept.receipts, kept.filed, fun path now outcome fits => ?_⟩
  have returns : ∃ result batch' disk', s.batch.persistAndClear sha pretty s.disk path now outcome =
      .ok (result, batch', disk') := by
    unfold ZkReceiptBatch.persistAndClear
    cases outcome with
    | createFails => exact ⟨_, _, _, bind_ok_iff.mpr ⟨_, compress_ok_iff.mpr ⟨fits, rfl⟩, rfl⟩⟩
    | writeFails left => exact ⟨_, _, _, bind_ok_iff.mpr ⟨_, compress_ok_iff.mpr ⟨fits, rfl⟩, rfl⟩⟩
    | written nextId => exact ⟨_, _, _, bind_ok_iff.mpr ⟨_, compress_ok_iff.mpr ⟨fits, rfl⟩, rfl⟩⟩
  obtain ⟨result, batch', disk', ok⟩ := returns
  refine ⟨result, batch', disk', ok, ?_⟩
  rintro error rfl
  rcases persistAndClear_ok ok with ⟨_, _, failed⟩ | ⟨_, _, _, _, impossible, _⟩
  · exact failed.keeps
  · cases impossible

/-! A write that fails, and the retry that settles the receipt under the same id. -/

def nextBatchId : Uuid := ⟨"1c0d9a52-7f3b-4e08-8a6e-2b5d4c3f1e07", by decide⟩

def failThenSettle : List BatchCall :=
  [.addReceipt (receiptOf "9f86d081" "n-1" 5000),
    .persistAndClear "./batches" 1700000000 (.writeFails (some "[")),
    .persistAndClear "./batches" 1700003600 (.written nextBatchId)]

def oneReceiptJson : String :=
  "[\n  \x7b\n    \"client_ip_hash\": \"9f86d081\",\n    \"amount_lamports\": 5000,\n" ++
    "    \"method\": \"getBalance\",\n    \"timestamp\": 1700000000,\n    \"nonce\": \"n-1\",\n" ++
    "    \"node_signature\": \"\"\n  \x7d\n]"

def onePretty (_ : List PaymentReceipt) : String := oneReceiptJson

theorem adds (s : Settling) (receipt : PaymentReceipt) :
    BatchStep sha pretty s (.addReceipt receipt) ⟨s.batch.addReceipt receipt, s.disk⟩ := rfl

theorem persists {s : Settling} {path : String} {now : Nat} {outcome : DiskOutcome}
    {result : Except PersistError CompressedBatch} {batch' : ZkReceiptBatch} {disk' : Disk}
    (ok : s.batch.persistAndClear sha pretty s.disk path now outcome =
      .ok (result, batch', disk')) :
    BatchStep sha pretty s (.persistAndClear path now outcome) ⟨batch', disk'⟩ :=
  ⟨result, ok⟩

theorem receipt_settled_by_retry :
    ∃ s i, Run (Runs.Traced (BatchStep twoAmountsSha onePretty) (noteIssued twoAmountsSha onePretty))
        (⟨.new freshId, ∅⟩, []) failThenSettle (s, [i]) ∧
      i.batch.receipts = [receiptOf "9f86d081" "n-1" 5000] ∧
      s.disk.lookup (batchFile "./batches" freshId.text) = some oneReceiptJson := by
  have run : ∃ s i, Run (Runs.Traced (BatchStep twoAmountsSha onePretty)
      (noteIssued twoAmountsSha onePretty)) (⟨.new freshId, ∅⟩, []) failThenSettle (s, [i]) ∧
      s.batch.receipts = [] ∧ i.path = "./batches" ∧ i.batch.batchId = freshId :=
    ⟨_, _, .cons (traced_of (adds _ _) _) (.cons (traced_of (persists rfl) _)
      (.cons (traced_of (persists rfl) _) (.nil _))), rfl, rfl, rfl⟩
  obtain ⟨s, i, run, cleared, path, batchId⟩ := run
  obtain ⟨receipts, filed, _⟩ := receipts_settled_once _ _ freshId ∅ failThenSettle s [i] run
    (by decide)
  refine ⟨s, i, run, ?_, ?_⟩
  · have settled : [i].flatMap (fun i => i.batch.receipts) = i.batch.receipts := by simp
    rw [settled, cleared, List.append_nil] at receipts
    exact receipts
  · have file := (filed i List.mem_cons_self).file
    rwa [(filed i List.mem_cons_self).batchId, path, batchId] at file

end Solnet.Daemon
