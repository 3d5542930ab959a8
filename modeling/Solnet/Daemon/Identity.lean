import Mathlib.Logic.Function.Basic
import Solnet.Lib.Base64
import Solnet.Lib.Bytes
import Solnet.Lib.Runs

/-! The identity of the node over its restarts. Each start reads the environment that the operator
has set by then and the disk that the earlier starts have left. -/
namespace Solnet.Daemon
open Runs Bytes

/-- How the write of a new key ends. One that fails may leave anything in the file, or none. -/
inductive KeyWrite where
  | saved
  | failed (left : Option (List UInt8))

/-- What a start meets: its environment, whether the key file can be read, the random bytes of a
new key and the end of its write. -/
structure Boot where
  solnetNodeKey : Option String
  solnetKeyPath : Option String
  readable : Bool
  generated : Block 32
  write : KeyWrite

/-- The identity of a started node, and the text of the key if it was generated. -/
structure Identity where
  secret : Block 32
  printed : Option String
  deriving DecidableEq

/-- The content of the files. -/
abbrev KeyFiles : Type := String → Option (List UInt8)

structure BootEvent where
  boot : Boot
  identity : Identity

/-- `SecretKey::try_from_bytes`. -/
def secretKey (bytes : List UInt8) : Option (Block 32) :=
  if full : bytes.length = 32 then some ⟨bytes, full⟩ else none

namespace Boot

def keyPath (boot : Boot) : String := boot.solnetKeyPath.getD "./node_keypair.bin"

def fromEnv (boot : Boot) : Option (Block 32) := do
  let keyB64 ← boot.solnetNodeKey
  let bytes ← Base64.decode keyB64
  secretKey bytes

def fromDisk (boot : Boot) (disk : KeyFiles) : Option (Block 32) :=
  if boot.readable then (disk boot.keyPath).bind secretKey else none

/-- What a start leaves in the key file that it writes. -/
def leaves (boot : Boot) : Option (List UInt8) :=
  match boot.write with
  | .saved => some boot.generated.bytes
  | .failed left => left

end Boot

def loadOrGenerate (disk : KeyFiles) (boot : Boot) : KeyFiles × Identity :=
  match boot.fromEnv with
  | some secret => (disk, ⟨secret, none⟩)
  | none =>
    match boot.fromDisk disk with
    | some secret => (disk, ⟨secret, none⟩)
    | none =>
      (Function.update disk boot.keyPath boot.leaves,
        ⟨boot.generated, some (Base64.encode boot.generated.bytes)⟩)

namespace Identity

def Boots (disk : KeyFiles) (event : BootEvent) (disk' : KeyFiles) : Prop :=
  loadOrGenerate disk event.boot = (disk', event.identity)

/-- A later start of the same node: it is told the key that was printed, or else it finds the key
file where it was and can read it. -/
def Again (first : BootEvent) (later : Boot) : Prop :=
  later.solnetNodeKey = some (Base64.encode first.identity.secret.bytes) ∨
    later.fromEnv = none ∧ later.keyPath = first.boot.keyPath ∧ later.readable = true

variable {disk disk' : KeyFiles} {first event : BootEvent} {events : List BootEvent}
  {secret : Block 32}

theorem secretKey_bytes (secret : Block 32) : secretKey secret.bytes = some secret :=
  dif_pos secret.full

/-- The printed text is read back as the key. -/
theorem fromEnv_encode {boot : Boot}
    (told : boot.solnetNodeKey = some (Base64.encode secret.bytes)) :
    boot.fromEnv = some secret := by
  simp only [Boot.fromEnv, told, Option.bind_eq_bind, Option.bind_some, Base64.decode_encode,
    secretKey_bytes]

/-- A start without a key in its environment leaves its key in the file, unless the file cannot be
written. -/
theorem boots_stored (boots : Boots disk first disk') (unset : first.boot.fromEnv = none)
    (saved : first.boot.write = .saved) :
    disk' first.boot.keyPath = some first.identity.secret.bytes := by
  unfold Boots loadOrGenerate at boots
  rw [unset] at boots
  dsimp only at boots
  split at boots
  · rename_i secret loaded
    obtain ⟨rfl, same⟩ := Prod.mk.inj boots
    unfold Boot.fromDisk at loaded
    split at loaded
    · obtain ⟨bytes, stored, read⟩ := Option.bind_eq_some_iff.mp loaded
      unfold secretKey at read
      split at read
      · obtain rfl := Option.some.inj read
        rw [stored, ← same]
      · cases read
    · cases loaded
  · obtain ⟨rfl, same⟩ := Prod.mk.inj boots
    rw [Function.update_self, ← same, Boot.leaves, saved]

/-- A start that finds the key, in its environment or in the file, changes nothing. -/
theorem boots_again (again : Again first event.boot)
    (stored : disk first.boot.keyPath = some first.identity.secret.bytes)
    (boots : Boots disk event disk') :
    disk' = disk ∧ event.identity = ⟨first.identity.secret, none⟩ := by
  unfold Boots loadOrGenerate at boots
  rcases again with told | ⟨unset, path, readable⟩
  · rw [fromEnv_encode told] at boots
    obtain ⟨rfl, same⟩ := Prod.mk.inj boots
    exact ⟨rfl, same.symm⟩
  · have loaded : event.boot.fromDisk disk = some first.identity.secret := by
      rw [Boot.fromDisk, if_pos readable, path, stored]
      exact secretKey_bytes _
    rw [unset, loaded] at boots
    obtain ⟨rfl, same⟩ := Prod.mk.inj boots
    exact ⟨rfl, same.symm⟩

/-- Once a start has saved its key, the node keeps its identity over all later starts that are
told the printed key or find the key file. None of them writes or prints a key. -/
theorem identity_stable (disk disk' : KeyFiles) (first : BootEvent) (events : List BootEvent)
    (run : Run Boots disk (first :: events) disk') (unset : first.boot.fromEnv = none)
    (saved : first.boot.write = .saved) (again : ∀ event ∈ events, Again first event.boot) :
    disk' first.boot.keyPath = some first.identity.secret.bytes ∧
      ∀ event ∈ events, event.identity = ⟨first.identity.secret, none⟩ := by
  obtain ⟨disk₁, boots, rest⟩ := run_cons_iff.mp run
  have stored := boots_stored boots unset saved
  clear run boots
  induction rest with
  | nil disk => exact ⟨stored, nofun⟩
  | cons step _ ih =>
    obtain ⟨own, others⟩ := List.forall_mem_cons.mp again
    obtain ⟨rfl, same⟩ := boots_again own stored step
    obtain ⟨kept, identities⟩ := ih others stored
    exact ⟨kept, List.forall_mem_cons.mpr ⟨same, identities⟩⟩

def bootWith (solnetNodeKey solnetKeyPath : Option String) (byte : UInt8) : Boot :=
  ⟨solnetNodeKey, solnetKeyPath, true, .fill 32 byte, .saved⟩

def sevens : Identity :=
  ⟨.fill 32 7, some "BwcHBwcHBwcHBwcHBwcHBwcHBwcHBwcHBwcHBwcHBwc="⟩

def sevensDisk : KeyFiles :=
  Function.update (fun _ => none) "./node_keypair.bin" (some (List.replicate 32 7))

def restarts : List BootEvent :=
  [⟨bootWith none none 8, ⟨.fill 32 7, none⟩⟩,
    ⟨bootWith sevens.printed (some "/app/data/node_keypair") 9, ⟨.fill 32 7, none⟩⟩]

/-- The first restart finds the key file; the last one looks elsewhere, but is told the key. -/
theorem identity_stable_restarts :
    sevensDisk "./node_keypair.bin" = some (List.replicate 32 7) ∧
      ∀ event ∈ restarts, event.identity = ⟨.fill 32 7, none⟩ := by
  have told : sevens.printed = some (Base64.encode (Block.fill 32 7).bytes) := by decide
  have generates : Boots (fun _ => none) ⟨bootWith none none 7, sevens⟩ sevensDisk :=
    congrArg (Prod.mk sevensDisk) (congrArg (Identity.mk (.fill 32 7)) told.symm)
  have loads : (bootWith none none 8).fromDisk sevensDisk = some (.fill 32 7) := by decide
  have finds : Boots sevensDisk ⟨bootWith none none 8, ⟨.fill 32 7, none⟩⟩ sevensDisk := by
    have unset : (bootWith none none 8).fromEnv = none := rfl
    simp only [Boots, loadOrGenerate, unset, loads]
  have reads : Boots sevensDisk
      ⟨bootWith sevens.printed (some "/app/data/node_keypair") 9, ⟨.fill 32 7, none⟩⟩
      sevensDisk := by
    have given : (bootWith sevens.printed (some "/app/data/node_keypair") 9).fromEnv =
      some (.fill 32 7) := fromEnv_encode told
    simp only [Boots, loadOrGenerate, given]
  refine identity_stable _ sevensDisk ⟨bootWith none none 7, sevens⟩ restarts
    (.cons generates (.cons finds (.cons reads (.nil _)))) rfl rfl ?_
  intro event member
  rcases List.mem_cons.mp member with rfl | last
  · exact .inr ⟨rfl, rfl, rfl⟩
  · rw [List.mem_singleton.mp last]
    exact .inl told

end Identity

end Solnet.Daemon
