import Mathlib.Tactic.ByContra
import Solnet.Lib.Bytes
import Solnet.Lib.Hex

/-! Signatures of requests between nodes: HMAC-SHA256 over the payload followed by the
decimal timestamp. The MAC comes from outside. -/
namespace Solnet.Daemon
open Bytes

abbrev Hmac := List UInt8 → List UInt8 → Block 32

structure RequestSigner where
  secretKey : String
  deriving DecidableEq, Repr

/-- The XORs of the bytes are collected, and tested once. -/
def constantTimeEq (a b : String) : Bool :=
  if a.utf8ByteSize ≠ b.utf8ByteSize then false
  else ((ofString a).zip (ofString b)).foldl (fun acc p => acc ||| (p.1 ^^^ p.2)) 0 = 0

namespace RequestSigner

def signedText (payload : String) (timestamp : UInt64) : String :=
  payload ++ timestamp.toNat.repr

def sign (hmac : Hmac) (signer : RequestSigner) (payload : String) (timestamp : UInt64) : String :=
  Hex.encode (hmac (ofString signer.secretKey) (ofString (signedText payload timestamp))).bytes

def verify (hmac : Hmac) (signer : RequestSigner) (now : Nat) (payload : String)
    (timestamp : UInt64) (signature : String) : Bool :=
  if now - timestamp.toNat > 30 then false
  else constantTimeEq (sign hmac signer payload timestamp) signature

end RequestSigner

/-! The comparison. -/

/-- The collected XORs are zero only if the accumulator was, and no byte differs. -/
theorem foldl_xor_eq_zero {xs ys : List UInt8} (acc : UInt8) (length : xs.length = ys.length) :
    (xs.zip ys).foldl (fun acc p => acc ||| (p.1 ^^^ p.2)) acc = 0 ↔ acc = 0 ∧ xs = ys := by
  induction xs generalizing ys acc with
  | nil =>
    obtain rfl := List.eq_nil_of_length_eq_zero length.symm
    simp only [List.zip_nil_left, List.foldl_nil, and_true]
  | cons x xs ih =>
    cases ys with
    | nil => cases length
    | cons y ys =>
      rw [List.zip_cons_cons, List.foldl_cons, ih _ (Nat.succ.inj length),
        UInt8.or_eq_zero_iff, UInt8.xor_eq_zero_iff, List.cons.injEq, and_assoc]

theorem constantTimeEq_iff {a b : String} : constantTimeEq a b = true ↔ a = b := by
  unfold constantTimeEq
  split
  · rename_i sizes
    simp only [Bool.false_eq_true, false_iff]
    rintro rfl
    exact sizes rfl
  · rename_i sizes
    have length : (ofString a).length = (ofString b).length := by
      rw [length_ofString, length_ofString]
      exact not_not.mp sizes
    rw [decide_eq_true_eq, foldl_xor_eq_zero 0 length, and_iff_right rfl]
    exact ⟨ofString_inj, fun same => same ▸ rfl⟩

/-! What a signature covers. -/

namespace RequestSigner

variable {hmac : Hmac} {signer : RequestSigner} {payload payload' : String}
  {timestamp timestamp' : UInt64}

/-- The signature of the first request is none of the second, unless they are the same, and
is accepted for the second at no time. -/
def Covers (hmac : Hmac) (signer : RequestSigner) (payload payload' : String)
    (timestamp timestamp' : UInt64) : Prop :=
  (sign hmac signer payload timestamp = sign hmac signer payload' timestamp' →
    payload = payload' ∧ timestamp = timestamp') ∧
  ∀ now, verify hmac signer now payload' timestamp' (sign hmac signer payload timestamp) = true →
    payload = payload' ∧ timestamp = timestamp'

theorem verify_iff {now : Nat} {signature : String} :
    verify hmac signer now payload timestamp signature = true ↔
      now ≤ timestamp.toNat + 30 ∧ signature = sign hmac signer payload timestamp := by
  unfold verify
  split
  · rename_i old
    simp only [Bool.false_eq_true, false_iff, not_and]
    omega
  · rename_i recent
    rw [constantTimeEq_iff, and_iff_right (by omega), eq_comm]

theorem repr_inj {n m : UInt64} (same : n.toNat.repr = m.toNat.repr) : n = m := by
  have digits := congrArg String.toList same
  rw [Nat.toList_repr, Nat.toList_repr] at digits
  have values := congrArg (Nat.ofDigitChars 10 · 0) digits
  simp only [Nat.ofDigitChars_toDigits (by decide : 1 < 10) (Nat.le_refl 10)] at values
  exact UInt64.toNat_inj.mp values

theorem signedText_inj
    (same : signedText payload timestamp = signedText payload' timestamp')
    (digits : timestamp.toNat.repr.length = timestamp'.toNat.repr.length) :
    payload = payload' ∧ timestamp = timestamp' := by
  have chars := congrArg String.toList same
  simp only [signedText, String.toList_append] at chars
  rw [← String.length_toList, ← String.length_toList] at digits
  obtain ⟨payloads, timestamps⟩ := List.append_inj' chars digits
  exact ⟨String.toList_inj.mp payloads, repr_inj (String.toList_inj.mp timestamps)⟩

theorem signedText_of_sign
    (noCollision : hmac (ofString signer.secretKey) (ofString (signedText payload timestamp)) =
        hmac (ofString signer.secretKey) (ofString (signedText payload' timestamp')) →
      ofString (signedText payload timestamp) = ofString (signedText payload' timestamp'))
    (same : sign hmac signer payload timestamp = sign hmac signer payload' timestamp') :
    signedText payload timestamp = signedText payload' timestamp' :=
  ofString_inj (noCollision (Block.eq (Hex.encode_inj same)))

/-- A signature covers exactly its payload and timestamp if and only if the signed texts differ
or the two timestamps have the same number of digits. -/
theorem covers_iff (hmac : Hmac) (signer : RequestSigner) (payload payload' : String)
    (timestamp timestamp' : UInt64)
    (noCollision : hmac (ofString signer.secretKey) (ofString (signedText payload timestamp)) =
        hmac (ofString signer.secretKey) (ofString (signedText payload' timestamp')) →
      ofString (signedText payload timestamp) = ofString (signedText payload' timestamp')) :
    Covers hmac signer payload payload' timestamp timestamp' ↔
      signedText payload timestamp ≠ signedText payload' timestamp' ∨
        timestamp.toNat.repr.length = timestamp'.toNat.repr.length := by
  constructor
  · rintro ⟨covers, _⟩
    by_cases texts : signedText payload timestamp = signedText payload' timestamp'
    · have same : sign hmac signer payload timestamp = sign hmac signer payload' timestamp' := by
        rw [sign, sign, texts]
      right
      rw [(covers same).2]
    · exact .inl texts
  · intro condition
    have covers : sign hmac signer payload timestamp = sign hmac signer payload' timestamp' →
        payload = payload' ∧ timestamp = timestamp' := by
      intro same
      have texts := signedText_of_sign noCollision same
      rcases condition with differ | digits
      · exact absurd texts differ
      · exact signedText_inj texts digits
    exact ⟨covers, fun now accepted => covers (verify_iff.mp accepted).2⟩

/-! Requests accepted again later. -/

/-- A request accepted at one reading of the clock is refused more than 30 seconds later. -/
def NoReplay (hmac : Hmac) (signer : RequestSigner) (now : UInt64) (payload : String)
    (timestamp : UInt64) (signature : String) : Prop :=
  verify hmac signer now.toNat payload timestamp signature = true →
    ∀ later : UInt64, now.toNat + 30 < later.toNat →
      verify hmac signer later.toNat payload timestamp signature = false

/-- A request with a timestamp ahead of the clock is accepted until 30 seconds after that
timestamp, and so for longer than 30 seconds. -/
theorem noReplay_iff (hmac : Hmac) (signer : RequestSigner) (now : UInt64) (payload : String)
    (timestamp : UInt64) (signature : String) :
    NoReplay hmac signer now payload timestamp signature ↔
      signature ≠ sign hmac signer payload timestamp ∨ timestamp.toNat ≤ now.toNat ∨
        2 ^ 64 ≤ now.toNat + 31 := by
  constructor
  · intro refused
    by_contra ahead
    simp only [not_or, not_not, Nat.not_le] at ahead
    obtain ⟨signed, early, room⟩ := ahead
    have accepted : verify hmac signer now.toNat payload timestamp signature = true :=
      verify_iff.mpr ⟨by omega, signed⟩
    have later : (UInt64.ofNat (now.toNat + 31)).toNat = now.toNat + 31 :=
      UInt64.toNat_ofNat_of_lt' room
    have again : verify hmac signer (now.toNat + 31) payload timestamp signature = true :=
      verify_iff.mpr ⟨by omega, signed⟩
    have replayed := refused accepted (UInt64.ofNat (now.toNat + 31)) (by omega)
    rw [later, again] at replayed
    cases replayed
  · intro condition accepted later passes
    obtain ⟨_, signed⟩ := verify_iff.mp accepted
    have bound : later.toNat < 2 ^ 64 := later.toNat_lt
    rw [Bool.eq_false_iff, Ne, verify_iff]
    rintro ⟨recent, _⟩
    rcases condition with differs | current | last
    · exact differs signed
    · omega
    · omega

/-! Two heartbeats of one second and the next, and a payload that ends in a digit. -/

/-- HMAC-SHA256 under the key `secret`, of the two heartbeats. -/
def heartbeatHmac : Hmac := fun _ message =>
  if message = ofString (signedText "ping" 1700000000) then
    ⟨[0xfa, 0x88, 0x69, 0x34, 0x85, 0x3b, 0xeb, 0xd8, 0x03, 0x86, 0x97, 0x4f, 0x94, 0xda,
      0xec, 0x0c, 0x23, 0xe7, 0xf8, 0x5a, 0x4c, 0x38, 0x30, 0x00, 0x2c, 0xc8, 0x08, 0xa6,
      0xe3, 0x77, 0x35, 0xba], rfl⟩
  else
    ⟨[0x00, 0x19, 0x7e, 0xd9, 0x6a, 0x84, 0xc0, 0xcd, 0x26, 0xd3, 0xf4, 0x1e, 0xcb, 0x83,
      0xc0, 0xdb, 0x54, 0xab, 0x47, 0x1d, 0x99, 0x9c, 0xe4, 0x6b, 0x4c, 0xa2, 0x88, 0x2f,
      0xaf, 0x35, 0xbd, 0x44], rfl⟩

theorem heartbeats_covered :
    Covers heartbeatHmac ⟨"secret"⟩ "ping" "ping" 1700000000 1700000001 := by
  have other :
      ofString (signedText "ping" 1700000001) ≠ ofString (signedText "ping" 1700000000) := by
    intro same
    have requests := signedText_inj (ofString_inj same) (by decide)
    exact absurd requests.2 (by decide)
  refine (covers_iff heartbeatHmac ⟨"secret"⟩ "ping" "ping" 1700000000 1700000001 ?_).mpr
    (.inr (by decide))
  intro collides
  simp only [heartbeatHmac, if_true, if_neg other] at collides
  exact absurd collides (by decide)

/-- A heartbeat dated one second ahead. -/
theorem early_heartbeat_replayed : ¬ ∀ (hmac : Hmac) (signer : RequestSigner) (now : UInt64)
    (payload : String) (timestamp : UInt64) (signature : String),
    NoReplay hmac signer now payload timestamp signature := by
  intro refused
  have dated : (1700000001 : UInt64).toNat = 1700000001 := rfl
  have accepts (now : Nat) (early : now ≤ 1700000031) :
      verify heartbeatHmac ⟨"secret"⟩ now "ping" 1700000001
        (sign heartbeatHmac ⟨"secret"⟩ "ping" 1700000001) = true :=
    verify_iff.mpr ⟨by omega, rfl⟩
  have first : (1700000000 : UInt64).toNat = 1700000000 := rfl
  have second : (1700000031 : UInt64).toNat = 1700000031 := rfl
  have replayed := refused heartbeatHmac ⟨"secret"⟩ 1700000000 "ping" 1700000001 _
    (accepts _ (by omega)) 1700000031 (by omega)
  exact Bool.false_ne_true (replayed.symm.trans (accepts _ (by omega)))

def movedDigitHmac : Hmac := fun _ _ =>
  ⟨[0xcc, 0xb2, 0xfa, 0xe2, 0x6e, 0x0d, 0x8b, 0x0f, 0x2c, 0xa2, 0x37, 0xef, 0x6b, 0x21,
    0x84, 0x82, 0xe5, 0x53, 0x92, 0xab, 0x07, 0xb0, 0x2b, 0x60, 0x5a, 0x19, 0xbd, 0x32,
    0x3b, 0xfb, 0x7f, 0x43], rfl⟩

/-- A digit may stand at the end of the payload or at the front of the timestamp. -/
theorem moved_digit_not_covered :
    ¬ ∀ (hmac : Hmac) (signer : RequestSigner) (payload payload' : String)
      (timestamp timestamp' : UInt64),
      (hmac (ofString signer.secretKey) (ofString (signedText payload timestamp)) =
          hmac (ofString signer.secretKey) (ofString (signedText payload' timestamp')) →
        ofString (signedText payload timestamp) = ofString (signedText payload' timestamp')) →
      Covers hmac signer payload payload' timestamp timestamp' := by
  intro covers
  have texts : signedText "a1" 2 = signedText "a" 12 := by decide
  obtain ⟨covered, _⟩ := covers movedDigitHmac ⟨"secret"⟩ "a1" "a" 2 12 fun _ => by rw [texts]
  have same : sign movedDigitHmac ⟨"secret"⟩ "a1" 2 = sign movedDigitHmac ⟨"secret"⟩ "a" 12 := by
    rw [sign, sign, texts]
  exact absurd (covered same).1 (by decide)

end RequestSigner

end Solnet.Daemon
