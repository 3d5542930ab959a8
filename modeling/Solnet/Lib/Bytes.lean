import Mathlib.Algebra.Ring.Nat
import Mathlib.Tactic.Basic

/-! Byte strings: the bytes of a text, integers in little-endian order, and arrays of a
fixed size. -/
namespace Bytes

def ofString (text : String) : List UInt8 := text.toUTF8.data.toList

/-- The lowest `size` bytes of a number, the least significant one first. -/
def le : Nat → Nat → List UInt8
  | 0, _ => []
  | size + 1, n => UInt8.ofNat n :: le size (n / 256)

/-- All bits in which two byte strings differ, gathered without a branch. -/
def diff (a b : List UInt8) : UInt8 :=
  (a.zip b).foldl (fun diff ab => diff ||| (ab.1 ^^^ ab.2)) 0

structure Block (size : Nat) where
  bytes : List UInt8
  full : bytes.length = size
  deriving DecidableEq, Repr

def Block.fill (size : Nat) (byte : UInt8) : Block size :=
  ⟨List.replicate size byte, List.length_replicate⟩

def Block.zero (size : Nat) : Block size := .fill size 0

theorem Block.eq {size : Nat} {a b : Block size} (same : a.bytes = b.bytes) : a = b := by
  cases a
  cases b
  cases same
  rfl

theorem gathered_eq_zero_iff {pairs : List (UInt8 × UInt8)} {start : UInt8} :
    pairs.foldl (fun diff ab => diff ||| (ab.1 ^^^ ab.2)) start = 0 ↔
      start = 0 ∧ ∀ ab ∈ pairs, ab.1 = ab.2 := by
  induction pairs generalizing start with
  | nil => simp
  | cons ab pairs ih =>
    rw [List.foldl_cons, ih, UInt8.or_eq_zero_iff, UInt8.xor_eq_zero_iff, and_assoc,
      List.forall_mem_cons]

theorem diff_eq_zero_iff {a b : List UInt8} (length : a.length = b.length) :
    diff a b = 0 ↔ a = b := by
  rw [diff, gathered_eq_zero_iff, and_iff_right rfl]
  induction a generalizing b with
  | nil =>
    obtain rfl := List.eq_nil_of_length_eq_zero length.symm
    simp
  | cons x a ih =>
    cases b with
    | nil => cases length
    | cons y b =>
      rw [List.zip_cons_cons, List.forall_mem_cons, ih (Nat.succ.inj length), List.cons.injEq]

theorem ofString_inj {s t : String} (same : ofString s = ofString t) : s = t := by
  have arrays : s.toUTF8.data = t.toUTF8.data := Array.toList_inj.mp same
  have bytes : s.toUTF8 = t.toUTF8 := ByteArray.ext arrays
  exact String.toByteArray_inj.mp bytes

theorem length_ofString (text : String) : (ofString text).length = text.utf8ByteSize := by
  rfl

theorem length_le_utf8Encode (chars : List Char) : chars.length ≤ chars.utf8Encode.size := by
  induction chars with
  | nil => exact Nat.zero_le _
  | cons c chars ih =>
    have one := c.utf8Size_pos
    rw [List.utf8Encode_cons, ByteArray.size_append, List.utf8Encode_singleton,
      List.size_toByteArray, String.length_utf8EncodeChar, List.length_cons]
    omega

theorem length_le_ofString (text : String) : text.length ≤ (ofString text).length := by
  have chars := length_le_utf8Encode text.toList
  rwa [String.utf8Encode_toList, String.length_toList] at chars

theorem utf8ByteSize_ascii {text : String} (ascii : ∀ c ∈ text.toList, c.toNat < 128) :
    text.utf8ByteSize = text.length := by
  have size (chars : List Char) (ascii : ∀ c ∈ chars, c.toNat < 128) :
      chars.utf8Encode.size = chars.length := by
    induction chars with
    | nil => rfl
    | cons c chars ih =>
      have low : c.toNat < 128 := ascii c List.mem_cons_self
      have one : c.utf8Size = 1 := Char.utf8Size_eq_one_iff.mpr (UInt32.le_iff_toNat_le.mpr
        (Nat.le_of_lt_succ low))
      rw [List.utf8Encode_cons, ByteArray.size_append, List.utf8Encode_singleton,
        List.size_toByteArray, String.length_utf8EncodeChar, List.length_cons,
        ih fun c' member => ascii c' (List.mem_cons_of_mem c member)]
      omega
  have encoded := size text.toList ascii
  rwa [String.utf8Encode_toList, String.length_toList] at encoded

theorem length_le (size n : Nat) : (le size n).length = size := by
  induction size generalizing n with
  | zero => rfl
  | succ size ih => rw [le, List.length_cons, ih]

theorem le_inj {size n m : Nat} (small : n < 256 ^ size) (small' : m < 256 ^ size)
    (same : le size n = le size m) : n = m := by
  induction size generalizing n m with
  | zero => omega
  | succ size ih =>
    obtain ⟨first, rest⟩ := List.cons.inj same
    have low : n % 256 = m % 256 := by
      have values := congrArg UInt8.toNat first
      rwa [UInt8.toNat_ofNat', UInt8.toNat_ofNat'] at values
    have high : n / 256 = m / 256 := by
      rw [Nat.pow_succ] at small small'
      exact ih (Nat.div_lt_of_lt_mul (by omega)) (Nat.div_lt_of_lt_mul (by omega)) rest
    omega

theorem le64_inj {n m : UInt64} (same : le 8 n.toNat = le 8 m.toNat) : n = m :=
  UInt64.toNat_inj.mp (le_inj n.toNat_lt m.toNat_lt same)

end Bytes
