import Mathlib.Tactic.Basic

/-! Bytes as pairs of hexadecimal digits: writing in lower case, reading in either case. -/
namespace Hex

def lowerDigits : List Char := "0123456789abcdef".toList

def digitValue (c : Char) : Option Nat :=
  if 48 ≤ c.toNat ∧ c.toNat ≤ 57 then some (c.toNat - 48)
  else if 97 ≤ c.toNat ∧ c.toNat ≤ 102 then some (c.toNat - 87)
  else if 65 ≤ c.toNat ∧ c.toNat ≤ 70 then some (c.toNat - 55)
  else none

def pair (b : UInt8) : List Char := [Nat.digitChar (b.toNat / 16), Nat.digitChar (b.toNat % 16)]

def encode (bytes : List UInt8) : String := String.ofList (bytes.flatMap pair)

def decodeDigits : List Char → Option (List UInt8)
  | [] => some []
  | [_] => none
  | hi :: lo :: rest => do
    let h ← digitValue hi
    let l ← digitValue lo
    let bytes ← decodeDigits rest
    return UInt8.ofNat (16 * h + l) :: bytes

def decode (text : String) : Option (List UInt8) := decodeDigits text.toList

@[simp] theorem length_encode (bytes : List UInt8) : (encode bytes).length = 2 * bytes.length := by
  induction bytes with
  | nil => rfl
  | cons b bytes ih =>
    simp only [encode, String.length_ofList, List.flatMap_cons, List.length_append, pair,
      List.length_cons, List.length_nil] at ih ⊢
    omega

theorem digitChar_lower {n : Nat} (small : n < 16) : Nat.digitChar n ∈ lowerDigits := by
  have all : ∀ n : Fin 16, Nat.digitChar n.val ∈ lowerDigits := by decide
  exact all ⟨n, small⟩

theorem encode_lower {bytes : List UInt8} {c : Char} (member : c ∈ (encode bytes).toList) :
    c ∈ lowerDigits := by
  rw [encode, String.toList_ofList] at member
  obtain ⟨b, _, written⟩ := List.mem_flatMap.mp member
  have bound : b.toNat < 256 := b.toNat_lt
  rw [pair, List.mem_cons, List.mem_singleton] at written
  rcases written with rfl | rfl
  · exact digitChar_lower (by omega)
  · exact digitChar_lower (Nat.mod_lt _ (by decide))

theorem digitValue_digitChar {n : Nat} (small : n < 16) :
    digitValue (Nat.digitChar n) = some n := by
  have all : ∀ n : Fin 16, digitValue (Nat.digitChar n.val) = some n.val := by decide
  exact all ⟨n, small⟩

theorem digitValue_lower {c : Char} (lower : c ∈ lowerDigits) :
    ∃ n < 16, digitValue c = some n ∧ Nat.digitChar n = c := by
  have digits : lowerDigits = (List.range 16).map Nat.digitChar := rfl
  rw [digits] at lower
  obtain ⟨n, member, rfl⟩ := List.mem_map.mp lower
  have small : n < 16 := List.mem_range.mp member
  exact ⟨n, small, digitValue_digitChar small, rfl⟩

theorem decodeDigits_flatMap (bytes : List UInt8) :
    decodeDigits (bytes.flatMap pair) = some bytes := by
  induction bytes with
  | nil => rfl
  | cons b bytes ih =>
    have bound : b.toNat < 256 := b.toNat_lt
    have high : b.toNat / 16 < 16 := by omega
    have low : b.toNat % 16 < 16 := Nat.mod_lt _ (by decide)
    have joined : 16 * (b.toNat / 16) + b.toNat % 16 = b.toNat := Nat.div_add_mod _ _
    rw [List.flatMap_cons, pair, List.cons_append, List.cons_append, List.nil_append, decodeDigits,
      digitValue_digitChar high, digitValue_digitChar low, ih]
    change some (UInt8.ofNat (16 * (b.toNat / 16) + b.toNat % 16) :: bytes) = _
    rw [joined, UInt8.ofNat_toNat]

theorem decode_encode (bytes : List UInt8) : decode (encode bytes) = some bytes := by
  rw [decode, encode, String.toList_ofList, decodeDigits_flatMap]

theorem encode_inj {a b : List UInt8} (same : encode a = encode b) : a = b := by
  have read := decode_encode a
  rw [same, decode_encode] at read
  exact (Option.some.inj read).symm

theorem decodeDigits_lower {n : Nat} {digits : List Char} (even : digits.length = 2 * n)
    (lower : ∀ c ∈ digits, c ∈ lowerDigits) :
    ∃ bytes, decodeDigits digits = some bytes ∧ bytes.length = n ∧
      bytes.flatMap pair = digits := by
  induction n generalizing digits with
  | zero =>
    obtain rfl := List.eq_nil_of_length_eq_zero even
    exact ⟨[], rfl, rfl, rfl⟩
  | succ n ih =>
    match digits with
    | [] => simp at even
    | [_] =>
      simp only [List.length_cons, List.length_nil] at even
      omega
    | hi :: lo :: rest =>
      simp only [List.length_cons] at even
      obtain ⟨h, hsmall, hvalue, hdigit⟩ := digitValue_lower (lower hi List.mem_cons_self)
      obtain ⟨l, lsmall, lvalue, ldigit⟩ :=
        digitValue_lower (lower lo (List.mem_cons_of_mem _ List.mem_cons_self))
      have half : rest.length = 2 * n := by omega
      obtain ⟨bytes, read, length, written⟩ := ih half
        fun c member => lower c (List.mem_cons_of_mem _ (List.mem_cons_of_mem _ member))
      have value : (UInt8.ofNat (16 * h + l)).toNat = 16 * h + l := by
        rw [UInt8.toNat_ofNat', Nat.mod_eq_of_lt]
        omega
      have high : (16 * h + l) / 16 = h := by omega
      have low : (16 * h + l) % 16 = l := by omega
      refine ⟨UInt8.ofNat (16 * h + l) :: bytes, ?_, ?_, ?_⟩
      · rw [decodeDigits, hvalue, lvalue, read]
        rfl
      · rw [List.length_cons, length]
      · rw [List.flatMap_cons, pair, value, high, low, hdigit, ldigit, written]
        rfl

theorem decode_lower {n : Nat} {text : String} (even : text.length = 2 * n)
    (lower : ∀ c ∈ text.toList, c ∈ lowerDigits) :
    ∃ bytes, decode text = some bytes ∧ bytes.length = n ∧ encode bytes = text := by
  obtain ⟨bytes, read, length, written⟩ :=
    decodeDigits_lower (even ▸ String.length_toList) lower
  refine ⟨bytes, read, length, ?_⟩
  rw [encode, written, String.ofList_toList]

end Hex
