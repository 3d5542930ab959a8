import Mathlib.Tactic.Basic

/-! Base64 with the standard alphabet and padding. Reading is strict: the padding must be
there, and the bits that it leaves over must be zero. -/
namespace Base64

def alphabet : List Char :=
  "ABCDEFGHIJKLMNOPQRSTUVWXYZabcdefghijklmnopqrstuvwxyz0123456789+/".toList

def digit (n : Nat) : Char := alphabet.getD n '='

def digitValue (c : Char) : Option Nat :=
  if alphabet.idxOf c < 64 then some (alphabet.idxOf c) else none

def encodeBytes : List UInt8 → List Char
  | [] => []
  | [a] => [digit (a.toNat / 4), digit (a.toNat % 4 * 16), '=', '=']
  | [a, b] =>
    [digit (a.toNat / 4), digit (a.toNat % 4 * 16 + b.toNat / 16), digit (b.toNat % 16 * 4), '=']
  | a :: b :: c :: rest =>
    digit (a.toNat / 4) :: digit (a.toNat % 4 * 16 + b.toNat / 16) ::
      digit (b.toNat % 16 * 4 + c.toNat / 64) :: digit (c.toNat % 64) :: encodeBytes rest

def encode (bytes : List UInt8) : String := String.ofList (encodeBytes bytes)

def decodeLast (c₁ c₂ c₃ c₄ : Char) : Option (List UInt8) := do
  let n₁ ← digitValue c₁
  let n₂ ← digitValue c₂
  if c₄ = '=' then
    if c₃ = '=' then
      if n₂ % 16 = 0 then some [UInt8.ofNat (n₁ * 4 + n₂ / 16)] else none
    else
      let n₃ ← digitValue c₃
      if n₃ % 4 = 0 then
        some [UInt8.ofNat (n₁ * 4 + n₂ / 16), UInt8.ofNat (n₂ % 16 * 16 + n₃ / 4)]
      else none
  else
    let n₃ ← digitValue c₃
    let n₄ ← digitValue c₄
    some [UInt8.ofNat (n₁ * 4 + n₂ / 16), UInt8.ofNat (n₂ % 16 * 16 + n₃ / 4),
      UInt8.ofNat (n₃ % 4 * 64 + n₄)]

def decodeDigits : List Char → Option (List UInt8)
  | [] => some []
  | [c₁, c₂, c₃, c₄] => decodeLast c₁ c₂ c₃ c₄
  | c₁ :: c₂ :: c₃ :: c₄ :: rest => do
    let n₁ ← digitValue c₁
    let n₂ ← digitValue c₂
    let n₃ ← digitValue c₃
    let n₄ ← digitValue c₄
    let bytes ← decodeDigits rest
    return UInt8.ofNat (n₁ * 4 + n₂ / 16) :: UInt8.ofNat (n₂ % 16 * 16 + n₃ / 4) ::
      UInt8.ofNat (n₃ % 4 * 64 + n₄) :: bytes
  | _ => none

def decode (text : String) : Option (List UInt8) := decodeDigits text.toList

theorem digitValue_digit {n : Nat} (small : n < 64) : digitValue (digit n) = some n := by
  have all : ∀ n : Fin 64, digitValue (digit n.val) = some n.val := by decide +kernel
  exact all ⟨n, small⟩

theorem digit_ne_padding {n : Nat} (small : n < 64) : digit n ≠ '=' := by
  have all : ∀ n : Fin 64, digit n.val ≠ '=' := by decide +kernel
  exact all ⟨n, small⟩

theorem ofNat_eq {n : Nat} {b : UInt8} (same : n = b.toNat) : UInt8.ofNat n = b := by
  rw [same, UInt8.ofNat_toNat]

theorem decodeDigits_encodeBytes (bytes : List UInt8) :
    decodeDigits (encodeBytes bytes) = some bytes := by
  fun_induction encodeBytes bytes with
  | case1 => rfl
  | case2 a =>
    have bound := a.toNat_lt
    have first := digitValue_digit (n := a.toNat / 4) (by omega)
    have second := digitValue_digit (n := a.toNat % 4 * 16) (by omega)
    have whole : UInt8.ofNat (a.toNat / 4 * 4 + a.toNat % 4 * 16 / 16) = a := ofNat_eq (by omega)
    have zero : a.toNat % 4 * 16 % 16 = 0 := by omega
    simp only [decodeDigits, decodeLast, first, second, Option.bind_eq_bind, Option.bind_some,
      if_true, zero, whole]
  | case3 a b =>
    have bound := a.toNat_lt
    have bound' := b.toNat_lt
    have first := digitValue_digit (n := a.toNat / 4) (by omega)
    have second := digitValue_digit (n := a.toNat % 4 * 16 + b.toNat / 16) (by omega)
    have small : b.toNat % 16 * 4 < 64 := by omega
    have whole : UInt8.ofNat (a.toNat / 4 * 4 + (a.toNat % 4 * 16 + b.toNat / 16) / 16) = a :=
      ofNat_eq (by omega)
    have whole' : UInt8.ofNat ((a.toNat % 4 * 16 + b.toNat / 16) % 16 * 16 +
        b.toNat % 16 * 4 / 4) = b := ofNat_eq (by omega)
    have zero : b.toNat % 16 * 4 % 4 = 0 := by omega
    simp only [decodeDigits, decodeLast, first, second, digitValue_digit small,
      if_neg (digit_ne_padding small), Option.bind_eq_bind, Option.bind_some, if_true, zero, whole,
      whole']
  | case4 a b c rest ih =>
    have bound := a.toNat_lt
    have bound' := b.toNat_lt
    have bound'' := c.toNat_lt
    have first := digitValue_digit (n := a.toNat / 4) (by omega)
    have second := digitValue_digit (n := a.toNat % 4 * 16 + b.toNat / 16) (by omega)
    have third := digitValue_digit (n := b.toNat % 16 * 4 + c.toNat / 64) (by omega)
    have small : c.toNat % 64 < 64 := by omega
    have whole : UInt8.ofNat (a.toNat / 4 * 4 + (a.toNat % 4 * 16 + b.toNat / 16) / 16) = a :=
      ofNat_eq (by omega)
    have whole' : UInt8.ofNat ((a.toNat % 4 * 16 + b.toNat / 16) % 16 * 16 +
        (b.toNat % 16 * 4 + c.toNat / 64) / 4) = b := ofNat_eq (by omega)
    have whole'' : UInt8.ofNat ((b.toNat % 16 * 4 + c.toNat / 64) % 4 * 64 + c.toNat % 64) = c :=
      ofNat_eq (by omega)
    cases encoded : encodeBytes rest with
    | nil =>
      rw [encoded] at ih
      obtain rfl : [] = rest := Option.some.inj ih
      simp only [decodeDigits, decodeLast, first, second, third, digitValue_digit small,
        if_neg (digit_ne_padding small), Option.bind_eq_bind, Option.bind_some, whole, whole',
        whole'']
    | cons d digits =>
      rw [encoded] at ih
      simp only [decodeDigits, first, second, third, digitValue_digit small, ih,
        Option.bind_eq_bind, Option.bind_some, Option.pure_def, whole, whole', whole'']

theorem decode_encode (bytes : List UInt8) : decode (encode bytes) = some bytes := by
  rw [decode, encode, String.toList_ofList, decodeDigits_encodeBytes]

end Base64
