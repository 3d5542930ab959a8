import Mathlib.Data.List.TakeWhile
import Mathlib.Data.Nat.Digits.Lemmas

/-! Base58 with the Bitcoin alphabet: the bytes as one number, most significant first, and a
`1` for each zero byte that they begin with. -/
namespace Base58

def alphabet : List Char := "123456789ABCDEFGHJKLMNPQRSTUVWXYZabcdefghijkmnopqrstuvwxyz".toList

def digit (n : Nat) : Char := alphabet.getD n '1'

def significant (bytes : List UInt8) : List UInt8 := bytes.dropWhile (· = 0)

def value (bytes : List UInt8) : Nat := Nat.ofDigits 256 (bytes.reverse.map UInt8.toNat)

def digits (bytes : List UInt8) : List Char :=
  (Nat.digits 58 (value (significant bytes))).reverse.map digit

def encode (bytes : List UInt8) : String :=
  String.ofList (List.replicate (bytes.length - (significant bytes).length) '1' ++ digits bytes)

variable {a b bytes : List UInt8}

theorem idxOf_digit {n : Nat} (small : n < 58) : alphabet.idxOf (digit n) = n := by
  have all : ∀ n : Fin 58, alphabet.idxOf (digit n.val) = n.val := by decide
  exact all ⟨n, small⟩

theorem digit_ne_one {n : Nat} (small : n < 58) (nonzero : n ≠ 0) : digit n ≠ '1' := by
  intro one
  have index := idxOf_digit small
  rw [one] at index
  exact nonzero index.symm

theorem digit_mem (n : Nat) : digit n ∈ alphabet := by
  rw [digit, List.getD_eq_getElem?_getD]
  cases found : alphabet[n]? with
  | none => decide
  | some c => exact List.mem_of_getElem? found

theorem encode_alphabet {c : Char} (member : c ∈ (encode bytes).toList) : c ∈ alphabet := by
  rw [encode, String.toList_ofList, List.mem_append] at member
  rcases member with zero | digit
  · obtain rfl := List.eq_of_mem_replicate zero
    decide
  · obtain ⟨n, _, rfl⟩ := List.mem_map.mp digit
    exact digit_mem n

theorem significant_suffix (bytes : List UInt8) : significant bytes <:+ bytes :=
  List.dropWhile_suffix _

theorem zeros_append_significant (bytes : List UInt8) :
    bytes = List.replicate (bytes.length - (significant bytes).length) 0 ++ significant bytes := by
  have parts : bytes.takeWhile (· = 0) ++ significant bytes = bytes :=
    List.takeWhile_append_dropWhile
  have length := congrArg List.length parts
  rw [List.length_append] at length
  have zeros : bytes.takeWhile (· = 0) =
      List.replicate (bytes.length - (significant bytes).length) 0 :=
    List.eq_replicate_iff.mpr ⟨by omega, fun b member => by
      simpa using List.mem_takeWhile_imp member⟩
  rw [← zeros, parts]

theorem value_lt (bytes : List UInt8) : value bytes < 256 ^ bytes.length := by
  have bound := Nat.ofDigits_lt_base_pow_length (b := 256) (l := bytes.reverse.map UInt8.toNat)
    (by decide) fun d member => by
      obtain ⟨byte, _, rfl⟩ := List.mem_map.mp member
      exact byte.toNat_lt
  simpa only [value, List.length_map, List.length_reverse] using bound

/-- Three digits hold two bytes. -/
theorem pow_256_le (n : Nat) : 256 ^ n ≤ 58 ^ ((3 * n + 1) / 2) := by
  have squares : (256 ^ n) ^ 2 ≤ (58 ^ ((3 * n + 1) / 2)) ^ 2 := by
    calc (256 ^ n) ^ 2 = (256 ^ 2) ^ n := by rw [← pow_mul, ← pow_mul, Nat.mul_comm]
      _ ≤ (58 ^ 3) ^ n := Nat.pow_le_pow_left (by decide) n
      _ = 58 ^ (3 * n) := (pow_mul 58 3 n).symm
      _ ≤ 58 ^ ((3 * n + 1) / 2 * 2) := Nat.pow_le_pow_right (by decide) (by omega)
      _ = (58 ^ ((3 * n + 1) / 2)) ^ 2 := pow_mul 58 _ 2
  exact (Nat.pow_le_pow_iff_left (by decide)).mp squares

/-- What is written is no longer than three characters for every two bytes. -/
theorem length_encode_le (bytes : List UInt8) :
    (encode bytes).length ≤ (3 * bytes.length + 1) / 2 := by
  have small : value (significant bytes) < 58 ^ ((3 * (significant bytes).length + 1) / 2) :=
    (value_lt _).trans_le (pow_256_le _)
  have few : (Nat.digits 58 (value (significant bytes))).length ≤
      (3 * (significant bytes).length + 1) / 2 :=
    (Nat.digits_length_le_iff (by decide) _).mpr small
  have shorter := (significant_suffix bytes).length_le
  simp only [encode, digits, String.length_ofList, List.length_append, List.length_replicate,
    List.length_map, List.length_reverse]
  omega

theorem length_encode (bytes : List UInt8) : (encode bytes).length =
    bytes.length - (significant bytes).length +
      (Nat.digits 58 (value (significant bytes))).length := by
  simp only [encode, digits, String.length_ofList, List.length_append, List.length_replicate,
    List.length_map, List.length_reverse]

theorem significant_leads (bytes : List UInt8) (head : UInt8)
    (first : (significant bytes).head? = some head) : head ≠ 0 := by
  have leads := List.head?_dropWhile_not (fun byte : UInt8 => decide (byte = 0)) bytes
  rw [show bytes.dropWhile (fun byte => decide (byte = 0)) = significant bytes from rfl,
    first] at leads
  simpa using leads

theorem pow_le_value {head : UInt8} {rest : List UInt8} (leads : head ≠ 0) :
    256 ^ rest.length ≤ value (head :: rest) := by
  have nonzero : head.toNat ≠ 0 := fun zero => leads (UInt8.toNat_inj.mp zero)
  rw [value, List.reverse_cons, List.map_append, Nat.ofDigits_append, List.length_map,
    List.length_reverse]
  have one : 1 ≤ Nat.ofDigits 256 ([head].map UInt8.toNat) := by
    rw [List.map_singleton, Nat.ofDigits_singleton]
    exact Nat.pos_of_ne_zero nonzero
  calc 256 ^ rest.length = 256 ^ rest.length * 1 := (Nat.mul_one _).symm
    _ ≤ 256 ^ rest.length * Nat.ofDigits 256 ([head].map UInt8.toNat) := Nat.mul_le_mul_left _ one
    _ ≤ _ := Nat.le_add_left _ _

/-- A byte takes one character at least. -/
theorem length_le_encode (bytes : List UInt8) : bytes.length ≤ (encode bytes).length := by
  have shorter := (significant_suffix bytes).length_le
  have enough : (significant bytes).length ≤
      (Nat.digits 58 (value (significant bytes))).length := by
    cases kept : significant bytes with
    | nil => exact Nat.zero_le _
    | cons head rest =>
      have leads : head ≠ 0 := significant_leads bytes head (by rw [kept]; rfl)
      have large : 58 ^ rest.length ≤ value (head :: rest) :=
        (Nat.pow_le_pow_left (by decide) _).trans (pow_le_value leads)
      exact (Nat.lt_digits_length_iff (by decide) _).mpr large
  rw [length_encode]
  omega

/-- As many digits as the largest number of so many bytes has, and no more. -/
theorem length_encode_le_of_pow {m : Nat} (room : 256 ^ bytes.length ≤ 58 ^ m) :
    (encode bytes).length ≤ m := by
  have shorter := (significant_suffix bytes).length_le
  have few : bytes.length ≤ m := by
    have powers : 58 ^ bytes.length ≤ 58 ^ m :=
      (Nat.pow_le_pow_left (by decide) _).trans room
    exact (Nat.pow_le_pow_iff_right (by decide)).mp powers
  obtain ⟨zeros, split⟩ := Nat.exists_eq_add_of_le shorter
  obtain ⟨digits, total⟩ := Nat.exists_eq_add_of_le (show zeros ≤ m by omega)
  have small : value (significant bytes) < 58 ^ digits := by
    refine (value_lt _).trans_le ?_
    have scaled : 58 ^ zeros * 256 ^ (significant bytes).length ≤ 58 ^ zeros * 58 ^ digits := by
      calc 58 ^ zeros * 256 ^ (significant bytes).length
          ≤ 256 ^ zeros * 256 ^ (significant bytes).length :=
            Nat.mul_le_mul_right _ (Nat.pow_le_pow_left (by decide) _)
        _ = 256 ^ bytes.length := by rw [← pow_add, split, Nat.add_comm]
        _ ≤ 58 ^ m := room
        _ = 58 ^ zeros * 58 ^ digits := by rw [total, pow_add]
    exact Nat.le_of_mul_le_mul_left scaled (Nat.pow_pos (by decide))
  have length := (Nat.digits_length_le_iff (by decide) _).mpr small
  rw [length_encode]
  omega

/-! Different bytes are written differently. -/

/-- A number is read back when its first byte is not zero. -/
theorem digits_value (leads : ∀ head, bytes.head? = some head → head ≠ 0) :
    Nat.digits 256 (value bytes) = bytes.reverse.map UInt8.toNat := by
  refine Nat.digits_ofDigits 256 (by decide) _ (fun d member => ?_) fun nonempty => ?_
  · obtain ⟨byte, _, rfl⟩ := List.mem_map.mp member
    exact byte.toNat_lt
  · cases bytes with
    | nil => exact absurd rfl nonempty
    | cons head rest =>
      simp only [List.reverse_cons, List.map_append, List.map_cons, List.map_nil,
        List.getLast_append_singleton]
      exact fun zero => leads head rfl (UInt8.toNat_inj.mp zero)

theorem value_inj (leads : ∀ head, a.head? = some head → head ≠ 0)
    (leads' : ∀ head, b.head? = some head → head ≠ 0) (same : value a = value b) : a = b := by
  have digits : a.reverse.map UInt8.toNat = b.reverse.map UInt8.toNat := by
    rw [← digits_value leads, ← digits_value leads', same]
  exact List.reverse_inj.mp (List.map_injective_iff.mpr (fun _ _ => UInt8.toNat_inj.mp) digits)

theorem digits_leads (bytes : List UInt8) : (digits bytes).head? ≠ some '1' := by
  rw [digits, List.head?_map, List.head?_reverse]
  intro one
  obtain ⟨d, last, one⟩ := Option.map_eq_some_iff.mp one
  have member := List.mem_of_getLast? last
  have nonzero : value (significant bytes) ≠ 0 := by
    intro zero
    rw [zero, Nat.digits_zero] at member
    exact absurd member List.not_mem_nil
  have leads := Nat.getLast_digit_ne_zero 58 nonzero
  rw [List.getLast_eq_iff_getLast?_eq_some _ |>.mpr last] at leads
  exact digit_ne_one (Nat.digits_lt_base (by decide) member) leads one

theorem digits_inj (same : digits a = digits b) : significant a = significant b := by
  have read : ∀ n, ((Nat.digits 58 n).reverse.map digit).map (alphabet.idxOf ·) =
      (Nat.digits 58 n).reverse := by
    intro n
    rw [List.map_map]
    refine (List.map_congr_left fun d member => ?_).trans (List.map_id _)
    exact idxOf_digit (Nat.digits_lt_base (by decide) (List.mem_reverse.mp member))
  have numbers : (Nat.digits 58 (value (significant a))).reverse =
      (Nat.digits 58 (value (significant b))).reverse :=
    (read _).symm.trans ((congrArg (List.map _) same).trans (read _))
  exact value_inj (significant_leads a) (significant_leads b)
    (Nat.digits_inj_iff.mp (List.reverse_inj.mp numbers))

theorem replicate_append_inj {c : Char} {n m : Nat} {l r : List Char} (leads : l.head? ≠ some c)
    (leads' : r.head? ≠ some c)
    (same : List.replicate n c ++ l = List.replicate m c ++ r) : n = m ∧ l = r := by
  induction n generalizing m with
  | zero =>
    cases m with
    | zero => exact ⟨rfl, same⟩
    | succ m =>
      obtain rfl : l = c :: (List.replicate m c ++ r) := same
      exact absurd rfl leads
  | succ n ih =>
    cases m with
    | zero =>
      obtain rfl : c :: (List.replicate n c ++ l) = r := same
      exact absurd rfl leads'
    | succ m =>
      obtain ⟨rfl, rfl⟩ := ih (List.cons.inj same).2
      exact ⟨rfl, rfl⟩

theorem encode_inj (same : encode a = encode b) : a = b := by
  obtain ⟨zeros, written⟩ := replicate_append_inj (digits_leads a) (digits_leads b)
    (String.ofList_inj.mp same)
  rw [zeros_append_significant a, zeros_append_significant b, zeros, digits_inj written]

end Base58
