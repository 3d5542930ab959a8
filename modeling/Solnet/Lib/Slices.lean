/-! Slices of a text by bytes. A slice ends between two characters, or there is none. -/
namespace Slices

def byteSize : List Char → Nat
  | [] => 0
  | c :: chars => c.utf8Size + byteSize chars

/-- The characters that make up the first `n` bytes, unless these end inside a character. -/
def firstBytes : Nat → List Char → Option (List Char)
  | 0, _ => some []
  | _ + 1, [] => none
  | n + 1, c :: rest =>
    if c.utf8Size ≤ n + 1 then (firstBytes (n + 1 - c.utf8Size) rest).map (c :: ·) else none

variable {n : Nat} {c : Char} {chars text : List Char}

theorem byteSize_cons : byteSize (c :: chars) = c.utf8Size + byteSize chars := rfl

theorem nil_of_byteSize (empty : byteSize chars = 0) : chars = [] := by
  cases chars with
  | nil => rfl
  | cons c chars =>
    rw [byteSize_cons] at empty
    have size : 0 < c.utf8Size := c.utf8Size_pos
    omega

theorem firstBytes_some_iff :
    firstBytes n text = some chars ↔ chars <+: text ∧ byteSize chars = n := by
  fun_induction firstBytes n text generalizing chars with
  | case1 text =>
    constructor
    · intro slice
      obtain rfl := Option.some.inj slice
      exact ⟨List.nil_prefix, rfl⟩
    · rintro ⟨_, empty⟩
      rw [nil_of_byteSize empty]
  | case2 n =>
    constructor
    · nofun
    · rintro ⟨start, size⟩
      rw [List.prefix_nil.mp start] at size
      cases size
  | case3 n c rest fits ih =>
    rw [Option.map_eq_some_iff]
    constructor
    · rintro ⟨chars, slice, rfl⟩
      obtain ⟨start, size⟩ := ih.mp slice
      refine ⟨List.prefix_cons_inj c |>.mpr start, ?_⟩
      rw [byteSize_cons]
      omega
    · rintro ⟨start, size⟩
      cases chars with
      | nil => cases size
      | cons first chars =>
        obtain ⟨rfl, later⟩ := List.cons_prefix_cons.mp start
        rw [byteSize_cons] at size
        exact ⟨chars, ih.mpr ⟨later, by omega⟩, rfl⟩
  | case4 n c rest long =>
    constructor
    · nofun
    · rintro ⟨start, size⟩
      cases chars with
      | nil => cases size
      | cons first chars =>
        obtain ⟨rfl, _⟩ := List.cons_prefix_cons.mp start
        rw [byteSize_cons] at size
        omega

end Slices
