import Mathlib.Logic.Function.Basic
import Solnet.Lib.Table

/-! Tables whose values stand for some time, next to the latest value that was put under
each key. A table holds what it should when every latest value that still stands is stored;
erasing a key breaks this exactly when the stored value still stands. -/
namespace Expiring

variable {K V E : Type} [DecidableEq K]

/-- Once a value does not stand, it never stands again. -/
def Lapses (stands : V → Nat → Bool) : Prop :=
  ∀ v now later, now ≤ later → stands v later = true → stands v now = true

/-- What is stored under a key is the latest value put there. -/
def Current (latest : K → Option V) (t : Table K V) : Prop :=
  ∀ k v, t.lookup k = some v → latest k = some v

def Held (stands : V → Nat → Bool) (latest : K → Option V) (t : Table K V) (clock : Nat) : Prop :=
  ∀ k v, latest k = some v → stands v clock = true → t.lookup k = some v

variable {stands : V → Nat → Bool} {latest : K → Option V} {t t' : Table K V} {clock now : Nat}
  {a : K} {b : V}

theorem Current.insert (current : Current latest t) :
    Current (Function.update latest a (some b)) (t.insert a b) := by
  intro k v found
  rw [Table.lookup_insert] at found
  by_cases same : k = a
  · subst same
    rw [if_pos rfl] at found
    rw [Function.update_self, found]
  · rw [if_neg same] at found
    rw [Function.update_of_ne same]
    exact current k v found

theorem Current.erase (current : Current latest t) : Current latest (t.erase a) := by
  intro k v found
  rw [Table.lookup_erase] at found
  by_cases same : k = a
  · rw [if_pos same] at found
    cases found
  · rw [if_neg same] at found
    exact current k v found

theorem Current.visit {keep : K → V → Except E Bool} (current : Current latest t)
    (ok : Table.visit keep t a = .ok t') : Current latest t' :=
  fun k v found => current k v ((Table.lookup_visit_iff ok).mp found).1

theorem Held.later {later : Nat} (lapses : Lapses stands) (held : Held stands latest t clock)
    (passes : clock ≤ later) : Held stands latest t later :=
  fun k v put standing => held k v put (lapses v clock later passes standing)

theorem Held.insert (held : Held stands latest t clock) :
    Held stands (Function.update latest a (some b)) (t.insert a b) clock := by
  intro k v put standing
  rw [Table.lookup_insert]
  by_cases same : k = a
  · subst same
    rw [Function.update_self] at put
    rw [if_pos rfl, put]
  · rw [Function.update_of_ne same] at put
    rw [if_neg same]
    exact held k v put standing

theorem held_erase_iff (current : Current latest t) (held : Held stands latest t clock) :
    Held stands latest (t.erase a) clock ↔ ∀ v, t.lookup a = some v → stands v clock = false := by
  constructor
  · intro kept v found
    by_contra standing
    have stored := kept a v (current a v found) (by simpa using standing)
    rw [Table.lookup_erase, if_pos rfl] at stored
    cases stored
  · intro lapsed k v put standing
    have stored : t.lookup k = some v := held k v put standing
    rw [Table.lookup_erase]
    by_cases same : k = a
    · subst same
      rw [lapsed v stored] at standing
      cases standing
    · rw [if_neg same]
      exact stored

/-- A visit that removes what did not stand at some earlier reading of the clock. -/
theorem Held.visit (lapses : Lapses stands) (held : Held stands latest t clock)
    (earlier : now ≤ clock)
    (ok : Table.visit (fun _ v => (.ok (stands v now) : Except E Bool)) t a = .ok t') :
    Held stands latest t' clock := by
  intro k v put standing
  refine (Table.lookup_visit_iff ok).mpr ⟨held k v put standing, fun _ => ?_⟩
  rw [lapses v now clock earlier standing]

end Expiring
