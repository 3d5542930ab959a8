import Mathlib.Data.List.MinMax

/-! Choice by tiers: of the first tier that some item is in, an item with the least key. -/
namespace Tiers

variable {α β : Type*} [LinearOrder β]

/-- The first tier that some item is in. -/
def firstHeld (tiers : List (α → Bool)) (items : List α) : Option (α → Bool) :=
  tiers.find? items.any

def leastOf (key : α → β) (items : List α) (tier : α → Bool) : Option α :=
  (items.filter tier).argmin key

def choose (key : α → β) (tiers : List (α → Bool)) (items : List α) : Option α :=
  tiers.findSome? (leastOf key items)

/-- The item is in the tier, and its key is at most that of each item of the tier. -/
structure Least (key : α → β) (items : List α) (tier : α → Bool) (best : α) : Prop where
  mem : best ∈ items
  held : tier best = true
  le : ∀ item ∈ items, tier item = true → key best ≤ key item

variable {key : α → β} {tier : α → Bool} {tiers : List (α → Bool)} {items order : List α} {best : α}

theorem leastOf_none_iff : leastOf key items tier = none ↔ items.any tier = false := by
  rw [leastOf, List.argmin_eq_none, List.filter_eq_nil_iff, List.any_eq_false]

theorem least_of_leastOf (chosen : leastOf key items tier = some best) :
    Least key items tier best := by
  have mem : best ∈ items.filter tier := List.argmin_mem chosen
  obtain ⟨mem, held⟩ := List.mem_filter.mp mem
  refine ⟨mem, held, fun item member inTier => ?_⟩
  exact List.le_of_mem_argmin (List.mem_filter.mpr ⟨member, inTier⟩) chosen

theorem choose_none_iff :
    choose key tiers items = none ↔ ∀ tier ∈ tiers, ∀ item ∈ items, tier item = false := by
  rw [choose, List.findSome?_eq_none_iff]
  simp only [leastOf_none_iff, List.any_eq_false, Bool.not_eq_true]

theorem least_of_choose (chosen : choose key tiers items = some best) :
    ∃ tier, firstHeld tiers items = some tier ∧ Least key items tier best := by
  induction tiers with
  | nil => cases chosen
  | cons tier tiers ih =>
    rw [choose, List.findSome?_cons] at chosen
    cases here : leastOf key items tier with
    | some least =>
      rw [here] at chosen
      obtain rfl := Option.some.inj chosen
      have least := least_of_leastOf here
      have any : items.any tier = true := List.any_eq_true.mpr ⟨_, least.mem, least.held⟩
      exact ⟨tier, List.find?_cons_of_pos any, least⟩
    | none =>
      rw [here] at chosen
      have empty : ¬ items.any tier = true := Bool.eq_false_iff.mp (leastOf_none_iff.mp here)
      obtain ⟨tier', first, least⟩ := ih chosen
      exact ⟨tier', (List.find?_cons_of_neg empty).trans first, least⟩

theorem firstHeld_perm (perm : order.Perm items) : firstHeld tiers order = firstHeld tiers items :=
  congrArg (tiers.find? ·) (funext fun _ => perm.any_eq)

theorem Least.perm (perm : order.Perm items) (least : Least key order tier best) :
    Least key items tier best :=
  ⟨perm.mem_iff.mp least.mem, least.held,
    fun item member => least.le item (perm.mem_iff.mpr member)⟩

end Tiers
