import Mathlib.Order.MinMax

/-!
# Waiting in slices

A wait for a time that is counted finely, by means of a timer that counts in a coarser unit and
no further than a cap. Every slice is at least one unit long, so the last one may overshoot.
-/
namespace Countdown

variable (unit cap : Nat)

/-- The slice to wait for when `rest` is left, in units. -/
def slice (rest : Nat) : Nat := min (max 1 (rest / unit)) cap

/-- How many slices suffice when `rest` is left: the full ones, one for the whole units that
remain, and one for the last part of a unit. -/
def budget (rest : Nat) : Nat :=
  if rest = 0 then 0 else if rest < unit then 1 else rest / unit / cap + 2

variable {unit cap} {rest rest' : Nat}

theorem slice_pos (capped : 0 < cap) : 1 ≤ slice unit cap rest := by
  rw [slice, le_min_iff]
  exact ⟨le_max_left 1 _, capped⟩

theorem slice_le_cap : slice unit cap rest ≤ cap := min_le_right _ _

theorem slice_le_rest : slice unit cap rest ≤ max 1 (rest / unit) := min_le_left _ _

/-- A slice overshoots what is left by less than one unit. -/
theorem slice_mul_le : slice unit cap rest * unit ≤ max unit rest := by
  have whole := Nat.div_mul_le_self rest unit
  calc slice unit cap rest * unit
      ≤ max 1 (rest / unit) * unit := Nat.mul_le_mul_right unit slice_le_rest
    _ = max unit (rest / unit * unit) := by rw [← Nat.mul_max_mul_right, Nat.one_mul]
    _ ≤ max unit rest := max_le_max (le_refl unit) whole

theorem budget_le : budget unit cap rest ≤ rest / unit / cap + 2 := by
  unfold budget
  generalize rest / unit / cap = slices
  split_ifs <;> omega

theorem budget_mono (less : rest' ≤ rest) : budget unit cap rest' ≤ budget unit cap rest := by
  have units : rest' / unit / cap ≤ rest / unit / cap :=
    Nat.div_le_div_right (Nat.div_le_div_right less)
  unfold budget
  generalize rest / unit / cap = slices at *
  generalize rest' / unit / cap = slices' at *
  split_ifs <;> omega

/-- A slice that was waited for is taken off the budget. -/
theorem budget_lt (counted : 0 < unit) (capped : 0 < cap) (some : rest ≠ 0)
    (waited : rest' ≤ rest - slice unit cap rest * unit) :
    budget unit cap rest' < budget unit cap rest := by
  by_cases part : rest < unit
  · -- less than a unit is left: the slice of one unit ends the wait
    have units : slice unit cap rest = 1 := by
      rw [slice, Nat.div_eq_of_lt part]
      omega
    have ended : rest' = 0 := by
      rw [units] at waited
      omega
    simp only [budget, ended, if_true, if_neg some, if_pos part, Nat.zero_lt_one]
  · have budgeted : budget unit cap rest = rest / unit / cap + 2 := by
      rw [budget, if_neg some, if_neg part]
    have one : 1 ≤ rest / unit := (Nat.one_le_div_iff counted).mpr (by omega)
    by_cases last : rest / unit < cap
    · -- all whole units fit into the slice
      have units : slice unit cap rest = rest / unit := by
        rw [slice]
        omega
      have left : rest' < unit := by
        have below := Nat.mod_lt rest counted
        have split := Nat.div_add_mod' rest unit
        rw [units] at waited
        omega
      have most : budget unit cap rest' ≤ 1 := by
        rw [budget, if_pos left]
        split_ifs <;> omega
      calc budget unit cap rest' ≤ 1 := most
        _ < rest / unit / cap + 2 := Nat.lt_add_left _ Nat.one_lt_two
        _ = budget unit cap rest := budgeted.symm
    · -- the slice is a full one
      have units : slice unit cap rest = cap := by
        rw [slice]
        omega
      rw [units] at waited
      have left : rest' / unit ≤ rest / unit - cap := by
        calc rest' / unit ≤ (rest - unit * cap) / unit := by
              rw [Nat.mul_comm unit cap]
              exact Nat.div_le_div_right waited
          _ = rest / unit - cap := Nat.sub_mul_div ..
      have slices : rest' / unit / cap + 1 ≤ rest / unit / cap := by
        have full : 1 ≤ rest / unit / cap := (Nat.one_le_div_iff capped).mpr (by omega)
        calc rest' / unit / cap + 1 ≤ (rest / unit - cap * 1) / cap + 1 := by
              rw [Nat.mul_one]
              exact Nat.add_le_add_right (Nat.div_le_div_right left) 1
          _ = rest / unit / cap - 1 + 1 := by rw [Nat.sub_mul_div]
          _ = rest / unit / cap := Nat.sub_add_cancel full
      have most := @budget_le unit cap rest'
      omega

end Countdown
