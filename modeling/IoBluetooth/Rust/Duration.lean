import Mathlib.Algebra.Group.Nat.Defs
import Mathlib.Algebra.Ring.Int.Defs

/-!
# Durations and machine integers

`std::time::Duration` and the integer operations of the standard library.
-/
namespace Rust

/-- Whole seconds in a `u64` and nanoseconds below one second in a `u32`. -/
structure Duration where
  secs : Nat
  nanos : Nat
  secs_lt : secs < 2 ^ 64
  nanos_lt : nanos < 1000000000
  deriving DecidableEq

/-! ### Integers -/

/-- `as` into a signed integer of `w` bits wraps. -/
def asSigned (w : Nat) (x : Int) : Int := x.bmod (2 ^ w)

theorem asSigned_of_fits (w : Nat) (x : Int) (low : -(2 ^ w) ≤ x) (high : x < 2 ^ w) :
    asSigned (w + 1) x = x := by
  rw [asSigned]
  apply Int.bmod_eq_of_le_mul_two
  all_goals push_cast
  all_goals rw [Int.pow_succ]
  all_goals omega

/-- `as` into an unsigned integer of `w` bits wraps. -/
def asUnsigned (w : Nat) (x : Int) : Nat := (x % 2 ^ w).toNat

def saturatingMul (w a b : Nat) : Nat := min (a * b) (2 ^ w - 1)

def saturatingAdd (w a b : Nat) : Nat := min (a + b) (2 ^ w - 1)

def checkedMul (w a b : Nat) : Option Nat := if a * b < 2 ^ w then some (a * b) else none

def checkedAdd (w a b : Nat) : Option Nat := if a + b < 2 ^ w then some (a + b) else none

namespace Duration

/-- `Duration::new`, which panics where the seconds overflow. -/
def new (secs nanos : Nat) : Option Duration :=
  let secs := secs + nanos / 1000000000
  if h : secs < 2 ^ 64 then some ⟨secs, nanos % 1000000000, h, Nat.mod_lt _ (by decide)⟩ else none

theorem new_parts (d : Duration) : new d.secs d.nanos = some d := by
  have whole : d.secs + d.nanos / 1000000000 = d.secs := by
    rw [Nat.div_eq_of_lt d.nanos_lt, Nat.add_zero]
  simp only [new, whole, d.secs_lt, dif_pos, Nat.mod_eq_of_lt d.nanos_lt]

def zero : Duration := ⟨0, 0, by decide, by decide⟩
def second : Duration := ⟨1, 0, by decide, by decide⟩

def asSecs (d : Duration) : Nat := d.secs
def subsecNanos (d : Duration) : Nat := d.nanos
def subsecMicros (d : Duration) : Nat := d.nanos / 1000

/-- The length of a duration, in nanoseconds. -/
def total (d : Duration) : Nat := d.secs * 1000000000 + d.nanos

theorem total_eq_zero_iff (d : Duration) : d.total = 0 ↔ d = zero := by
  constructor
  · intro h
    obtain ⟨secs, nanos, _, _⟩ := d
    simp only [total] at h
    obtain rfl : secs = 0 := by omega
    obtain rfl : nanos = 0 := by omega
    rfl
  · rintro rfl
    rfl

/-- The derived order compares seconds first. -/
def le (a b : Duration) : Bool := a.secs < b.secs || (a.secs == b.secs && a.nanos ≤ b.nanos)

theorem le_iff (a b : Duration) : a.le b = true ↔ a.total ≤ b.total := by
  have ha := a.nanos_lt
  have hb := b.nanos_lt
  simp only [le, total, Bool.or_eq_true, Bool.and_eq_true, decide_eq_true_eq, beq_iff_eq]
  omega

theorem isZero_iff (d : Duration) : (d.asSecs = 0 ∧ d.subsecNanos = 0) ↔ d.total = 0 := by
  simp only [asSecs, subsecNanos, total]
  omega

/-- `checked_sub`, borrowing a second where the nanoseconds need one. -/
def checkedSub (a b : Duration) : Option Duration :=
  if b.secs ≤ a.secs then
    if h : b.nanos ≤ a.nanos then
      some ⟨a.secs - b.secs, a.nanos - b.nanos, by have := a.secs_lt; omega,
        by have := a.nanos_lt; omega⟩
    else if 1 ≤ a.secs - b.secs then
      some ⟨a.secs - b.secs - 1, a.nanos + 1000000000 - b.nanos, by have := a.secs_lt; omega,
        by have := a.nanos_lt; omega⟩
    else none
  else none

theorem checkedSub_of_le (a b : Duration) (h : b.total ≤ a.total) :
    ∃ d, a.checkedSub b = some d ∧ d.total = a.total - b.total := by
  have ha := a.nanos_lt
  have hb := b.nanos_lt
  simp only [total] at h
  simp only [checkedSub]
  rw [if_pos (by omega)]
  by_cases borrow : b.nanos ≤ a.nanos
  · rw [dif_pos borrow]
    exact ⟨_, rfl, by simp only [total]; omega⟩
  · rw [dif_neg borrow, if_pos (by omega)]
    exact ⟨_, rfl, by simp only [total]; omega⟩

end Duration
end Rust
