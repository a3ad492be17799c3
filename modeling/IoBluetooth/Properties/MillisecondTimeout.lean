import IoBluetooth.Sys.Options
import Mathlib.Algebra.Order.Floor.Div
import Mathlib.Data.Nat.Basic
import Mathlib.GroupTheory.GroupAction.Ring

/-!
# Socket timeouts on Windows

Winsock keeps a timeout as a `u32` of milliseconds, where zero means none. A timeout is rounded
up to milliseconds, so that it never becomes zero and is never shortened below the maximum.
-/
namespace IoBluetooth.Windows

open Interaction Rust

/-- A duration in milliseconds, rounded up, as far as a `u32` goes. -/
def millis (d : Duration) : Nat := min (d.total ⌈/⌉ 1000000) (2 ^ 32 - 1)

theorem ceil_total (d : Duration) :
    d.total ⌈/⌉ 1000000 =
      d.asSecs * 1000 + d.subsecNanos / 1000000 + if d.subsecNanos % 1000000 > 0 then 1 else 0 := by
  rw [Nat.ceilDiv_eq_add_pred_div, Duration.total, Duration.asSecs, Duration.subsecNanos]
  split <;> omega

theorem dur2timeout_eq (d : Duration) : dur2timeout d = millis d := by
  rw [millis, ceil_total, dur2timeout]
  generalize d.asSecs = secs, d.subsecNanos / 1000000 = whole,
    (if d.subsecNanos % 1000000 > 0 then 1 else 0) = up
  -- an overflow anywhere is far beyond the greatest timeout
  by_cases product : secs * 1000 < 2 ^ 64
  · rw [checkedMul, if_pos product, Option.bind_some]
    by_cases sum : secs * 1000 + whole < 2 ^ 64
    · rw [checkedAdd, if_pos sum, Option.bind_some]
      by_cases rounded : secs * 1000 + whole + up < 2 ^ 64
      · rw [checkedAdd, if_pos rounded, Option.map_some, Option.getD_some]
        split
        · rw [min_eq_right (by omega)]
          rfl
        · rw [min_eq_left (by omega), asUnsigned]
          omega
      · rw [checkedAdd, if_neg rounded, min_eq_right (by omega)]
        rfl
    · rw [checkedAdd, if_neg sum, min_eq_right (by omega)]
      rfl
  · rw [checkedMul, if_neg product, min_eq_right (by omega)]
    rfl

theorem millis_mono {d d' : Duration} (shorter : d.total ≤ d'.total) : millis d ≤ millis d' := by
  simp only [millis, Nat.ceilDiv_eq_add_pred_div]
  omega

theorem millis_eq_zero_iff (d : Duration) : millis d = 0 ↔ d = .zero := by
  rw [← d.total_eq_zero_iff]
  simp only [millis, Nat.ceilDiv_eq_add_pred_div]
  omega

theorem millis_lt (d : Duration) : millis d < 2 ^ 32 := by
  simp only [millis]
  omega

/-- Up to the maximum a timeout is not shortened. -/
theorem total_le_millis (d : Duration) (short : d.total ≤ (2 ^ 32 - 1) * 1000000) :
    d.total ≤ millis d * 1000000 := by
  have ceil (n : Nat) : d.total ⌈/⌉ 1000000 ≤ n ↔ d.total ≤ 1000000 * n :=
    ceilDiv_le_iff_le_mul (by decide)
  have fits : d.total ⌈/⌉ 1000000 ≤ 2 ^ 32 - 1 := (ceil _).mpr (Nat.mul_comm _ _ ▸ short)
  rw [millis, min_eq_left fits, Nat.mul_comm]
  exact (ceil _).mp le_rfl

/-- Whole milliseconds come back as they are. -/
theorem millis_of_total (d : Duration) (raw : Nat) (fits : raw < 2 ^ 32)
    (same : d.total = raw * 1000000) : millis d = raw := by
  simp only [millis, Nat.ceilDiv_eq_add_pred_div, same]
  omega

/-! ### Setting and reading -/

def zeroMillis : IoError := .custom .invalidData "cannot set a 0 duration timeout"

variable (self : IoBluetooth.Socket) (kind : SockOpt) (o : Options .ulong)

theorem ensures_setTimeout (d : Duration) (Q : Except Exit Unit → Options .ulong → Prop) :
    Ensures (KeepsOptions .ulong) (Socket.setTimeout self (some d) kind).run o Q ↔
      if d = .zero then Q (.error (.err zeroMillis)) o
      else Q (.ok ()) (o.set self.raw kind (millis d)) := by
  simp only [Socket.setTimeout, dur2timeout_eq, millis_eq_zero_iff]
  by_cases zero : d = .zero
  · rw [if_pos zero, if_pos zero]
    exact Iff.rfl
  · rw [if_neg zero, if_neg zero, pure_bind]
    exact ensures_setsockopt self kind (millis d : Nat) o Q

theorem ensures_clearTimeout (Q : Except Exit Unit → Options .ulong → Prop) :
    Ensures (KeepsOptions .ulong) (Socket.setTimeout self none kind).run o Q ↔
      Q (.ok ()) (o.set self.raw kind (0 : Nat)) := by
  rw [Socket.setTimeout, pure_bind]
  exact ensures_setsockopt self kind (0 : Nat) o Q

/-- What the timeout of a socket reads as: none for zero, or so many milliseconds. -/
def Reads (raw : Nat) : Option Duration → Prop
  | none => raw = 0
  | some d => raw ≠ 0 ∧ d.total = raw * 1000000

/-- Neither the product nor `Duration::new` overflows. -/
theorem ensures_timeout (raw : Nat) (stored : o self.raw kind = raw) (bound : raw < 2 ^ 32) :
    Ensures (KeepsOptions .ulong) (Socket.timeout self kind).run o fun y o' =>
      o' = o ∧ ∃ dur, y = .ok dur ∧ Reads raw dur := by
  rw [Socket.timeout, ensures_run_bind, ensures_getsockopt, stored]
  dsimp only
  by_cases zero : raw = 0
  · -- zero stands for no timeout
    rw [if_pos zero, ensures_run_pure]
    exact ⟨rfl, none, rfl, zero⟩
  · have product : raw % 1000 * 1000000 < 2 ^ 32 := by omega
    have seconds : raw / 1000 + raw % 1000 * 1000000 / 1000000000 < 2 ^ 64 := by omega
    rw [if_neg zero, checkedMul, if_pos product, orPanic, pure_bind, Duration.new, dif_pos seconds,
      orPanic, pure_bind, ensures_run_pure]
    refine ⟨rfl, _, rfl, zero, ?_⟩
    simp only [Duration.total]
    omega

/-- A timeout that was set reads back rounded up to milliseconds, and a timeout that was read is
set again as it was. -/
theorem millisecond_timeouts (self : IoBluetooth.Socket) (kind : SockOpt) :
    (∀ d, dur2timeout d = min (d.total ⌈/⌉ 1000000) (2 ^ 32 - 1)) ∧
    (∀ d d', d.le d' = true → dur2timeout d ≤ dur2timeout d') ∧
    (∀ d, dur2timeout d = 0 ↔ d = .zero) ∧
    (∀ d o, Ensures (KeepsOptions .ulong) (Socket.setTimeout self (some d) kind).run o fun y o' =>
      ((∃ x, y = .error x) ↔ d = .zero) ∧ ((∃ x, y = .error x) → o' = o)) ∧
    (∀ d o, d ≠ .zero →
      Ensures (KeepsOptions .ulong)
        (do Socket.setTimeout self (some d) kind; Socket.timeout self kind : Sys _).run o fun y _ =>
          ∃ d', y = .ok (some d') ∧
            d'.total = min (d.total ⌈/⌉ 1000000) (2 ^ 32 - 1) * 1000000 ∧
            (d.total ≤ (2 ^ 32 - 1) * 1000000 → d.total ≤ d'.total)) ∧
    (∀ o, Ensures (KeepsOptions .ulong)
      (do Socket.setTimeout self none kind; Socket.timeout self kind : Sys _).run o fun y _ =>
        y = .ok none) ∧
    (∀ o : Options .ulong, (o self.raw kind : Nat) < 2 ^ 32 → Ensures (KeepsOptions .ulong)
      (do let dur ← Socket.timeout self kind; Socket.setTimeout self dur kind : Sys _).run o
        fun y o' => y = .ok () ∧ o' = o) := by
  refine ⟨dur2timeout_eq, ?_, ?_, ?_, ?_, ?_, ?_⟩
  · intro d d' shorter
    rw [dur2timeout_eq, dur2timeout_eq]
    exact millis_mono ((d.le_iff d').mp shorter)
  · intro d
    rw [dur2timeout_eq, millis_eq_zero_iff]
  · intro d o
    rw [ensures_setTimeout]
    by_cases zero : d = .zero
    · rw [if_pos zero]
      exact ⟨iff_of_true ⟨_, rfl⟩ zero, fun _ => rfl⟩
    · rw [if_neg zero]
      refine ⟨iff_of_false nofun zero, nofun⟩
  · intro d o positive
    rw [ensures_run_bind, ensures_setTimeout, if_neg positive]
    refine (ensures_timeout self kind _ (millis d) (by simp) (millis_lt d)).mono ?_
    rintro _ _ ⟨_, dur, rfl, reads⟩
    cases dur with
    | none =>
      rw [Reads, millis_eq_zero_iff] at reads
      exact absurd reads positive
    | some d' =>
      refine ⟨d', rfl, reads.2, fun short => ?_⟩
      rw [reads.2]
      exact total_le_millis d short
  · intro o
    rw [ensures_run_bind, ensures_clearTimeout]
    refine (ensures_timeout self kind _ 0 (by simp) (by decide)).mono ?_
    rintro _ _ ⟨_, dur, rfl, reads⟩
    cases dur with
    | none => rfl
    | some d' => exact absurd rfl reads.1
  · intro o fits
    rw [ensures_run_bind]
    refine (ensures_timeout self kind o _ rfl fits).mono ?_
    rintro _ o ⟨rfl, dur, rfl, reads⟩
    dsimp only
    cases dur with
    | none =>
      -- none is set again as zero
      rw [ensures_clearTimeout, ← (reads : o self.raw kind = (0 : Nat)), Options.set_same]
      exact ⟨rfl, rfl⟩
    | some d =>
      -- whole milliseconds are set again as they are
      have raw : millis d = o self.raw kind := millis_of_total d _ fits reads.2
      have positive : d ≠ .zero := by
        rw [Ne, ← d.total_eq_zero_iff, reads.2]
        exact Nat.mul_ne_zero reads.1 (by decide)
      rw [ensures_setTimeout, if_neg positive, raw, Options.set_same]
      exact ⟨rfl, rfl⟩

/-- A millisecond and a half. -/
def threeHalves : Duration := { Duration.zero with nanos := 1500000, nanos_lt := by decide }

theorem timeout_rounded_up :
    Ensures (KeepsOptions .ulong)
      (do Socket.setTimeout ⟨5⟩ (some threeHalves) .soRcvtimeo
          Socket.timeout ⟨5⟩ .soRcvtimeo : Sys _).run (fun _ _ => (0 : Nat)) fun y _ =>
        ∃ d', y = .ok (some d') ∧ d'.total = 2000000 := by
  have set := (millisecond_timeouts ⟨5⟩ .soRcvtimeo).2.2.2.2.1
  have two : min (threeHalves.total ⌈/⌉ 1000000) (2 ^ 32 - 1) * 1000000 = 2000000 := by
    rw [Nat.ceilDiv_eq_add_pred_div]
    rfl
  have positive : threeHalves ≠ .zero := by decide
  -- behind a variable, so that the program is not evaluated
  generalize threeHalves = d at two positive ⊢
  refine (set d (fun _ _ => (0 : Nat)) positive).mono ?_
  rintro y o ⟨d', read, total, _⟩
  exact ⟨d', read, total.trans two⟩

end IoBluetooth.Windows
