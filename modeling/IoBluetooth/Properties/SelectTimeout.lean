import IoBluetooth.Sys.Calls
import IoBluetooth.Sys.Waits

/-!
# The time that `select` is given

On Windows `connect_timeout` narrows the seconds of its timeout to a `c_long` of 32 bits, so
that from `2 ^ 31` seconds on they wrap around. `set_timeout` of the Unix module clamps them.
-/
namespace IoBluetooth

open Interaction Memory Rust

namespace Timeval

/-- The length of a `timeval`, in nanoseconds. -/
def total (tv : Timeval) : Int := tv.tvSec * 1000000000 + tv.tvUsec * 1000

/-- The greatest `timeval` whose seconds have 32 bits. -/
def greatest : Timeval := ⟨2 ^ 31 - 1, 999999⟩

/-- `tv` is a proper `timeval` for a wait of `timeout`, rounded by less than a microsecond. -/
structure Denotes (tv : Timeval) (timeout : Duration) : Prop where
  sec_nonneg : 0 ≤ tv.tvSec
  usec_nonneg : 0 ≤ tv.tvUsec
  usec_lt : tv.tvUsec < 1000000
  nonzero : tv.tvSec ≠ 0 ∨ tv.tvUsec ≠ 0
  near : |tv.total - min (timeout.total : Int) greatest.total| < 1000

end Timeval

/-- The timeouts whose seconds keep their meaning in 32 bits, and those of the rest that happen
to wrap to the greatest `timeval`. -/
def KeepsSeconds (timeout : Duration) : Prop :=
  timeout.secs ≤ 2 ^ 31 - 1 ∨
    timeout.secs % 2 ^ 32 = 2 ^ 31 - 1 ∧ timeout.nanos / 1000 = 999999

namespace Windows

/-- The seconds and microseconds before the special case for zero. -/
theorem tvUsec_eq (timeout : Duration) :
    asSigned 32 timeout.subsecMicros = timeout.nanos / 1000 := by
  have bound := timeout.nanos_lt
  rw [Duration.subsecMicros, asSigned_of_fits 31]
  · rfl
  · omega
  · omega

theorem denotes_iff (timeout : Duration) (positive : timeout.total ≠ 0) :
    (Socket.selectTimeout timeout).Denotes timeout ↔ KeepsSeconds timeout := by
  have bound := timeout.nanos_lt
  -- the cast keeps the seconds that a `c_long` holds
  by_cases small : timeout.secs ≤ 2 ^ 31 - 1
  · refine iff_of_true ?_ (Or.inl small)
    have sec : asSigned 32 timeout.asSecs = timeout.secs := by
      rw [Duration.asSecs, asSigned_of_fits 31 _ (by omega) (by omega)]
    have zero := timeout.isZero_iff
    simp only [Duration.asSecs, Duration.subsecNanos] at zero
    simp only [Duration.total] at positive
    by_cases tiny : timeout.secs = 0 ∧ timeout.nanos / 1000 = 0
    · -- less than a microsecond is rounded up to one
      have value : Socket.selectTimeout timeout = ⟨0, 1⟩ := by
        simp only [Socket.selectTimeout, sec, tvUsec_eq]
        rw [tiny.1]
        simp
        omega
      rw [value]
      refine ⟨by decide, by decide, by decide, Or.inr (by decide), ?_⟩
      simp only [Timeval.total, Timeval.greatest, Duration.total]
      rw [abs_lt]
      omega
    · -- the fraction is cut down to microseconds
      have value : Socket.selectTimeout timeout = ⟨timeout.secs, timeout.nanos / 1000⟩ := by
        simp only [Socket.selectTimeout, sec, tvUsec_eq]
        rw [if_neg (by omega)]
      rw [value]
      refine ⟨by dsimp only; omega, by dsimp only; omega, by dsimp only; omega, ?_, ?_⟩
      · dsimp only
        omega
      · simp only [Timeval.total, Timeval.greatest, Duration.total]
        rw [abs_lt]
        omega
  · -- the timeout exceeds every `timeval`, so only the greatest one will do
    have sec : asSigned 32 timeout.asSecs =
        if (timeout.secs : Int) % 2 ^ 32 < 2 ^ 31 then (timeout.secs : Int) % 2 ^ 32
        else (timeout.secs : Int) % 2 ^ 32 - 2 ^ 32 := Int.bmod_def _ _
    have least : min (timeout.total : Int) Timeval.greatest.total = Timeval.greatest.total := by
      rw [min_eq_right]
      simp only [Duration.total, Timeval.total, Timeval.greatest]
      omega
    constructor
    · intro denotes
      have nonneg := denotes.sec_nonneg
      have near := denotes.near
      rw [least, abs_lt] at near
      simp only [Socket.selectTimeout, sec, tvUsec_eq, Timeval.total, Timeval.greatest]
        at near nonneg
      split at near
      · refine Or.inr ?_
        split at near <;> omega
      · rw [if_neg ‹_›] at nonneg
        omega
    · rintro (wrong | ⟨wrapped, micros⟩)
      · exact absurd wrong small
      · have value : Socket.selectTimeout timeout = Timeval.greatest := by
          simp only [Socket.selectTimeout, sec, tvUsec_eq, Timeval.greatest]
          rw [if_pos (by omega), if_neg (by omega), Timeval.mk.injEq]
          omega
        rw [value]
        refine ⟨by decide, by decide, by decide, Or.inl (by decide), ?_⟩
        rw [least, sub_self, abs_zero]
        decide

/-- The socket is not ready before the time that `select` was given has gone by. -/
def TimesOut (elapsed : Nat) : Event os → Prop
  | ⟨.select _ tv, r⟩ => (r : SelectReply).ret.value = 0 → tv.total ≤ elapsed
  | _ => True

/-- A run that ends with `TimedOut` gave the timeout to `select`, which returned zero. -/
private theorem select_of_timedOut (w : Bthdef) (pad : UInt8) (self : IoBluetooth.Socket)
    (addr : BtAddr) (timeout : Duration) (t : Trace os)
    (run : Runs (self.connectTimeout (.windows w) pad addr timeout).run t
      (.error (.err timedOut))) :
    ∃ r : SelectReply, ⟨.select self.raw (Socket.selectTimeout timeout), r⟩ ∈ t ∧
      r.ret.value = 0 := by
  -- every other error of `connect_timeout` is the system's, or the one for a zero timeout
  cases (runs_connectTimeout _ _ _ _ _ _ _).mp run with
  | waited _ _ _ _ wait =>
    generalize outcome : (Except.error (Exit.err timedOut) : Except Exit Unit) = y at wait
    cases (runs_connectWait _ _ _ _).mp wait with
    | zero _ => cases outcome
    | failed _ _ => cases outcome
    | @timedOut r _ idle => exact ⟨r, by simp, idle⟩
    | writable _ _ _ _ => cases outcome
    | unwritable _ _ _ _ took => cases took <;> cases outcome

/-- Some run gives the timeout to `select`, which fails. -/
private theorem reaches_select (w : Bthdef) (pad : UInt8) (self : IoBluetooth.Socket)
    (addr : BtAddr) (timeout : Duration) (positive : timeout.total ≠ 0) :
    ∃ t y r, Runs (self.connectTimeout (.windows w) pad addr timeout).run t y ∧
      ⟨.select self.raw (Socket.selectTimeout timeout), r⟩ ∈ t := by
  have wait := (runs_connectWait self timeout _ _).mpr
    (.failed positive (rfl : (⟨⟨-1, 5⟩, 0, 0⟩ : SelectReply).ret.value = -1))
  have run : TimedConnect (.windows w) pad self addr timeout _ _ :=
    @TimedConnect.waited _ _ _ _ _ ⟨0, 0⟩ ⟨-1, WSAEWOULDBLOCK⟩ ⟨0, 0⟩ _ _ (by decide) (by decide)
      rfl rfl wait
  exact ⟨_, _, ⟨⟨-1, 5⟩, 0, 0⟩, (runs_connectTimeout _ _ _ _ _ _ _).mpr run, by simp⟩

end Windows

/-- Every `timeval` that a run gives to `select` is a proper one for the timeout exactly when the
seconds of the timeout keep their meaning; then `TimedOut` is not returned early. -/
theorem select_timeout_iff (w : Bthdef) (pad : UInt8) (self : Socket) (addr : BtAddr)
    (timeout : Duration) (positive : timeout.total ≠ 0) :
    ((∀ t y s tv r, Runs (self.connectTimeout (.windows w) pad addr timeout).run t y →
        ⟨.select s tv, r⟩ ∈ t → tv.Denotes timeout) ↔ KeepsSeconds timeout) ∧
    (KeepsSeconds timeout → ∀ t elapsed,
      Runs (self.connectTimeout (.windows w) pad addr timeout).run t (.error (.err timedOut)) →
      (∀ e ∈ t, Windows.TimesOut elapsed e) → timeout.total ≤ Timeval.greatest.total →
      timeout.total < (elapsed : Int) + 1000) := by
  refine ⟨?_, ?_⟩
  · constructor
    · intro denotes
      obtain ⟨t, y, r, run, member⟩ := Windows.reaches_select w pad self addr timeout positive
      exact (Windows.denotes_iff timeout positive).mp (denotes t y _ _ r run member)
    · intro keeps t y s tv r run member
      have call := (Windows.Socket.emits_connectTimeout w self addr timeout).runs t y run _ member
      cases call with
      | select _ => exact (Windows.denotes_iff timeout positive).mpr keeps
  · intro keeps t elapsed run times bounded
    obtain ⟨r, member, idle⟩ := Windows.select_of_timedOut w pad self addr timeout t run
    have waited := times _ member idle
    have near := ((Windows.denotes_iff timeout positive).mpr keeps).near
    rw [min_eq_left bounded, abs_lt] at near
    omega

theorem select_timeout_second :
    (⟨1, 500000⟩ : Timeval).Denotes ⟨1, 500000000, by decide, by decide⟩ := by
  obtain ⟨t, y, r, run, member⟩ := Windows.reaches_select bthdef 0 ⟨3⟩ ⟨zeroed 6⟩
    ⟨1, 500000000, by decide, by decide⟩ (by decide)
  exact (select_timeout_iff bthdef 0 ⟨3⟩ ⟨zeroed 6⟩ ⟨1, 500000000, by decide, by decide⟩
    (by decide)).1.mpr (Or.inl (by decide)) t y _ _ r run member

/-- `2 ^ 32` seconds wrap to none, and a microsecond takes their place. -/
theorem select_timeout_wraps :
    ∃ t y r, Runs (Socket.connectTimeout (.windows bthdef) 0 ⟨3⟩ ⟨zeroed 6⟩
        ⟨2 ^ 32, 0, by decide, by decide⟩).run t y ∧
      ⟨.select 3 ⟨0, 1⟩, r⟩ ∈ t ∧
      ¬(⟨0, 1⟩ : Timeval).Denotes ⟨2 ^ 32, 0, by decide, by decide⟩ := by
  obtain ⟨t, y, r, run, member⟩ := Windows.reaches_select bthdef 0 ⟨3⟩ ⟨zeroed 6⟩
    ⟨2 ^ 32, 0, by decide, by decide⟩ (by decide)
  have value : Windows.Socket.selectTimeout ⟨2 ^ 32, 0, by decide, by decide⟩ = ⟨0, 1⟩ := by decide
  rw [value] at member
  refine ⟨t, y, r, run, member, fun denotes => ?_⟩
  have near := denotes.near
  simp [Timeval.total, Timeval.greatest, Duration.total] at near

end IoBluetooth
