import IoBluetooth.Sys.Options

/-!
# Socket timeouts on Unix

The system keeps a timeout as a `timeval`, where zero means none. A timeout is cut to
microseconds, of which at least one is left, and its seconds to what a `time_t` holds.
-/
namespace IoBluetooth.Unix

open Interaction Rust

/-- A timeout as the option keeps it. -/
def clamped (d : Duration) : Timeval :=
  if d.secs = 0 ∧ d.nanos / 1000 = 0 then ⟨0, 1⟩
  else ⟨(min d.secs Socket.timeTMax : Nat), (d.nanos / 1000 : Nat)⟩

/-- Whole microseconds, but at least one. -/
def micros (d : Duration) : Nat := max (d.total / 1000) 1

theorem micros_mono {d d' : Duration} (shorter : d.total ≤ d'.total) : micros d ≤ micros d' := by
  simp only [micros]
  omega

theorem subsecMicros_eq (target : Target) (d : Duration) :
    asSigned (Socket.susecondsT target) d.subsecMicros = (d.nanos / 1000 : Nat) := by
  have bound := d.nanos_lt
  rw [Duration.subsecMicros, Socket.susecondsT]
  split
  · exact asSigned_of_fits 31 _ (by omega) (by omega)
  · exact asSigned_of_fits 63 _ (by omega) (by omega)

theorem seconds_eq (d : Duration) :
    (if d.asSecs > Socket.timeTMax then (Socket.timeTMax : Int) else asSigned 64 d.asSecs) =
      (min d.secs Socket.timeTMax : Nat) := by
  have max : Socket.timeTMax = 2 ^ 63 - 1 := rfl
  rw [Duration.asSecs]
  split
  · rw [min_eq_right (by omega)]
  · rw [min_eq_left (by omega)]
    exact asSigned_of_fits 63 _ (by omega) (by omega)

theorem optionTimeout_eq (target : Target) (d : Duration) :
    Socket.optionTimeout target d = clamped d := by
  have large : 0 < Socket.timeTMax := by decide
  rw [Socket.optionTimeout, clamped, subsecMicros_eq, seconds_eq]
  -- less than a microsecond would read as none, and is raised to one
  by_cases tiny : d.secs = 0 ∧ d.nanos / 1000 = 0
  · rw [if_pos tiny, tiny.1, tiny.2]
    rfl
  · rw [if_neg tiny, if_neg (by dsimp only; omega)]

/-- What a `timeval` of the system's is. -/
structure Proper (tv : Timeval) : Prop where
  sec_nonneg : 0 ≤ tv.tvSec
  sec_le : tv.tvSec ≤ Socket.timeTMax
  usec_nonneg : 0 ≤ tv.tvUsec
  usec_lt : tv.tvUsec < 1000000

theorem proper_clamped (d : Duration) : Proper (clamped d) := by
  have bound := d.nanos_lt
  rw [clamped]
  split
  · exact ⟨by decide, by decide, by decide, by decide⟩
  · exact ⟨by dsimp only; omega, by dsimp only; omega, by dsimp only; omega, by dsimp only; omega⟩

theorem clamped_ne_zero (d : Duration) : clamped d ≠ ⟨0, 0⟩ := by
  rw [clamped]
  split
  · decide
  · have large : 0 < Socket.timeTMax := by decide
    simp only [Ne, Timeval.mk.injEq]
    omega

/-! ### Setting and reading -/

variable (target : Target) (self : IoBluetooth.Socket) (kind : SockOpt) (o : Options .timeval)

theorem ensures_setTimeout (d : Duration) (Q : Except Exit Unit → Options .timeval → Prop) :
    Ensures (KeepsOptions .timeval) (Socket.setTimeout target self (some d) kind).run o Q ↔
      if d = .zero then Q (.error (.err zeroTimeout)) o
      else Q (.ok ()) (o.set self.raw kind (clamped d)) := by
  simp only [Socket.setTimeout, Duration.isZero_iff, Duration.total_eq_zero_iff, optionTimeout_eq]
  by_cases zero : d = .zero
  · rw [if_pos zero, if_pos zero]
    exact Iff.rfl
  · rw [if_neg zero, if_neg zero, pure_bind]
    exact ensures_setsockopt self kind (clamped d) o Q

theorem ensures_clearTimeout (Q : Except Exit Unit → Options .timeval → Prop) :
    Ensures (KeepsOptions .timeval) (Socket.setTimeout target self none kind).run o Q ↔
      Q (.ok ()) (o.set self.raw kind (⟨0, 0⟩ : Timeval)) := by
  rw [Socket.setTimeout, pure_bind]
  exact ensures_setsockopt self kind (⟨0, 0⟩ : Timeval) o Q

/-- What the timeout of a socket reads as: none for zero, or the same time. -/
def Reads (tv : Timeval) : Option Duration → Prop
  | none => tv = ⟨0, 0⟩
  | some d => tv ≠ ⟨0, 0⟩ ∧ tv.tvSec = d.secs ∧ tv.tvUsec * 1000 = d.nanos

theorem reads_ne_zero (tv : Timeval) (d : Duration) (reads : Reads tv (some d)) : d ≠ .zero := by
  rintro rfl
  obtain ⟨nonzero, sec, usec⟩ := reads
  obtain ⟨tvSec, tvUsec⟩ := tv
  simp only [Duration.zero, Int.ofNat_zero] at sec usec
  have none : tvUsec = 0 := by omega
  exact nonzero (by rw [sec, none])

/-- Neither the casts nor the product nor `Duration::new` overflow. -/
theorem ensures_timeout (tv : Timeval) (stored : o self.raw kind = tv) (proper : Proper tv) :
    Ensures (KeepsOptions .timeval) (Socket.timeout self kind).run o fun y o' =>
      o' = o ∧ ∃ dur, y = .ok dur ∧ Reads tv dur := by
  rw [Socket.timeout, ensures_run_bind, ensures_getsockopt, stored]
  dsimp only
  obtain ⟨nonneg, le, nonneg', lt⟩ := proper
  simp only [Socket.timeTMax] at le
  by_cases zero : tv.tvSec = 0 ∧ tv.tvUsec = 0
  · -- zero stands for no timeout
    rw [if_pos zero, ensures_run_pure]
    obtain ⟨sec, usec⟩ := tv
    obtain ⟨rfl, rfl⟩ := zero
    exact ⟨rfl, none, rfl, rfl⟩
  · have sec : asUnsigned 64 tv.tvSec = tv.tvSec.toNat := by
      rw [asUnsigned, Int.emod_eq_of_lt nonneg (by omega)]
    have usec : asUnsigned 32 tv.tvUsec = tv.tvUsec.toNat := by
      rw [asUnsigned, Int.emod_eq_of_lt nonneg' (by omega)]
    have product : tv.tvUsec.toNat * 1000 < 2 ^ 32 := by omega
    have seconds : tv.tvSec.toNat + tv.tvUsec.toNat * 1000 / 1000000000 < 2 ^ 64 := by omega
    rw [if_neg zero, sec, usec, checkedMul, if_pos product, orPanic, pure_bind, Duration.new,
      dif_pos seconds, orPanic, pure_bind, ensures_run_pure]
    refine ⟨rfl, _, rfl, ?_, ?_, ?_⟩
    · rintro rfl
      exact zero ⟨rfl, rfl⟩
    · dsimp only
      omega
    · dsimp only
      omega

/-- A timeout in whole microseconds is kept as it is. -/
theorem clamped_of_reads (tv : Timeval) (d : Duration) (proper : Proper tv)
    (reads : Reads tv (some d)) : clamped d = tv := by
  obtain ⟨nonzero, sec, usec⟩ := reads
  have le := proper.sec_le
  rw [sec] at le
  obtain ⟨tvSec, tvUsec⟩ := tv
  simp only at sec usec
  have whole : ((d.nanos / 1000 : Nat) : Int) = tvUsec := by omega
  rw [clamped, if_neg, min_eq_left (by omega), whole, sec]
  rintro ⟨none, none'⟩
  refine nonzero ?_
  rw [sec, none, ← whole, none']
  rfl

/-- What is kept of a timeout whose seconds fit. -/
theorem total_of_reads (d d' : Duration) (fits : d.secs ≤ Socket.timeTMax)
    (reads : Reads (clamped d) (some d')) : d'.total = micros d * 1000 := by
  obtain ⟨_, sec, usec⟩ := reads
  rw [clamped] at sec usec
  simp only [Duration.total, micros]
  split at sec
  · next tiny =>
    -- raised to a microsecond
    rw [if_pos tiny] at usec
    simp only at sec usec
    omega
  · next long =>
    -- cut to whole microseconds
    rw [if_neg long] at usec
    rw [min_eq_left fits] at sec
    simp only at sec usec
    omega

/-- And of one whose seconds do not. -/
theorem secs_of_reads (d d' : Duration) (exceeds : Socket.timeTMax < d.secs)
    (reads : Reads (clamped d) (some d')) : d'.secs = Socket.timeTMax := by
  obtain ⟨_, sec, _⟩ := reads
  rw [clamped, if_neg (by omega), min_eq_right exceeds.le] at sec
  exact (Int.ofNat_inj.mp sec).symm

/-- A timeout that was set reads back in whole microseconds, and a timeout that was read is set
again as it was. -/
theorem timeval_timeouts (target : Target) (self : IoBluetooth.Socket) (kind : SockOpt) :
    (∀ d o, Ensures (KeepsOptions .timeval) (Socket.setTimeout target self (some d) kind).run o
      fun y o' =>
        ((∃ x, y = .error x) ↔ d = .zero) ∧ ((∃ x, y = .error x) → o' = o) ∧
        (y = .ok () → Proper (o' self.raw kind) ∧ o' self.raw kind ≠ (⟨0, 0⟩ : Timeval))) ∧
    (∀ d o, d ≠ .zero →
      Ensures (KeepsOptions .timeval)
        (do Socket.setTimeout target self (some d) kind; Socket.timeout self kind : Sys _).run o
        fun y _ => ∃ d', y = .ok (some d') ∧
          (d.secs ≤ Socket.timeTMax → d'.total = micros d * 1000) ∧
          (Socket.timeTMax < d.secs → d'.secs = Socket.timeTMax)) ∧
    (∀ d d' : Duration, d.le d' = true → micros d ≤ micros d') ∧
    (∀ o, Ensures (KeepsOptions .timeval)
      (do Socket.setTimeout target self none kind; Socket.timeout self kind : Sys _).run o
        fun y _ => y = .ok none) ∧
    (∀ o, Proper (o self.raw kind) → Ensures (KeepsOptions .timeval)
      (do let dur ← Socket.timeout self kind; Socket.setTimeout target self dur kind : Sys _).run o
        fun y o' => y = .ok () ∧ o' = o) := by
  refine ⟨?_, ?_, ?_, ?_, ?_⟩
  · intro d o
    rw [ensures_setTimeout]
    by_cases zero : d = .zero
    · rw [if_pos zero]
      exact ⟨iff_of_true ⟨_, rfl⟩ zero, fun _ => rfl, nofun⟩
    · rw [if_neg zero]
      refine ⟨iff_of_false nofun zero, nofun, fun _ => ?_⟩
      rw [Options.set_self]
      exact ⟨proper_clamped d, clamped_ne_zero d⟩
  · intro d o positive
    rw [ensures_run_bind, ensures_setTimeout, if_neg positive]
    refine (ensures_timeout self kind _ (clamped d) (by simp) (proper_clamped d)).mono ?_
    rintro _ _ ⟨_, dur, rfl, reads⟩
    cases dur with
    | none => exact absurd reads (clamped_ne_zero d)
    | some d' =>
      exact ⟨d', rfl, fun fits => total_of_reads d d' fits reads,
        fun exceeds => secs_of_reads d d' exceeds reads⟩
  · intro d d' shorter
    exact micros_mono ((d.le_iff d').mp shorter)
  · intro o
    rw [ensures_run_bind, ensures_clearTimeout]
    have proper : Proper ⟨0, 0⟩ := ⟨by decide, by decide, by decide, by decide⟩
    refine (ensures_timeout self kind _ ⟨0, 0⟩ (by simp) proper).mono ?_
    rintro _ _ ⟨_, dur, rfl, reads⟩
    cases dur with
    | none => rfl
    | some d' => exact absurd rfl reads.1
  · intro o proper
    rw [ensures_run_bind]
    refine (ensures_timeout self kind o _ rfl proper).mono ?_
    rintro _ o ⟨rfl, dur, rfl, reads⟩
    dsimp only
    cases dur with
    | none =>
      -- none is set again as zero
      rw [ensures_clearTimeout, ← (reads : o self.raw kind = (⟨0, 0⟩ : Timeval)), Options.set_same]
      exact ⟨rfl, rfl⟩
    | some d =>
      -- whole microseconds are set again as they are
      rw [ensures_setTimeout, if_neg (reads_ne_zero _ d reads), clamped_of_reads _ d proper reads,
        Options.set_same]
      exact ⟨rfl, rfl⟩

/-- A nanosecond is kept as a microsecond. -/
theorem timeout_not_forgotten :
    Ensures (KeepsOptions .timeval)
      (do Socket.setTimeout .linux ⟨5⟩ (some ⟨0, 1, by decide, by decide⟩) .soRcvtimeo
          Socket.timeout ⟨5⟩ .soRcvtimeo : Sys _).run (fun _ _ => (⟨0, 0⟩ : Timeval)) fun y _ =>
        ∃ d', y = .ok (some d') ∧ d'.total = 1000 := by
  have set := (timeval_timeouts .linux ⟨5⟩ .soRcvtimeo).2.1 ⟨0, 1, by decide, by decide⟩
    (fun _ _ => (⟨0, 0⟩ : Timeval)) (by decide)
  refine set.mono ?_
  rintro y o ⟨d', read, total, _⟩
  exact ⟨d', read, total (by decide)⟩

end IoBluetooth.Unix
