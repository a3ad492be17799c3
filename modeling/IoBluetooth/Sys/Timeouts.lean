import IoBluetooth.Interaction.Atomic
import IoBluetooth.Properties.MillisecondTimeout
import IoBluetooth.Properties.TimevalTimeout
import IoBluetooth.Sys.Brief

/-!
# The timeouts of a socket

A socket has two timeouts, which all its clones share. The system need not keep a timeout as it is
set: Linux rounds it up to its ticks. What a platform and its system make of a timeout, and what
the functions of a stream do to the two, whatever the system replies to them.
-/
namespace IoBluetooth

open Interaction Rust

/-! ### What is kept of a timeout -/

/-- Whole microseconds, as long as the seconds fit. -/
def Unix.kept (d : Duration) : Duration :=
  if d.secs = 0 ∧ d.nanos / 1000 = 0 then ⟨0, 1000, Duration.zero.secs_lt, by decide⟩
  else ⟨min d.secs Socket.timeTMax, d.nanos / 1000 * 1000, (Nat.min_le_left _ _).trans_lt d.secs_lt,
    (Nat.div_mul_le_self _ _).trans_lt d.nanos_lt⟩

/-- Whole milliseconds, rounded up. -/
def Windows.kept (d : Duration) : Duration :=
  ⟨millis d / 1000, millis d % 1000 * 1000000, by have := millis_lt d; omega, by omega⟩

theorem Unix.reads_kept (d : Duration) : Reads (clamped d) (some (kept d)) := by
  refine ⟨clamped_ne_zero d, ?_⟩
  rw [clamped, kept]
  split
  · exact ⟨rfl, rfl⟩
  · exact ⟨rfl, by push_cast; rfl⟩

theorem Windows.reads_kept (d : Duration) (positive : d ≠ .zero) :
    Reads (millis d) (some (kept d)) := by
  refine ⟨fun zero => positive ((millis_eq_zero_iff d).mp zero), ?_⟩
  simp only [Duration.total, kept]
  omega

/-- What `SO_RCVTIMEO` reads as, where nothing overflows. -/
def Unix.reading (tv : Timeval) : Option Duration :=
  if tv = ⟨0, 0⟩ then none else Duration.new tv.tvSec.toNat (tv.tvUsec.toNat * 1000)

def Windows.reading (raw : Nat) : Option Duration :=
  if raw = 0 then none else Duration.new (raw / 1000) (raw % 1000 * 1000000)

theorem Unix.eq_reading_of_reads {tv : Timeval} {x : Option Duration} (reads : Reads tv x) :
    x = reading tv := by
  cases x with
  | none => exact (if_pos reads).symm
  | some d =>
    obtain ⟨nonzero, sec, usec⟩ := reads
    have whole : tv.tvUsec.toNat * 1000 = d.nanos := by omega
    rw [reading, if_neg nonzero, sec, whole, Int.toNat_natCast, Duration.new_parts]

theorem Windows.eq_reading_of_reads {raw : Nat} {x : Option Duration} (reads : Reads raw x) :
    x = reading raw := by
  cases x with
  | none => exact (if_pos reads).symm
  | some d =>
    obtain ⟨nonzero, total⟩ := reads
    have bound := d.nanos_lt
    rw [Duration.total] at total
    have seconds : raw / 1000 = d.secs := by omega
    have rest : d.nanos = raw % 1000 * 1000000 := by omega
    rw [reading, if_neg nonzero, seconds, ← rest, Duration.new_parts]

namespace Platform

def timeoutType : Platform → OptType
  | unix _ => .timeval
  | windows _ => .ulong

/-- What is set for a timeout, or for none. -/
def encode : (P : Platform) → Option Duration → P.timeoutType.Slot
  | unix _, some d => Unix.clamped d
  | unix _, none => (⟨0, 0⟩ : Timeval)
  | windows _, some d => Windows.millis d
  | windows _, none => (0 : Nat)

def kept : Platform → Duration → Duration
  | unix _ => Unix.kept
  | windows _ => Windows.kept

def reading : (P : Platform) → P.timeoutType.Slot → Option Duration
  | unix _ => Unix.reading
  | windows _ => Windows.reading

/-- What the type in C holds. -/
def Proper : (P : Platform) → P.timeoutType.Slot → Prop
  | unix _ => Unix.Proper
  | windows _ => fun raw : Nat => raw < 2 ^ 32

/-- A timeout that is read after `dur` was set, where the system keeps `round x` for `x`. -/
def keeps (P : Platform) (round : P.timeoutType.Slot → P.timeoutType.Slot)
    (dur : Option Duration) : Option Duration :=
  P.reading (round (P.encode dur))

/-- What a system may make of the timeouts: no timeout stays none, and what it makes of any other
is a timeout of its own. -/
structure Rounds (P : Platform) (round : P.timeoutType.Slot → P.timeoutType.Slot) : Prop where
  none : round (P.encode none) = P.encode none
  proper : ∀ d ≠ .zero, P.Proper (round (P.encode (some d)))

/-- The error for a timeout of zero. -/
def zeroTimeout : Platform → IoError
  | unix _ => IoBluetooth.zeroTimeout
  | windows _ => Windows.zeroMillis

/-- A system that keeps a timeout as it is set keeps whole units of it. -/
theorem keeps_of_exact {P : Platform} {round : P.timeoutType.Slot → P.timeoutType.Slot}
    {dur : Option Duration} (positive : dur ≠ some .zero)
    (exact : round (P.encode dur) = P.encode dur) : P.keeps round dur = dur.map P.kept := by
  rw [keeps, exact]
  cases dur with
  | none => cases P <;> rfl
  | some d =>
    cases P with
    | unix target => exact (Unix.eq_reading_of_reads (Unix.reads_kept d)).symm
    | windows w =>
      have positive : d ≠ .zero := fun zero => positive (congrArg some zero)
      exact (Windows.eq_reading_of_reads (Windows.reads_kept d positive)).symm

theorem Rounds.proper_kept {P : Platform} {round : P.timeoutType.Slot → P.timeoutType.Slot}
    (rounds : P.Rounds round) (dur : Option Duration) (positive : dur ≠ some .zero) :
    P.Proper (round (P.encode dur)) := by
  cases dur with
  | none =>
    rw [rounds.none]
    cases P with
    | unix target =>
      exact show Unix.Proper ⟨0, 0⟩ from ⟨by decide, by decide, by decide, by decide⟩
    | windows w => exact show 0 < 2 ^ 32 by decide
  | some d => exact rounds.proper d fun zero => positive (congrArg some zero)

end Platform

/-! ### Options that clones share -/

/-- A call on a socket with options of type `T`, of which `round x` is kept where `x` is set. -/
inductive KeepsShared (T : OptType) (round : T.Slot → T.Slot) : Environment os (SockOpt → T.Slot)
  | set {o s opt payload} {r : Ret} : r.value ≠ -1 →
      KeepsShared T round o ⟨.setsockopt s T opt payload, r⟩
        (Function.update o opt (round payload))
  | unset {o s opt payload} {r : Ret} : r.value = -1 →
      KeepsShared T round o ⟨.setsockopt s T opt payload, r⟩ o
  | get {o s opt} {r : GetsockoptReply T} : r.ret.value ≠ -1 → r.slot = o opt → r.len = T.size →
      KeepsShared T round o ⟨.getsockopt s T opt, r⟩ o
  | unread {o s opt} {r : GetsockoptReply T} : r.ret.value = -1 →
      KeepsShared T round o ⟨.getsockopt s T opt, r⟩ o
  | other {o e} : (∀ s opt payload, e.call ≠ .setsockopt s T opt payload) →
      (∀ s opt, e.call ≠ .getsockopt s T opt) → KeepsShared T round o e o

section Shared

variable {P : Platform} {T : OptType} {round : T.Slot → T.Slot} {o o' : SockOpt → T.Slot}
  {self : Socket} {kind : SockOpt} {e : Event os}

theorem KeepsShared.eq_of_not_set (kept : KeepsShared T round o e o')
    (other : ∀ s opt payload, e.call ≠ .setsockopt s T opt payload) : o' = o := by
  cases kept with
  | set _ => exact absurd rfl (other _ _ _)
  | unset | get | unread | other => rfl

theorem KeepsShared.of_setsockopt {payload : T.Slot} {a : Except Exit Unit}
    (run : Runs (setsockopt T self kind payload).run [e] a) (kept : KeepsShared T round o e o') :
    (a = .ok () ∧ o' = Function.update o kind (round payload)) ∨
      ∃ code, a = .error (.err (.os code)) ∧ o' = o := by
  obtain ⟨r, same, outcome⟩ := (runs_checked (.setsockopt self.raw T kind payload) id _ _).mp run
  cases same
  cases kept with
  | set passed => exact outcome.elim (absurd ·.1 passed) fun done => Or.inl ⟨done.2, rfl⟩
  | unset failed =>
    exact outcome.elim (fun wrong => Or.inr ⟨_, wrong.2, rfl⟩) (absurd failed ·.1)
  | other sets _ => exact absurd rfl (sets _ _ _)

/-- A timeout is set, unless it is zero. -/
theorem Socket.setTimeout_eq (P : Platform) (self : Socket) (dur : Option Duration)
    (kind : SockOpt) :
    self.setTimeout P dur kind =
      if dur = some .zero then throw (.err P.zeroTimeout)
      else setsockopt P.timeoutType self kind (P.encode dur) := by
  cases P with
  | unix target =>
    change Unix.Socket.setTimeout target self dur kind = _
    cases dur with
    | none => rfl
    | some d =>
      simp only [Unix.Socket.setTimeout, Duration.isZero_iff, Duration.total_eq_zero_iff,
        Unix.optionTimeout_eq, Option.some.injEq]
      by_cases zero : d = .zero
      · rw [if_pos zero, if_pos zero]
        rfl
      · rw [if_neg zero, if_neg zero]
        rfl
  | windows w =>
    change Windows.Socket.setTimeout self dur kind = _
    cases dur with
    | none => rfl
    | some d =>
      simp only [Windows.Socket.setTimeout, Windows.dur2timeout_eq, Windows.millis_eq_zero_iff,
        Option.some.injEq]
      by_cases zero : d = .zero
      · rw [if_pos zero, if_pos zero]
        rfl
      · rw [if_neg zero, if_neg zero]
        rfl

/-- Nothing overflows when a timeout of the system's is read. -/
theorem Socket.ensures_timeout (P : Platform) (self : Socket) (kind : SockOpt)
    (o : SockOpt → P.timeoutType.Slot) (proper : P.Proper (o kind)) :
    Ensures (KeepsOptions P.timeoutType) (self.timeout P kind).run (fun _ => o) fun y _ =>
      y = .ok (P.reading (o kind)) := by
  cases P with
  | unix target =>
    refine (Unix.ensures_timeout self kind (fun _ => o) _ rfl proper).mono ?_
    rintro y o' ⟨_, x, rfl, reads⟩
    rw [Unix.eq_reading_of_reads reads]
    rfl
  | windows w =>
    refine (Windows.ensures_timeout self kind (fun _ => o) _ rfl proper).mono ?_
    rintro y o' ⟨_, x, rfl, reads⟩
    rw [Windows.eq_reading_of_reads reads]
    rfl

theorem Socket.timeout_eq (P : Platform) (self : Socket) (kind : SockOpt) :
    ∃ f, self.timeout P kind = getsockopt P.timeoutType self kind >>= f := by
  cases P with
  | unix target => exact ⟨_, rfl⟩
  | windows w => exact ⟨_, rfl⟩

theorem Socket.of_timeout {round : P.timeoutType.Slot → P.timeoutType.Slot}
    {o o' : SockOpt → P.timeoutType.Slot} {a : Except Exit (Option Duration)}
    (run : Runs (self.timeout P kind).run [e] a) (kept : KeepsShared P.timeoutType round o e o')
    (proper : P.Proper (o kind)) :
    o' = o ∧ (a = .ok (P.reading (o kind)) ∨ ∃ code, a = .error (.err (.os code))) := by
  obtain ⟨f, eq⟩ := Socket.timeout_eq P self kind
  have answered := run
  rw [eq, getsockopt, bind_assoc] at answered
  obtain ⟨r, u, same, rest⟩ := (runs_sys_bind _ _ _ _).mp answered
  cases same
  refine ⟨kept.eq_of_not_set (by rintro _ _ _ ⟨⟩), ?_⟩
  cases kept with
  | get passed slot len =>
    have ensures := self.ensures_timeout P kind o proper
    exact Or.inl (ensures.holds run ((steps_singleton _ _ _ _).mpr (.get passed slot len)))
  | unread failed =>
    rw [cvt, if_pos failed] at rest
    obtain ⟨_, rfl⟩ := rest
    exact Or.inr ⟨_, rfl⟩
  | other _ gets => exact absurd rfl (gets _ _)

end Shared

/-! ### Functions of streams -/

/-- A function of a stream, as far as the timeout in its result goes. -/
def StreamFn.timeout (P : Platform) (self : BtStream) : StreamFn → Sys (Option Duration)
  | readTimeout => self.readTimeout P
  | writeTimeout => self.writeTimeout P
  | f => do
    f.program P self
    pure none

/-- The timeout that a function of a stream returns. -/
def StreamFn.asks : StreamFn → Option SockOpt
  | readTimeout => some .soRcvtimeo
  | writeTimeout => some .soSndtimeo
  | _ => none

/-- Any number of threads that use clones of one stream. -/
def clones (P : Platform) (round : P.timeoutType.Slot → P.timeoutType.Slot)
    (same : BtStream → Prop) (ι : Type) :
    System ι (BtStream × StreamFn) os (Except Exit (Option Duration))
      (SockOpt → P.timeoutType.Slot) where
  program q := (q.2.timeout P q.1).run
  begins _ o q o' := same q.1 ∧ o' = o
  calls _ _ o e o' := KeepsShared P.timeoutType round o e o'
  returns _ _ o o' := o' = o

/-- The timeouts as the users of a stream see them. -/
inductive Timeouts (P : Platform) (round : P.timeoutType.Slot → P.timeoutType.Slot) :
    Object (BtStream × StreamFn) (Except Exit (Option Duration)) (SockOpt → Option Duration)
  | asked {self f opt σ} : StreamFn.asks f = some opt →
      Timeouts P round (self, f) σ (.ok (σ opt)) σ
  | set {self f opt dur σ} : StreamFn.sets f = some (opt, dur) → dur ≠ some .zero →
      Timeouts P round (self, f) σ (.ok none) (Function.update σ opt (P.keeps round dur))
  | rejected {self f opt σ} : StreamFn.sets f = some (opt, some .zero) →
      Timeouts P round (self, f) σ (.error (.err P.zeroTimeout)) σ
  | failed {self f code σ} : (∀ opt, StreamFn.sets f ≠ some (opt, some .zero)) →
      Timeouts P round (self, f) σ (.error (.err (.os code))) σ
  | other {self f a σ} : StreamFn.asks f = none → StreamFn.sets f = none →
      Timeouts P round (self, f) σ a σ

/-- Every option is what the system keeps of a timeout. -/
def Encodes (P : Platform) (round : P.timeoutType.Slot → P.timeoutType.Slot)
    (o : SockOpt → P.timeoutType.Slot) (σ : SockOpt → Option Duration) : Prop :=
  ∀ opt, ∃ dur, dur ≠ some .zero ∧ o opt = round (P.encode dur) ∧ σ opt = P.keeps round dur

section Functions

variable {P : Platform} {round : P.timeoutType.Slot → P.timeoutType.Slot} {self : BtStream}
  {f : StreamFn} {o o' : SockOpt → P.timeoutType.Slot}
  {σ : SockOpt → Option Duration} {e : Event os} {a : Except Exit (Option Duration)}

theorem Encodes.update (encodes : Encodes P round o σ) (opt : SockOpt) (dur : Option Duration)
    (positive : dur ≠ some .zero) :
    Encodes P round (Function.update o opt (round (P.encode dur)))
      (Function.update σ opt (P.keeps round dur)) := by
  intro opt'
  by_cases same : opt' = opt
  · subst same
    exact ⟨dur, positive, Function.update_self .., Function.update_self ..⟩
  · rw [Function.update_of_ne same, Function.update_of_ne same]
    exact encodes opt'

theorem StreamFn.timeout_of_asks {opt : SockOpt} (asks : f.asks = some opt) :
    f.timeout P self = self.inner.timeout P opt := by
  cases f with
  | readTimeout | writeTimeout =>
    cases asks
    rfl
  | _ => cases asks

theorem StreamFn.sets_of_asks {opt : SockOpt} (asks : f.asks = some opt) : f.sets = none := by
  cases f <;> first | rfl | cases asks

theorem StreamFn.timeout_of_sets {opt : SockOpt} {dur : Option Duration}
    (sets : f.sets = some (opt, dur)) :
    f.timeout P self = (do self.inner.setTimeout P dur opt; pure none) := by
  cases f with
  | setReadTimeout dur | setWriteTimeout dur =>
    cases sets
    rfl
  | _ => cases sets

theorem StreamFn.brief_timeout (self : BtStream) (f : StreamFn) :
    BriefOn (Call.works self.inner.raw) (f.timeout P self) := by
  have asks (kind : SockOpt) : BriefOn (Call.works self.inner.raw) (self.inner.timeout P kind) :=
    (self.inner.brief_timeout kind).mono fun _ on =>
      Call.works_of_adjusts (Call.adjusts_of_spares on)
  cases f with
  | readTimeout => exact asks _
  | writeTimeout => exact asks _
  | _ => exact (StreamFn.brief self _).run_bind fun _ => still_run_pure _

/-- A function that is not about a timeout sets no option. -/
theorem StreamFn.sets_nothing (asks : f.asks = none) (sets : f.sets = none)
    (begun : Begins (f.timeout P self).run [e]) {T : OptType} (s : Handle) (opt : SockOpt)
    (payload : T.Slot) : e.call ≠ .setsockopt s T opt payload := by
  have program : f.timeout P self = (do f.program P self; pure none) := by
    cases f <;> first | rfl | cases asks
  have only {kind : Call → Bool} (brief : BriefOn kind (f.program P self)) :
      kind e.call = true := by
    have on : BriefOn kind (do f.program P self; pure none : Sys (Option Duration)) :=
      brief.run_bind fun _ => still_run_pure _
    exact on.emits [e] (program ▸ begun) e List.mem_cons_self
  intro same
  cases bytes : f.carries with
  | true =>
    have carries := only (f.brief_carries self bytes)
    rw [same] at carries
    cases carries
  | false =>
    have spares := only (f.brief_spares self bytes sets)
    rw [same] at spares
    cases spares

/-- What a function does with its one call. -/
theorem Encodes.acts (rounds : P.Rounds round) (encodes : Encodes P round o σ)
    (run : Runs (f.timeout P self).run [e] a) (kept : KeepsShared P.timeoutType round o e o') :
    ∃ σ', Timeouts P round (self, f) σ a σ' ∧ Encodes P round o' σ' := by
  cases asks : f.asks with
  | some opt =>
    rw [StreamFn.timeout_of_asks asks] at run
    obtain ⟨dur, positive, stored, means⟩ := encodes opt
    have proper : P.Proper (o opt) := stored ▸ rounds.proper_kept dur positive
    obtain ⟨rfl, rfl | ⟨code, rfl⟩⟩ := Socket.of_timeout run kept proper
    · have read : σ opt = P.reading (o' opt) := means.trans (congrArg P.reading stored.symm)
      exact ⟨σ, read ▸ .asked asks, encodes⟩
    · refine ⟨σ, .failed fun opt' sets => ?_, encodes⟩
      cases (StreamFn.sets_of_asks asks).symm.trans sets
  | none =>
    cases sets : f.sets with
    | none =>
      rw [kept.eq_of_not_set fun s opt payload => f.sets_nothing asks sets run.begins s opt payload]
      exact ⟨σ, .other asks sets, encodes⟩
    | some set =>
      obtain ⟨opt, dur⟩ := set
      rw [StreamFn.timeout_of_sets sets, Socket.setTimeout_eq] at run
      by_cases zero : dur = some .zero
      · -- refused before any call
        rw [if_pos zero] at run
        cases run.1
      · rw [if_neg zero] at run
        rcases (runs_run_bind _ _ _ _).mp run with ⟨x, failed, rfl⟩ | ⟨u, v, x, same, done, last⟩
        · rcases KeepsShared.of_setsockopt failed kept with ⟨⟨⟩, _⟩ | ⟨code, wrong, rfl⟩
          cases wrong
          refine ⟨σ, .failed fun opt' sets' => ?_, encodes⟩
          cases sets.symm.trans sets'
          exact zero rfl
        · obtain ⟨rfl, rfl⟩ := last
          rw [List.append_nil] at same
          rw [← same] at done
          rcases KeepsShared.of_setsockopt done kept with ⟨_, rfl⟩ | ⟨code, ⟨⟩, _⟩
          exact ⟨_, .set sets zero, encodes.update opt dur zero⟩

/-- A function that makes no call has been asked for a timeout of zero. -/
theorem StreamFn.timeouts_quiet (run : Runs (f.timeout P self).run [] a) :
    Timeouts P round (self, f) σ a σ := by
  cases asks : f.asks with
  | some opt =>
    obtain ⟨k, eq⟩ := Socket.timeout_eq P self.inner opt
    rw [StreamFn.timeout_of_asks asks, eq, getsockopt, bind_assoc] at run
    obtain ⟨r, u, nothing, _⟩ := (runs_sys_bind _ _ _ _).mp run
    cases nothing
  | none =>
    cases sets : f.sets with
    | none => exact .other asks sets
    | some set =>
      obtain ⟨opt, dur⟩ := set
      rw [StreamFn.timeout_of_sets sets, Socket.setTimeout_eq] at run
      by_cases zero : dur = some .zero
      · rw [if_pos zero] at run
        obtain ⟨_, rfl⟩ := run
        exact .rejected (zero ▸ sets)
      · rw [if_neg zero, setsockopt, bind_assoc] at run
        obtain ⟨r, u, nothing, _⟩ := (runs_sys_bind _ _ _ _).mp run
        cases nothing

end Functions

theorem clones_commit (P : Platform) (round : P.timeoutType.Slot → P.timeoutType.Slot)
    (rounds : P.Rounds round) (same : BtStream → Prop) (ι : Type) :
    (clones P round same ι).Commits (fun _ => P.encode none) (Timeouts P round) (fun _ => none)
      (fun _ => True) (Encodes P round) where
  brief q := ⟨_, q.2.brief_timeout q.1⟩
  starts _ := by
    have kept : P.keeps round none = none := Platform.keeps_of_exact nofun rounds.none
    exact ⟨none, nofun, rounds.none.symm, kept.symm⟩
  begins := by
    rintro _ o σ q _ encodes ⟨_, rfl⟩
    exact ⟨trivial, encodes⟩
  calls _ _ _ _ _ _ _ encodes _ run kept := encodes.acts rounds run kept
  quiet _ σ _ _ encodes _ run := ⟨σ, StreamFn.timeouts_quiet run, encodes⟩
  returns := by
    rintro _ σ _ _ _ encodes rfl
    exact encodes

end IoBluetooth
