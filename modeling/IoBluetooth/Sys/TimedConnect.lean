import IoBluetooth.Sys.Runs

/-!
# Runs of `connect_timeout`

Both platforms switch the socket to nonblocking mode, connect, switch it back and wait if the
attempt is still going on. They differ in the calls, in the error that says so and in the wait.
-/
namespace IoBluetooth

open Interaction Memory Rust

namespace Platform

/-- The socket address of the literal in `connect_timeout`. -/
def literal (pad : UInt8) : Platform → BtAddr → List UInt8 × Nat
  | .unix _, addr =>
    (seen (Unix.sockaddrRcLiteral pad addr) Unix.sizeofSockaddrRc, Unix.sizeofSockaddrRc)
  | .windows w, addr =>
    (seen (Windows.sockaddrBthLiteral w addr) Windows.sizeofSockaddrBth, Windows.sizeofSockaddrBth)

def modeEvent : Platform → Socket → Bool → Ret → Event os
  | .unix _, self, nonblocking, r => ⟨.ioctlFionbio self.raw (if nonblocking then 1 else 0), r⟩
  | .windows _, self, nonblocking, r =>
    ⟨.ioctlsocketFionbio self.raw (if nonblocking then 1 else 0), r⟩

def connectEvent (P : Platform) (pad : UInt8) (self : Socket) (addr : BtAddr) (r : Ret) :
    Event os :=
  ⟨.connect self.raw (P.literal pad addr).1 (P.literal pad addr).2, r⟩

/-- The error of a nonblocking `connect` that goes on. -/
def pending : Platform → Int
  | .unix _ => EINPROGRESS
  | .windows _ => WSAEWOULDBLOCK

def connectWait : Platform → Socket → Duration → Sys Unit
  | .unix _ => Unix.Socket.connectWait
  | .windows _ => Windows.Socket.connectWait

end Platform

/-- The runs of `connect_timeout`, one constructor for each way through it. -/
inductive TimedConnect (P : Platform) (pad : UInt8) (self : Socket) (addr : BtAddr)
    (timeout : Duration) : Trace os → Except Exit Unit → Prop
  | unswitched {m} : m.value = -1 →
      TimedConnect P pad self addr timeout [P.modeEvent self true m] (.error (.err (.os m.errno)))
  | stuck {m r m'} : m.value ≠ -1 → m'.value = -1 →
      TimedConnect P pad self addr timeout
        [P.modeEvent self true m, P.connectEvent pad self addr r, P.modeEvent self false m']
        (.error (.err (.os m'.errno)))
  | connected {m r m'} : m.value ≠ -1 → m'.value ≠ -1 → r.value ≠ -1 →
      TimedConnect P pad self addr timeout
        [P.modeEvent self true m, P.connectEvent pad self addr r, P.modeEvent self false m']
        (.ok ())
  | refused {m r m'} : m.value ≠ -1 → m'.value ≠ -1 → r.value = -1 → r.errno ≠ P.pending →
      TimedConnect P pad self addr timeout
        [P.modeEvent self true m, P.connectEvent pad self addr r, P.modeEvent self false m']
        (.error (.err (.os r.errno)))
  | waited {m r m' t y} : m.value ≠ -1 → m'.value ≠ -1 → r.value = -1 → r.errno = P.pending →
      Runs (P.connectWait self timeout).run t y →
      TimedConnect P pad self addr timeout
        (P.modeEvent self true m :: P.connectEvent pad self addr r ::
          P.modeEvent self false m' :: t) y

theorem runs_setNonblocking (P : Platform) (self : Socket) (nonblocking : Bool) (t : Trace os)
    (y : Except Exit Unit) :
    Runs (self.setNonblocking P nonblocking).run t y ↔
      ∃ m, t = [P.modeEvent self nonblocking m] ∧
        (m.value = -1 ∧ y = .error (.err (.os m.errno)) ∨ m.value ≠ -1 ∧ y = .ok ()) := by
  cases P with
  | unix target => exact runs_checked (.ioctlFionbio self.raw _) id t y
  | windows w => exact runs_checked (.ioctlsocketFionbio self.raw _) id t y

/-- The match on the result of `connect` at the end of `connect_timeout`. -/
def Platform.afterConnect (P : Platform) (self : Socket) (timeout : Duration) (r : Ret) :
    Sys Unit :=
  match cvt r with
  | .ok _ => pure ()
  | .error e => if e = .os P.pending then P.connectWait self timeout else throw (.err e)

theorem connectTimeout_eq (P : Platform) (pad : UInt8) (self : Socket) (addr : BtAddr)
    (timeout : Duration) :
    self.connectTimeout P pad addr timeout = (do
      self.setNonblocking P true
      let r ← sys (.connect self.raw (P.literal pad addr).1 (P.literal pad addr).2)
      self.setNonblocking P false
      P.afterConnect self timeout r) := by
  cases P with
  | unix target =>
    simp only [Socket.connectTimeout, Unix.Socket.connectTimeout, Platform.literal,
      Socket.setNonblocking]
    refine bind_congr fun _ => bind_congr fun r => bind_congr fun _ => ?_
    -- Unix compares the raw error
    cases result : cvt r with
    | ok v => simp only [Platform.afterConnect, result]
    | error e =>
      obtain ⟨_, rfl⟩ := (cvt_eq_error_iff r e).mp result
      simp [Platform.afterConnect, result, IoError.rawOsError, Platform.pending,
        Platform.connectWait]
  | windows w =>
    simp only [Socket.connectTimeout, Windows.Socket.connectTimeout, Platform.literal,
      Socket.setNonblocking]
    refine bind_congr fun _ => bind_congr fun r => bind_congr fun _ => ?_
    -- Windows compares the kind, which only `WSAEWOULDBLOCK` has
    cases result : cvt r with
    | ok v => simp only [Platform.afterConnect, result]
    | error e =>
      obtain ⟨_, rfl⟩ := (cvt_eq_error_iff r e).mp result
      by_cases going : r.errno = WSAEWOULDBLOCK
      · simp [Platform.afterConnect, result, going, IoError.windowsKind, Platform.pending,
          Platform.connectWait]
      · simp [Platform.afterConnect, result, going, IoError.windowsKind, Platform.pending]

section Runs

variable {P : Platform} {pad : UInt8} {self : Socket} {addr : BtAddr} {timeout : Duration}
  {t : Trace os} {y : Except Exit Unit}

private theorem timedConnect_of_runs (h : Runs (self.connectTimeout P pad addr timeout).run t y) :
    TimedConnect P pad self addr timeout t y := by
  rw [connectTimeout_eq, runs_run_bind] at h
  simp only [runs_setNonblocking] at h
  -- the first switch fails, or the attempt is made
  rcases h with ⟨e, ⟨m, rfl, ⟨failed, eq⟩ | ⟨_, eq⟩⟩, rfl⟩ |
    ⟨_, u, _, rfl, ⟨m, rfl, ⟨_, eq⟩ | ⟨switched, _⟩⟩, h⟩
  · cases eq
    exact .unswitched failed
  · cases eq
  · cases eq
  · rw [runs_sys_bind] at h
    obtain ⟨r, u, rfl, h⟩ := h
    rw [runs_run_bind] at h
    simp only [runs_setNonblocking] at h
    -- the switch back fails and hides the result, or the result is looked at
    rcases h with ⟨e, ⟨m', rfl, ⟨failed, eq⟩ | ⟨_, eq⟩⟩, rfl⟩ |
      ⟨_, v, _, rfl, ⟨m', rfl, ⟨_, eq⟩ | ⟨restored, _⟩⟩, h⟩
    · cases eq
      exact .stuck switched failed
    · cases eq
    · cases eq
    · -- both switches succeeded, so the result of `connect` decides
      unfold Platform.afterConnect at h
      split at h
      · next v connected =>
        obtain ⟨rfl, rfl⟩ := h
        exact .connected switched restored ((cvt_eq_ok_iff r v).mp connected).1
      · next e failed =>
        obtain ⟨unconnected, rfl⟩ := (cvt_eq_error_iff r e).mp failed
        split at h
        · next going =>
          exact .waited switched restored unconnected (IoError.os.inj going) h
        · next refused =>
          obtain ⟨rfl, rfl⟩ := h
          exact .refused switched restored unconnected
            fun same => refused (congrArg IoError.os same)

private theorem runs_of_afterConnect (m r m' : Ret) (switched : m.value ≠ -1)
    (restored : m'.value ≠ -1) (rest : Runs (P.afterConnect self timeout r).run t y) :
    Runs (self.connectTimeout P pad addr timeout).run
      (P.modeEvent self true m :: P.connectEvent pad self addr r :: P.modeEvent self false m' :: t)
      y := by
  have first := (runs_setNonblocking P self true _ _).mpr ⟨m, rfl, Or.inr ⟨switched, rfl⟩⟩
  have connect := Runs.sys (.connect self.raw (P.literal pad addr).1 (P.literal pad addr).2) r
  have last := (runs_setNonblocking P self false _ _).mpr ⟨m', rfl, Or.inr ⟨restored, rfl⟩⟩
  rw [connectTimeout_eq]
  exact first.run_bind (connect.run_bind (last.run_bind rest))

private theorem runs_of_timedConnect (h : TimedConnect P pad self addr timeout t y) :
    Runs (self.connectTimeout P pad addr timeout).run t y := by
  cases h with
  | @unswitched m failed =>
    have first := (runs_setNonblocking P self true _ _).mpr ⟨m, rfl, Or.inl ⟨failed, rfl⟩⟩
    rw [connectTimeout_eq]
    exact first.run_bind_error _
  | @stuck m r m' switched failed =>
    have first := (runs_setNonblocking P self true _ _).mpr ⟨m, rfl, Or.inr ⟨switched, rfl⟩⟩
    have connect := Runs.sys (.connect self.raw (P.literal pad addr).1 (P.literal pad addr).2) r
    have last := (runs_setNonblocking P self false _ _).mpr ⟨m', rfl, Or.inl ⟨failed, rfl⟩⟩
    rw [connectTimeout_eq]
    exact first.run_bind (connect.run_bind (last.run_bind_error _))
  | @connected m r m' switched restored passed =>
    apply runs_of_afterConnect m r m' switched restored
    rw [Platform.afterConnect, (cvt_eq_ok_iff r _).mpr ⟨passed, rfl⟩]
    exact ⟨rfl, rfl⟩
  | @refused m r m' switched restored failed other =>
    apply runs_of_afterConnect m r m' switched restored
    rw [Platform.afterConnect, (cvt_eq_error_iff r _).mpr ⟨failed, rfl⟩]
    dsimp only
    rw [if_neg fun same => other (IoError.os.inj same)]
    exact ⟨rfl, rfl⟩
  | @waited m r m' t y switched restored failed going rest =>
    apply runs_of_afterConnect m r m' switched restored
    rw [Platform.afterConnect, (cvt_eq_error_iff r _).mpr ⟨failed, rfl⟩]
    dsimp only
    rw [if_pos (congrArg IoError.os going)]
    exact rest

end Runs

theorem runs_connectTimeout (P : Platform) (pad : UInt8) (self : Socket) (addr : BtAddr)
    (timeout : Duration) (t : Trace os) (y : Except Exit Unit) :
    Runs (self.connectTimeout P pad addr timeout).run t y ↔
      TimedConnect P pad self addr timeout t y :=
  ⟨timedConnect_of_runs, runs_of_timedConnect⟩

end IoBluetooth
