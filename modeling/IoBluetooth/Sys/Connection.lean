import IoBluetooth.Interaction.Atomic
import IoBluetooth.Interaction.Duplex
import IoBluetooth.Properties.ByteCounts
import IoBluetooth.Sys.Brief

/-!
# The two ends of a connection

What the system calls that carry bytes do to a connection, and what the functions of a stream say
they have done. The length passed to the system, its count and its errors stand between the two.

The connection loses nothing: it is never reset, so what one end has been told it sent the other end
is still to receive.
-/
namespace IoBluetooth

open Interaction Rust

/-! ### The functions -/

/-- A function of a stream, as far as the bytes in its result go: how many, and the caller's buffer
as it is left. -/
def StreamFn.transfer (P : Platform) (self : BtStream) : StreamFn → Sys (Nat × List UInt8)
  | peek buf => self.peek P buf
  | recv buf => self.recv P buf
  | peekFrom buf => do
    let ((n, _), buf) ← self.peekFrom P buf
    pure (n, buf)
  | recvFrom buf => do
    let ((n, _), buf) ← self.recvFrom P buf
    pure (n, buf)
  | send buf => do
    let n ← self.send P buf
    pure (n, buf)
  | sendTo buf dst => do
    let n ← self.sendTo P buf dst
    pure (n, buf)
  | f => do
    f.program P self
    pure (0, [])

/-- The buffer that a function is called with. -/
def StreamFn.buffer : StreamFn → List UInt8
  | peek buf | recv buf | peekFrom buf | recvFrom buf | send buf | sendTo buf _ => buf
  | _ => []

/-- A count of zero into a buffer that has room is the end of the stream. -/
def receivedMove (peek : Bool) (buf : List UInt8) (n : Nat) (buf' : List UInt8) : Move UInt8 :=
  if n = 0 then (if buf = [] then .nothing else .atEnd)
  else if peek then .looked (buf'.take n) else .took (buf'.take n)

def Shutdown.move : Shutdown → Move UInt8
  | read => .shut false true
  | write => .shut true false
  | both => .shut true true

/-- What a function that returns says it has done. -/
def StreamFn.tells : StreamFn → Nat → List UInt8 → Move UInt8
  | peek buf | peekFrom buf => receivedMove true buf
  | recv buf | recvFrom buf => receivedMove false buf
  | send buf | sendTo buf _ => fun n _ => .put (buf.take n)
  | shutdown how => fun _ _ => how.move
  | _ => fun _ _ => .nothing

/-- What a function has done, according to its result. -/
def StreamFn.move (f : StreamFn) : Except Exit (Nat × List UInt8) → Move UInt8
  | .ok (n, buf') => f.tells n buf'
  | .error _ => .nothing

/-- The count is within the buffer, and what is beyond it is left alone. -/
def StreamFn.Within (f : StreamFn) : Except Exit (Nat × List UInt8) → Prop
  | .ok (n, buf') => n ≤ f.buffer.length ∧ buf'.drop n = f.buffer.drop n
  | .error _ => True

/-! ### The calls -/

/-- The error after which the platform reports the end of the stream. -/
def Platform.readsAsEnd : Platform → Int → Prop
  | .unix _, _ => False
  | .windows _, errno => errno = WSAESHUTDOWN

instance (P : Platform) (errno : Int) : Decidable (P.readsAsEnd errno) := by
  cases P with
  | unix target => exact inferInstanceAs (Decidable False)
  | windows w => exact inferInstanceAs (Decidable (errno = WSAESHUTDOWN))

/-- What a call that receives has done, according to its reply. -/
def Platform.receives (P : Platform) (len : Int) (peek : Bool) (r : Ret) (data : List UInt8) :
    Move UInt8 :=
  if r.value = -1 then (if P.readsAsEnd r.errno then (if len = 0 then .nothing else .atEnd) else .nothing)
  else if r.value = 0 then (if len = 0 then .nothing else .atEnd)
  else if peek then .looked data else .took data

def sends (buf : List UInt8) (r : Ret) : Move UInt8 :=
  if r.value = -1 then .nothing else .put (buf.take r.value.toNat)

/-- What a call has done to the connection. -/
def Platform.move (P : Platform) : Event os → Move UInt8
  | ⟨.recv _ len peek, r⟩ => P.receives len peek (r : RecvReply).ret r.data
  | ⟨.recvfrom _ len peek _, r⟩ => P.receives len peek (r : RecvfromReply).ret r.data
  | ⟨.send _ buf _, r⟩ | ⟨.sendto _ buf _ _ _, r⟩ => sends buf r
  | ⟨.shutdown _ how, r⟩ => if (r : Ret).value = -1 then .nothing else how.move
  | _ => .nothing

/-- A call counts no more than the length it was given, and writes as many bytes as it counts. -/
def Counted : Event os → Prop
  | ⟨.recv _ len _, r⟩ => Counts len (r : RecvReply).ret ∧ r.data.length = r.ret.value.toNat
  | ⟨.recvfrom _ len _ _, r⟩ => Counts len (r : RecvfromReply).ret ∧ r.data.length = r.ret.value.toNat
  | ⟨.send _ _ len, r⟩ | ⟨.sendto _ _ len _ _, r⟩ => Counts len r
  | _ => True

/-! ### Threads at both ends -/

/-- A function called on a stream at one end. -/
structure Use where
  side : Side
  self : BtStream
  f : StreamFn

/-- Any number of threads that use streams at either end of a connection; `ends` are the streams
that refer to it, clones among them. -/
def connection (P : Side → Platform) (ends : Side → BtStream → Prop) (ι : Type) :
    System ι Use os (Except Exit (Nat × List UInt8)) (Duplex UInt8) where
  program q := (q.f.transfer (P q.side) q.self).run
  begins _ D q D' := ends q.side q.self ∧ q.f.buffer.length ≤ isizeMax ∧ D' = D
  calls _ q D e D' := Counted e ∧ D.Does q.side ((P q.side).move e) D'
  returns _ _ D D' := D' = D

/-- The connection as its users see it: a function has done what its result says. -/
def stream : Object Use (Except Exit (Nat × List UInt8)) (Duplex UInt8) := fun q D a D' =>
  q.f.Within a ∧ D.Does q.side (q.f.move a) D'

/-! ### What the functions make of the replies -/

variable {P : Platform} {self : BtStream} {buf data : List UInt8} {len : Int}

theorem StreamFn.brief_transfer (self : BtStream) (f : StreamFn) :
    BriefOn (Call.works self.inner.raw) (f.transfer P self) := by
  have carries {p : Sys (Nat × List UInt8)} (brief : BriefOn (Call.carries self.inner.raw) p) :
      BriefOn (Call.works self.inner.raw) p := brief.mono fun _ => Call.works_of_carries
  cases f with
  | peek buf => exact carries (self.inner.brief_recvWithFlags buf true)
  | recv buf => exact carries (self.inner.brief_recvWithFlags buf false)
  | peekFrom buf =>
    exact carries ((self.inner.brief_recvFromWithFlags buf true).run_bind fun _ =>
      still_run_pure _)
  | recvFrom buf =>
    exact carries ((self.inner.brief_recvFromWithFlags buf false).run_bind fun _ =>
      still_run_pure _)
  | send buf => exact carries ((self.brief_send buf).run_bind fun _ => still_run_pure _)
  | sendTo buf dst => exact carries ((self.brief_sendTo buf dst).run_bind fun _ => still_run_pure _)
  | _ => exact (StreamFn.brief self _).run_bind fun _ => still_run_pure _

/-- What a receiving function returns, and the buffer it leaves. -/
def Platform.report (P : Platform) (buf : List UInt8) (r : Ret) (data : List UInt8) :
    Except Exit (Nat × List UInt8) :=
  if r.value = -1 then
    if P.readsAsEnd r.errno then .ok (0, data ++ buf.drop data.length)
    else .error (.err (.os r.errno))
  else .ok (asUnsigned 64 r.value, data ++ buf.drop data.length)

/-- The length that is passed with a buffer to be received into. -/
def Platform.recvLen : Platform → List UInt8 → Int
  | .unix _, buf => buf.length
  | .windows _, buf => Windows.Socket.recvLen buf

theorem Platform.lengthOf_recvLen (P : Platform) (buf : List UInt8) :
    LengthOf buf (P.recvLen buf) := by
  cases P with
  | unix target => exact lengthOf_length buf
  | windows w => exact Windows.Socket.lengthOf_recvLen buf

/-- How the system ends a reception on Windows, in the words of the crate. -/
theorem Platform.report_windows (w : Bthdef) (buf : List UInt8) (r : Ret) (data : List UInt8) :
    (Platform.windows w).report buf r data =
      if r.value = -1 then
        if r.errno = WSAESHUTDOWN then .ok (0, data ++ buf.drop data.length)
        else .error (.err (.os r.errno))
      else .ok (asUnsigned 64 r.value, data ++ buf.drop data.length) := by
  unfold Platform.report
  congr 1

theorem Platform.report_unix (target : Target) (buf : List UInt8) (r : Ret) (data : List UInt8) :
    (Platform.unix target).report buf r data =
      if r.value = -1 then .error (.err (.os r.errno))
      else .ok (asUnsigned 64 r.value, data ++ buf.drop data.length) := by
  unfold Platform.report
  congr 1

theorem Socket.recvWithFlags_eq (P : Platform) (self : Socket) (buf : List UInt8) (peek : Bool) :
    self.recvWithFlags P buf peek = (do
      let r ← sys (.recv self.raw (P.recvLen buf) peek)
      ExceptT.mk (pure (P.report buf r.ret r.data))) := by
  cases P with
  | unix target =>
    refine congrArg (sys (.recv self.raw buf.length peek) >>= ·) (funext fun r => ?_)
    rw [Platform.report_unix]
    unfold cvt
    split <;> rfl
  | windows w =>
    refine congrArg (sys (.recv self.raw (Windows.Socket.recvLen buf) peek) >>= ·)
      (funext fun r => ?_)
    rw [Platform.report_windows]
    dsimp only
    split
    · split <;> rfl
    · rfl

theorem Socket.recvFromWithFlags_eq (P : Platform) (self : Socket) (buf : List UInt8)
    (peek : Bool) :
    ∃ addrlen, ∃ origin : RecvfromReply → BtAddr, self.recvFromWithFlags P buf peek = (do
      let r ← sys (.recvfrom self.raw (P.recvLen buf) peek addrlen)
      ExceptT.mk (pure ((P.report buf r.ret r.data).map fun (n, buf) => ((n, origin r), buf)))) := by
  cases P with
  | unix target =>
    refine ⟨_, fun r => Unix.rcBdaddr
        (Memory.fill (Memory.zeroed Unix.sizeofSockaddrRc) r.addr),
      congrArg (sys (.recvfrom self.raw buf.length peek _) >>= ·) (funext fun r => ?_)⟩
    rw [Platform.report_unix]
    unfold cvt
    split <;> rfl
  | windows w =>
    refine ⟨_, fun r => Windows.bthAddr w
        (Memory.fill (Memory.zeroed Windows.sizeofSockaddrStorage) r.addr).toList,
      congrArg (sys (.recvfrom self.raw (Windows.Socket.recvLen buf) peek _) >>= ·)
        (funext fun r => ?_)⟩
    rw [Platform.report_windows]
    dsimp only
    split
    · split <;> rfl
    · rfl

theorem LengthOf.eq_zero_iff (given : LengthOf buf len) : len = 0 ↔ buf = [] := by
  constructor
  · intro zero
    by_contra room
    exact absurd zero (Int.ne_of_gt (given.pos room))
  · rintro rfl
    exact Int.le_antisymm given.le given.nonneg

/-- A function that returns this has left its buffer as it should, and says that `m` was done. -/
def Reports (buf : List UInt8) (tells : Nat → List UInt8 → Move UInt8) (m : Move UInt8) :
    Except Exit (Nat × List UInt8) → Prop
  | .ok (n, buf') => n ≤ buf.length ∧ buf'.drop n = buf.drop n ∧ tells n buf' = m
  | .error _ => m = .nothing

theorem Platform.reports (given : LengthOf buf len) (fits : buf.length ≤ isizeMax) {r : Ret}
    (counts : Counts len r) (sized : data.length = r.value.toNat) (peek : Bool) :
    Reports buf (receivedMove peek buf) (P.receives len peek r data) (P.report buf r data) := by
  have le := given.le
  rw [isizeMax] at fits
  rw [Platform.report, Platform.receives]
  rcases counts with failed | ⟨nonneg, bound⟩
  · have empty : data = [] := List.eq_nil_of_length_eq_zero (by rw [sized, failed]; rfl)
    rw [if_pos failed, if_pos failed]
    by_cases ended : P.readsAsEnd r.errno
    · -- a shut down socket reads as the end of the stream
      rw [if_pos ended, if_pos ended, empty]
      exact ⟨Nat.zero_le _, rfl, by simp only [receivedMove, given.eq_zero_iff, ite_true]⟩
    · rw [if_neg ended, if_neg ended]
      rfl
  · have passed : r.value ≠ -1 := by omega
    have count : asUnsigned 64 r.value = data.length := by
      rw [asUnsigned, Int.emod_eq_of_lt nonneg (by omega), sized]
    rw [if_neg passed, if_neg passed, count]
    refine ⟨by omega, by simp, ?_⟩
    rw [receivedMove]
    by_cases none : r.value = 0
    · rw [if_pos (by omega), if_pos none]
      simp only [given.eq_zero_iff]
    · rw [if_neg (by omega), if_neg none, List.take_left' rfl]

theorem Platform.move_of_adjusts {h : Handle} (e : Event os) (adjusts : e.call.adjusts h = true) :
    P.move e = .nothing := by
  obtain ⟨c, r⟩ := e
  cases c <;> first | rfl | cases adjusts

section Functions

variable {e : Event os} {a : Except Exit (Nat × List UInt8)} {peek : Bool}
  (fits : buf.length ≤ isizeMax) (counted : Counted e)

include fits counted

theorem Socket.reports_recv (self : Socket)
    (run : Runs (self.recvWithFlags P buf peek).run [e] a) :
    Reports buf (receivedMove peek buf) (P.move e) a := by
  rw [Socket.recvWithFlags_eq] at run
  obtain ⟨r, u, same, _, rfl⟩ := (runs_sys_bind _ _ _ _).mp run
  cases same
  exact P.reports (P.lengthOf_recvLen buf) fits counted.1 counted.2 peek

theorem Socket.reports_recvFrom (self : Socket)
    (run : Runs (do
      let ((n, _), buf) ← self.recvFromWithFlags P buf peek
      pure (n, buf) : Sys (Nat × List UInt8)).run [e] a) :
    Reports buf (receivedMove peek buf) (P.move e) a := by
  obtain ⟨addrlen, origin, eq⟩ := Socket.recvFromWithFlags_eq P self buf peek
  rw [eq, bind_assoc] at run
  obtain ⟨r, u, same, rest⟩ := (runs_sys_bind _ _ _ _).mp run
  cases same
  have reports := P.reports (P.lengthOf_recvLen buf) fits counted.1 counted.2 peek
  cases report : P.report buf r.ret r.data with
  | ok x =>
    rw [report] at rest reports
    obtain ⟨_, rfl⟩ := rest
    exact reports
  | error x =>
    rw [report] at rest reports
    obtain ⟨_, rfl⟩ := rest
    exact reports

end Functions

section Sending

variable {a : Except Exit (Nat × List UInt8)} {r : Ret} {u : Trace os}

theorem Reports.within {f : StreamFn} {m : Move UInt8} (reports : Reports f.buffer f.tells m a) :
    f.Within a := by
  cases a with
  | ok x => exact ⟨reports.1, reports.2.1⟩
  | error e => exact trivial

theorem Reports.move_eq {f : StreamFn} {m : Move UInt8} (reports : Reports f.buffer f.tells m a) :
    f.move a = m := by
  cases a with
  | ok x => exact reports.2.2
  | error e => exact reports.symm

/-- What a sending function makes of the reply. -/
theorem reports_sent (fits : buf.length ≤ isizeMax) (given : LengthOf buf len)
    (counts : Counts len r)
    (run : Runs (do
      let n ← check (cvt r)
      pure (asUnsigned 64 n, buf) : Sys (Nat × List UInt8)).run u a) :
    Reports buf (fun n _ => .put (buf.take n)) (sends buf r) a := by
  have le := given.le
  rw [isizeMax] at fits
  rw [sends]
  rcases (runs_check_bind _ _ _ _).mp run with ⟨e, failed, _, rfl⟩ | ⟨n, passed, _, rfl⟩
  · exact if_pos ((cvt_eq_error_iff _ _).mp failed).1
  · obtain ⟨value, rfl⟩ := (cvt_eq_ok_iff _ _).mp passed
    rcases counts with failed | ⟨nonneg, bound⟩
    · exact absurd failed value
    · have count : asUnsigned 64 r.value = r.value.toNat := by
        rw [asUnsigned, Int.emod_eq_of_lt nonneg (by omega)]
      rw [if_neg value, count]
      exact ⟨by omega, rfl, rfl⟩

end Sending

theorem StreamFn.transfer_of_adjusts (f : StreamFn) (other : f.carries = false) :
    f.buffer = [] ∧ f.tells = (fun _ _ => .nothing) ∧ f.transfer P self = (do
      f.program P self
      pure (0, [])) := by
  cases f <;> first | exact ⟨rfl, rfl, rfl⟩ | cases other

/-- A function that is not about the bytes does nothing to the connection. -/
theorem StreamFn.reports_adjusts (f : StreamFn) (other : f.carries = false) {e : Event os}
    {a : Except Exit (Nat × List UInt8)} (run : Runs (f.transfer P self).run [e] a) :
    Reports f.buffer f.tells (P.move e) a := by
  obtain ⟨buffer, tells, transfer⟩ := f.transfer_of_adjusts other
  rw [transfer] at run
  have still : P.move e = .nothing := by
    have adjusts : BriefOn (Call.adjusts self.inner.raw)
        (do f.program P self; pure (0, []) : Sys (Nat × List UInt8)) :=
      (f.brief_adjusts self other).run_bind fun _ => still_run_pure _
    exact P.move_of_adjusts e (adjusts.emits [e] run.begins e List.mem_cons_self)
  rw [buffer, tells, still]
  rcases (runs_run_bind _ _ _ _).mp run with ⟨x, _, rfl⟩ | ⟨_, _, _, _, _, _, rfl⟩
  · rfl
  · exact ⟨Nat.zero_le _, rfl, rfl⟩

/-- What a function says it has done is what its call has done. -/
theorem StreamFn.reports (f : StreamFn) (fits : f.buffer.length ≤ isizeMax) {e : Event os}
    {a : Except Exit (Nat × List UInt8)} (run : Runs (f.transfer P self).run [e] a)
    (counted : Counted e) : Reports f.buffer f.tells (P.move e) a := by
  cases f with
  | peek buf => exact self.inner.reports_recv fits counted run
  | recv buf => exact self.inner.reports_recv fits counted run
  | peekFrom buf => exact self.inner.reports_recvFrom fits counted run
  | recvFrom buf => exact self.inner.reports_recvFrom fits counted run
  | send buf =>
    rw [StreamFn.transfer, BtStream.send, bind_assoc] at run
    obtain ⟨r, u, same, rest⟩ := (runs_sys_bind _ _ _ _).mp run
    cases same
    rw [bind_assoc] at rest
    exact reports_sent fits (P.lengthOf_wrlen buf) counted rest
  | sendTo buf dst =>
    rw [StreamFn.transfer, BtStream.sendTo, bind_assoc] at run
    obtain ⟨r, u, same, rest⟩ := (runs_sys_bind _ _ _ _).mp run
    cases same
    rw [bind_assoc] at rest
    exact reports_sent fits (P.lengthOf_wrlen buf) counted rest
  | shutdown how =>
    have checked (t : Trace os) (y : Except Exit Unit) :=
      runs_checked (.shutdown self.inner.raw how) id t y
    rcases (runs_run_bind _ _ _ _).mp run with ⟨x, failed, rfl⟩ | ⟨u, v, _, same, done, _, rfl⟩
    · obtain ⟨r, eq, ⟨value, _⟩ | ⟨_, wrong⟩⟩ := (checked _ _).mp failed
      · cases eq
        exact if_pos value
      · cases wrong
    · obtain ⟨r, rfl, ⟨_, wrong⟩ | ⟨value, _⟩⟩ := (checked _ _).mp done
      · cases wrong
      · cases same
        exact ⟨Nat.zero_le _, rfl, (if_neg value).symm⟩
  | _ => exact StreamFn.reports_adjusts _ rfl run

/-- A function that makes no call is not about the bytes. -/
theorem StreamFn.reports_quiet (f : StreamFn) {a : Except Exit (Nat × List UInt8)}
    (run : Runs (f.transfer P self).run [] a) : Reports f.buffer f.tells .nothing a := by
  cases bytes : f.carries with
  | true =>
    have calls (c : Call) (k : c.Reply → Sys (Nat × List UInt8))
        (eq : f.transfer P self = sys c >>= k) : False := by
      rw [eq] at run
      obtain ⟨r, u, nothing, _⟩ := (runs_sys_bind _ _ _ _).mp run
      cases nothing
    have origin (self : Socket) (buf : List UInt8) (peek : Bool) :=
      Socket.recvFromWithFlags_eq P self buf peek
    cases f with
    | peek buf => exact (calls _ _ (Socket.recvWithFlags_eq P self.inner buf true)).elim
    | recv buf => exact (calls _ _ (Socket.recvWithFlags_eq P self.inner buf false)).elim
    | peekFrom buf =>
      obtain ⟨_, _, eq⟩ := origin self.inner buf true
      exact (calls _ _ ((congrArg (· >>= _) eq).trans (bind_assoc _ _ _))).elim
    | recvFrom buf =>
      obtain ⟨_, _, eq⟩ := origin self.inner buf false
      exact (calls _ _ ((congrArg (· >>= _) eq).trans (bind_assoc _ _ _))).elim
    | send buf => exact (calls _ _ (bind_assoc _ _ _)).elim
    | sendTo buf dst => exact (calls _ _ (bind_assoc _ _ _)).elim
    | shutdown how => exact (calls _ _ (bind_assoc _ _ _)).elim
    | _ => cases bytes
  | false =>
    obtain ⟨buffer, tells, transfer⟩ := f.transfer_of_adjusts bytes
    rw [transfer] at run
    rw [buffer, tells]
    rcases (runs_run_bind _ _ _ _).mp run with ⟨x, _, rfl⟩ | ⟨_, _, _, _, _, _, rfl⟩
    · rfl
    · exact ⟨Nat.zero_le _, rfl, rfl⟩

theorem connection_commits (P : Side → Platform) (ends : Side → BtStream → Prop) (ι : Type) :
    (connection P ends ι).Commits Duplex.new stream Duplex.new
      (fun q => q.f.buffer.length ≤ isizeMax) Eq where
  brief q := ⟨_, q.f.brief_transfer q.self⟩
  starts := rfl
  begins _ _ _ _ _ same admitted := ⟨admitted.2.1, admitted.2.2.trans same⟩
  calls := by
    rintro D _ i q e a D' rfl fits run ⟨counted, does⟩
    have reports := q.f.reports fits run counted
    exact ⟨D', ⟨reports.within, reports.move_eq ▸ does⟩, rfl⟩
  quiet := by
    rintro D _ q a rfl fits run
    have reports := q.f.reports_quiet run
    exact ⟨D, ⟨reports.within, reports.move_eq ▸ .nothing⟩, rfl⟩
  returns _ _ _ _ _ same ended := ended.trans same

end IoBluetooth
