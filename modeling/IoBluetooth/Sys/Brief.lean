import IoBluetooth.Interaction.Brief
import IoBluetooth.Sys.Requests

/-!
# Functions of one call

A function of a stream or a listener that makes no other makes at most one system call, which is on
its socket.
-/
namespace IoBluetooth

open Interaction Rust

variable {P : Platform} {α β : Type}

/-- The calls that carry bytes, or end a direction in which bytes are carried. -/
def Call.carries (h : Handle) : Call → Bool
  | .recv s .. | .recvfrom s .. | .send s .. | .sendto s .. | .shutdown s _ => s == h
  | _ => false

/-- The calls that read or set what belongs to a socket. -/
def Call.adjusts (h : Handle) : Call → Bool
  | .getpeername s _ | .getsockname s _ | .getsockopt s .. | .setsockopt s .. | .ioctlFionbio s _
  | .ioctlsocketFionbio s _ => s == h
  | _ => false

/-- Those of them that set no option. -/
def Call.spares (h : Handle) : Call → Bool
  | .getpeername s _ | .getsockname s _ | .getsockopt s .. | .ioctlFionbio s _
  | .ioctlsocketFionbio s _ => s == h
  | _ => false

/-- The calls with which a function works with one socket. -/
def Call.works (h : Handle) : Call → Bool
  | .bind s .. | .connect s .. | .getpeername s _ | .getsockname s _ | .getsockopt s ..
  | .listen s _ | .recv s .. | .recvfrom s .. | .send s .. | .sendto s .. | .setsockopt s ..
  | .shutdown s _ | .ioctlFionbio s _ | .poll s .. | .ioctlsocketFionbio s _ | .select s _ => s == h
  | .instantNow | .elapsed => true
  | _ => false

abbrev Works (h : Handle) (e : Event os) : Prop := e.call.works h = true

/-- A program whose one call is of this kind. -/
abbrev BriefOn (kind : Call → Bool) (p : Sys α) : Prop :=
  Brief (fun c : Call => kind c = true) p.run

theorem Call.works_of_carries {h : Handle} {c : Call} (carries : c.carries h = true) :
    c.works h = true := by
  cases c <;> first | exact carries | cases carries

theorem Call.works_of_adjusts {h : Handle} {c : Call} (adjusts : c.adjusts h = true) :
    c.works h = true := by
  cases c <;> first | exact adjusts | cases adjusts

theorem Call.adjusts_of_spares {h : Handle} {c : Call} (spares : c.spares h = true) :
    c.adjusts h = true := by
  cases c <;> first | exact spares | cases spares

section Rules

variable {kind : Call → Bool}

theorem still_check (r : Except IoError α) : Still (check r).run := by
  cases r with
  | ok a => exact still_run_pure a
  | error e => exact still_run_throw _

theorem still_orPanic (message : String) (o : Option α) : Still (orPanic message o).run := by
  cases o with
  | some a => exact still_run_pure a
  | none => exact still_run_throw _

theorem brief_sys (c : Call) (on : kind c = true) {f : c.Reply → Sys α}
    (still : ∀ r, Still (f r).run) : BriefOn kind (sys c >>= f) :=
  @Brief.call _ _ _ c (fun r => (f r).run) on still

/-- A call whose reply is checked by the `?` operator first. -/
theorem brief_checked (c : Call) (on : kind c = true) (result : c.Reply → Except IoError β)
    {f : c.Reply → β → Sys α} (still : ∀ r b, Still (f r b).run) :
    BriefOn kind (sys c >>= fun r => check (result r) >>= f r) :=
  brief_sys c on fun r => (still_check _).run_bind (still r)

end Rules

theorem brief_setsockopt {kind : Call → Bool} (T : OptType) (sock : Socket) (opt : SockOpt)
    (payload : T.Slot) (on : kind (.setsockopt sock.raw T opt payload) = true) :
    BriefOn kind (setsockopt T sock opt payload) :=
  brief_checked (.setsockopt sock.raw T opt payload) on cvt fun _ _ => still_run_pure _

theorem brief_getsockopt (T : OptType) (sock : Socket) (opt : SockOpt) :
    BriefOn (Call.spares sock.raw) (getsockopt T sock opt) := by
  refine brief_checked (.getsockopt sock.raw T opt) (beq_self_eq_true sock.raw)
    (fun r => cvt r.ret) fun r _ => ?_
  split
  · exact still_run_pure _
  · exact still_run_throw _

namespace Socket

variable (self : Socket)

theorem brief_setNonblocking (nonblocking : Bool) :
    BriefOn (Call.spares self.raw) (self.setNonblocking P nonblocking) := by
  cases P with
  | unix target =>
    exact brief_checked (.ioctlFionbio self.raw _) (beq_self_eq_true self.raw) cvt
      fun _ _ => still_run_pure _
  | windows w =>
    exact brief_checked (.ioctlsocketFionbio self.raw _) (beq_self_eq_true self.raw) cvt
      fun _ _ => still_run_pure _

theorem brief_shutdown (how : Shutdown) : BriefOn (Call.carries self.raw) (self.shutdown how) :=
  brief_checked (.shutdown self.raw how) (beq_self_eq_true self.raw) cvt fun _ _ => still_run_pure _

theorem brief_takeError : BriefOn (Call.spares self.raw) self.takeError :=
  (brief_getsockopt .int self .soError).run_bind fun _ => still_run_pure _

theorem brief_recvWithFlags (buf : List UInt8) (peek : Bool) :
    BriefOn (Call.carries self.raw) (self.recvWithFlags P buf peek) := by
  cases P with
  | unix target =>
    exact brief_checked (.recv self.raw _ peek) (beq_self_eq_true self.raw) (fun r => cvt r.ret)
      fun _ _ => still_run_pure _
  | windows w =>
    refine brief_sys (.recv self.raw _ peek) (beq_self_eq_true self.raw) fun r => ?_
    split
    · split
      · exact still_run_pure _
      · exact still_run_throw _
    · exact still_run_pure _

theorem brief_recvFromWithFlags (buf : List UInt8) (peek : Bool) :
    BriefOn (Call.carries self.raw) (self.recvFromWithFlags P buf peek) := by
  cases P with
  | unix target =>
    exact brief_checked (.recvfrom self.raw _ peek _) (beq_self_eq_true self.raw)
      (fun r => cvt r.ret) fun _ _ => still_run_pure _
  | windows w =>
    refine brief_sys (.recvfrom self.raw _ peek _) (beq_self_eq_true self.raw) fun r => ?_
    dsimp only
    split
    · split
      · exact still_run_pure _
      · exact still_run_throw _
    · exact still_run_pure _

theorem brief_setTimeout (dur : Option Duration) (opt : SockOpt) {kind : Call → Bool}
    (on : ∀ T payload, kind (.setsockopt self.raw T opt payload) = true) :
    BriefOn kind (self.setTimeout P dur opt) := by
  cases P with
  | unix target =>
    have sets (timeout : Timeval) : BriefOn kind (setsockopt .timeval self opt timeout) :=
      brief_setsockopt .timeval self opt timeout (on _ _)
    change BriefOn kind (Unix.Socket.setTimeout target self dur opt)
    unfold Unix.Socket.setTimeout
    cases dur with
    | none => exact (still_run_pure _).run_bind_brief sets
    | some dur =>
      dsimp only
      split
      · exact (still_run_throw _).run_bind_brief sets
      · exact (still_run_pure _).run_bind_brief sets
  | windows w =>
    have sets (timeout : Nat) : BriefOn kind (setsockopt .ulong self opt timeout) :=
      brief_setsockopt .ulong self opt timeout (on _ _)
    change BriefOn kind (Windows.Socket.setTimeout self dur opt)
    unfold Windows.Socket.setTimeout
    cases dur with
    | none => exact (still_run_pure _).run_bind_brief sets
    | some dur =>
      dsimp only
      split
      · exact (still_run_throw _).run_bind_brief sets
      · exact (still_run_pure _).run_bind_brief sets

theorem brief_timeout (kind : SockOpt) : BriefOn (Call.spares self.raw) (self.timeout P kind) := by
  cases P with
  | unix target =>
    refine (brief_getsockopt .timeval self kind).run_bind fun raw => ?_
    split
    · exact still_run_pure _
    · exact (still_orPanic _ _).run_bind fun _ =>
        (still_orPanic _ _).run_bind fun _ => still_run_pure _
  | windows w =>
    refine (brief_getsockopt .ulong self kind).run_bind fun raw => ?_
    split
    · exact still_run_pure _
    · exact (still_orPanic _ _).run_bind fun _ =>
        (still_orPanic _ _).run_bind fun _ => still_run_pure _

end Socket

namespace BtStream

variable (self : BtStream)

theorem brief_send (buf : List UInt8) : BriefOn (Call.carries self.inner.raw) (self.send P buf) :=
  brief_checked (.send self.inner.raw buf _) (beq_self_eq_true self.inner.raw) cvt
    fun _ _ => still_run_pure _

theorem brief_sendTo (buf : List UInt8) (dst : BtAddr) :
    BriefOn (Call.carries self.inner.raw) (self.sendTo P buf dst) :=
  brief_checked (.sendto self.inner.raw buf _ _ _) (beq_self_eq_true self.inner.raw) cvt
    fun _ _ => still_run_pure _

end BtStream

theorem brief_discard {kind : Call → Bool} {p : Sys α} (brief : BriefOn kind p) :
    BriefOn kind (do let _ ← p; pure ()) :=
  brief.run_bind fun _ => still_run_pure _

/-- The functions of a stream that are about its bytes. -/
def StreamFn.carries : StreamFn → Bool
  | peek _ | recv _ | peekFrom _ | recvFrom _ | send _ | sendTo .. | shutdown _ => true
  | _ => false

/-- The timeout that a function of a stream sets, and to what. -/
def StreamFn.sets : StreamFn → Option (SockOpt × Option Duration)
  | setReadTimeout dur => some (.soRcvtimeo, dur)
  | setWriteTimeout dur => some (.soSndtimeo, dur)
  | _ => none

theorem StreamFn.brief_spares (self : BtStream) (f : StreamFn) (other : f.carries = false)
    (sets : f.sets = none) : BriefOn (Call.spares self.inner.raw) (f.program P self) := by
  cases f with
  | peek | recv | peekFrom | recvFrom | send | sendTo | shutdown => cases other
  | setReadTimeout | setWriteTimeout => cases sets
  | readTimeout => exact brief_discard (self.inner.brief_timeout _)
  | writeTimeout => exact brief_discard (self.inner.brief_timeout _)
  | setNonblocking nonblocking => exact self.inner.brief_setNonblocking nonblocking
  | localAddr =>
    exact brief_discard (brief_checked (.getsockname self.inner.raw _)
      (beq_self_eq_true self.inner.raw) (fun r => cvt r.ret) fun _ _ => still_run_pure _)
  | peerAddr =>
    exact brief_discard (brief_checked (.getpeername self.inner.raw _)
      (beq_self_eq_true self.inner.raw) (fun r => cvt r.ret) fun _ _ => still_run_pure _)
  | takeError => exact brief_discard self.inner.brief_takeError

theorem StreamFn.brief_adjusts (self : BtStream) (f : StreamFn) (other : f.carries = false) :
    BriefOn (Call.adjusts self.inner.raw) (f.program P self) := by
  have spares (sets : f.sets = none) : BriefOn (Call.adjusts self.inner.raw) (f.program P self) :=
    (f.brief_spares self other sets).mono fun _ => Call.adjusts_of_spares
  cases f with
  | setReadTimeout dur =>
    exact self.inner.brief_setTimeout dur .soRcvtimeo fun _ _ => beq_self_eq_true _
  | setWriteTimeout dur =>
    exact self.inner.brief_setTimeout dur .soSndtimeo fun _ _ => beq_self_eq_true _
  | _ => exact spares rfl

theorem StreamFn.brief_carries (self : BtStream) (f : StreamFn) (bytes : f.carries = true) :
    BriefOn (Call.carries self.inner.raw) (f.program P self) := by
  cases f with
  | peek buf => exact brief_discard (self.inner.brief_recvWithFlags buf true)
  | recv buf => exact brief_discard (self.inner.brief_recvWithFlags buf false)
  | peekFrom buf => exact brief_discard (self.inner.brief_recvFromWithFlags buf true)
  | recvFrom buf => exact brief_discard (self.inner.brief_recvFromWithFlags buf false)
  | send buf => exact brief_discard (self.brief_send buf)
  | sendTo buf dst => exact brief_discard (self.brief_sendTo buf dst)
  | shutdown how => exact self.inner.brief_shutdown how
  | _ => cases bytes

theorem StreamFn.brief (self : BtStream) (f : StreamFn) :
    BriefOn (Call.works self.inner.raw) (f.program P self) := by
  cases bytes : f.carries with
  | true => exact (f.brief_carries self bytes).mono fun _ => Call.works_of_carries
  | false => exact (f.brief_adjusts self bytes).mono fun _ => Call.works_of_adjusts

theorem ListenerFn.brief_spares (self : BtListener) (f : ListenerFn) :
    BriefOn (Call.spares self.inner.raw) (f.program P self) := by
  cases f with
  | setNonblocking nonblocking => exact self.inner.brief_setNonblocking nonblocking
  | localAddr =>
    exact brief_discard (brief_checked (.getsockname self.inner.raw _)
      (beq_self_eq_true self.inner.raw) (fun r => cvt r.ret) fun _ _ => still_run_pure _)
  | takeError => exact brief_discard self.inner.brief_takeError

theorem ListenerFn.brief (self : BtListener) (f : ListenerFn) :
    BriefOn (Call.works self.inner.raw) (f.program P self) :=
  (f.brief_spares self).mono fun _ on => Call.works_of_adjusts (Call.adjusts_of_spares on)

end IoBluetooth
