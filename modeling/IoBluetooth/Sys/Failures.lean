import IoBluetooth.Sys.Runs

/-!
# How functions fail

Making a socket, binding and connecting fail with an `io::Error` only: they do not panic. Making a
socket and binding repeat no call, so they return wherever every call does.
-/
namespace IoBluetooth

open Interaction

/-- An `Err`, as against a panic. -/
def Exit.IsErr (x : Exit) : Prop := ∃ e, x = .err e

theorem fails_sys (c : Call) : Fails (sys c) Exit.IsErr := fails_lift _

theorem fails_check {α : Type} (r : Except IoError α) : Fails (check r) Exit.IsErr := by
  cases r with
  | ok a => exact fails_pure a
  | error e => exact fails_throw _ ⟨e, rfl⟩

/-- A call whose return value is only checked. -/
theorem fails_checked {β : Type} (c : Call) (result : c.Reply → Except IoError β) :
    Fails (do let r ← sys c; let _ ← check (result r); pure () : Sys Unit) Exit.IsErr :=
  (fails_sys c).bind fun _ => (fails_check _).bind fun _ => fails_pure ()

namespace Unix

theorem FileDesc.fails_setCloexec (target : Target) (fd : FileDesc) :
    Fails (fd.setCloexec target) Exit.IsErr := by
  unfold setCloexec
  split
  · exact fails_checked (.ioctlFioclex fd.fd) cvt
  · refine (fails_sys _).bind fun r => (fails_check _).bind fun previous => ?_
    split
    · exact fails_pure ()
    · exact fails_checked (.fcntlSetfd fd.fd (withCloexec previous)) cvt

theorem Socket.fails_newFallback (target : Target) (protocol : BtProtocol) :
    Fails (Socket.newFallback target protocol) Exit.IsErr := by
  refine (fails_sys _).bind fun r => (fails_check _).bind fun fd => Fails.owning ?_ _
  refine (FileDesc.fails_setCloexec target ⟨fd⟩).bind fun _ => Fails.bind ?_ fun _ => fails_pure _
  unfold Socket.setNosigpipe
  split
  · exact fails_checked (.setsockopt fd .int .soNosigpipe (1 : Int)) cvt
  · exact fails_pure ()

theorem Socket.fails_new (target : Target) (protocol : BtProtocol) :
    Fails (Socket.new target protocol) Exit.IsErr := by
  unfold Socket.new
  split
  · refine (fails_sys _).bind fun r => ?_
    split
    · exact fails_pure _
    · next e _ =>
      split
      · exact Socket.fails_newFallback target protocol
      · exact fails_throw _ ⟨e, rfl⟩
  · exact Socket.fails_newFallback target protocol

end Unix

theorem Windows.Socket.fails_new (protocol : BtProtocol) :
    Fails (Windows.Socket.new protocol) Exit.IsErr := by
  refine (fails_sys _).bind fun _ => ?_
  cases protocol with
  | l2cap => exact fails_throw _ ⟨_, rfl⟩
  | rfcomm =>
    refine (fails_sys _).bind fun r => (fails_check _).bind fun s => Fails.owning ?_ _
    exact (fails_checked (.setHandleInformation s) Windows.sysCvt).bind fun _ => fails_pure _

theorem Socket.fails_new (P : Platform) (protocol : BtProtocol) :
    Fails (Socket.new P protocol) Exit.IsErr := by
  cases P with
  | unix target => exact Unix.Socket.fails_new target protocol
  | windows w => exact Windows.Socket.fails_new protocol

theorem BtListener.fails_bind (P : Platform) (addr : BtAddr) (protocol : BtProtocol) :
    Fails (BtListener.bind P addr protocol) Exit.IsErr := by
  refine (Socket.fails_new P protocol).bind fun s => Fails.owning ?_ _
  refine Fails.bind ?_ fun _ => ?_
  · cases P with
    | unix target => exact fails_checked (.setsockopt s.raw .int .soReuseaddr (1 : Int)) cvt
    | windows w => exact fails_pure ()
  · refine (fails_sys _).bind fun r => (fails_check _).bind fun _ => ?_
    exact (fails_sys _).bind fun r => (fails_check _).bind fun _ => fails_pure _

theorem BtStream.fails_connect (P : Platform) (addr : BtAddr) (protocol : BtProtocol) :
    Fails (BtStream.connect P addr protocol) Exit.IsErr := by
  refine (Socket.fails_new P protocol).bind fun s => Fails.owning ?_ _
  exact (fails_lift _).bind fun r => (fails_check r).bind fun _ => fails_pure _

/-! ### Returning -/

section Returns

variable {W : Type} {E : Environment os W}

namespace Unix

theorem FileDesc.returns_setCloexec (target : Target) (self : FileDesc) (responds : Responds E) :
    Returns E (self.setCloexec target).run := by
  unfold setCloexec
  split
  · exact returns_checked responds (.ioctlFioclex self.fd) cvt
  · refine (returns_sys responds _).run_bind fun r => (returns_check _).run_bind fun previous => ?_
    split
    · exact returns_run_pure ()
    · exact returns_checked responds (.fcntlSetfd self.fd (withCloexec previous)) cvt

theorem FileDesc.returns_drop (self : FileDesc) (responds : Responds E) : Returns E self.drop :=
  (returns_perform responds _).bind fun _ => returns_pure ()

theorem Socket.returns_newFallback (target : Target) (protocol : BtProtocol)
    (responds : Responds E) : Returns E (Socket.newFallback target protocol).run := by
  refine (returns_sys responds _).run_bind fun r => (returns_check _).run_bind fun fd => ?_
  refine Returns.owning ?_ (FileDesc.returns_drop ⟨fd⟩ responds)
  refine (FileDesc.returns_setCloexec target ⟨fd⟩ responds).run_bind fun _ =>
    Returns.run_bind ?_ fun _ => returns_run_pure _
  unfold Socket.setNosigpipe
  split
  · exact returns_checked responds (.setsockopt fd .int .soNosigpipe (1 : Int)) cvt
  · exact returns_run_pure ()

theorem Socket.returns_new (target : Target) (protocol : BtProtocol) (responds : Responds E) :
    Returns E (Socket.new target protocol).run := by
  unfold Socket.new
  split
  · refine (returns_sys responds _).run_bind fun r => ?_
    split
    · exact returns_run_pure _
    · split
      · exact Socket.returns_newFallback target protocol responds
      · exact returns_run_throw _
  · exact Socket.returns_newFallback target protocol responds

end Unix

theorem Windows.Socket.returns_drop (self : Socket) (responds : Responds E) :
    Returns E (Windows.Socket.drop self) :=
  (returns_perform responds _).bind fun _ => returns_pure ()

theorem Windows.Socket.returns_new (protocol : BtProtocol) (responds : Responds E) :
    Returns E (Windows.Socket.new protocol).run := by
  refine (returns_sys responds .winsockInit).run_bind fun _ => ?_
  cases protocol with
  | l2cap => exact returns_run_throw _
  | rfcomm =>
    refine (returns_sys responds _).run_bind fun r => (returns_check _).run_bind fun s => ?_
    refine Returns.owning ?_ (Windows.Socket.returns_drop ⟨s⟩ responds)
    exact (returns_checked responds (.setHandleInformation s) Windows.sysCvt).run_bind fun _ =>
      returns_run_pure _

theorem Socket.returns_new (P : Platform) (protocol : BtProtocol) (responds : Responds E) :
    Returns E (Socket.new P protocol).run := by
  cases P with
  | unix target => exact Unix.Socket.returns_new target protocol responds
  | windows w => exact Windows.Socket.returns_new protocol responds

theorem Socket.returns_drop (P : Platform) (self : Socket) (responds : Responds E) :
    Returns E (self.drop P) := by
  cases P with
  | unix target => exact Unix.FileDesc.returns_drop ⟨self.raw⟩ responds
  | windows w => exact Windows.Socket.returns_drop self responds

theorem BtListener.returns_bind (P : Platform) (addr : BtAddr) (protocol : BtProtocol)
    (responds : Responds E) : Returns E (BtListener.bind P addr protocol).run := by
  refine (Socket.returns_new P protocol responds).run_bind fun s =>
    Returns.owning ?_ (s.returns_drop P responds)
  refine Returns.run_bind ?_ fun _ => ?_
  · cases P with
    | unix target =>
      exact returns_checked responds (.setsockopt s.raw .int .soReuseaddr (1 : Int)) cvt
    | windows w => exact returns_run_pure ()
  · refine (returns_sys responds _).run_bind fun r => (returns_check _).run_bind fun _ => ?_
    refine (returns_sys responds _).run_bind fun r => (returns_check _).run_bind fun _ => ?_
    exact returns_run_pure _

end Returns

end IoBluetooth
