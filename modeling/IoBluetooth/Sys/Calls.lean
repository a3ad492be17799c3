import IoBluetooth.Interaction.Events
import IoBluetooth.Sys.Runs

/-!
# Which calls a function makes

One statement for each function of the crate that a connection goes through, whatever the
system replies. What else is said about the calls of these functions follows from it.
-/
namespace IoBluetooth

open Interaction Memory Rust

variable {Q : Event os → Prop} {α : Type}

theorem emits_sys (c : Call) (h : ∀ r, Q ⟨c, r⟩) : Emits (sys c).run Q :=
  emits_lift (@emits_perform os Q c h)

theorem emits_check (r : Except IoError α) : Emits (check r).run Q := by
  cases r with
  | ok a => exact emits_run_pure a
  | error e => exact emits_run_throw (Exit.err e)

theorem emits_setsockopt (T : OptType) (sock : Socket) (opt : SockOpt) (payload : T.Slot)
    (h : ∀ r, Q ⟨.setsockopt sock.raw T opt payload, r⟩) :
    Emits (setsockopt T sock opt payload).run Q := by
  refine Emits.run_bind (emits_sys _ h) fun r => ?_
  exact Emits.run_bind (emits_check _) fun _ => emits_run_pure _

theorem emits_getsockopt (T : OptType) (sock : Socket) (opt : SockOpt)
    (h : ∀ r, Q ⟨.getsockopt sock.raw T opt, r⟩) : Emits (getsockopt T sock opt).run Q := by
  refine Emits.run_bind (emits_sys _ h) fun r => ?_
  refine Emits.run_bind (emits_check _) fun _ => ?_
  split
  · exact emits_run_pure _
  · exact emits_run_throw _

theorem emits_takeError (self : Socket)
    (h : ∀ r, Q ⟨.getsockopt self.raw .int .soError, r⟩) : Emits self.takeError.run Q :=
  Emits.run_bind (emits_getsockopt _ _ _ h) fun _ => emits_run_pure _

theorem Unix.emits_cvtR {σ : Type} {f : σ → Prog os (Ret × σ)} (h : ∀ s, Emits (f s) Q) (s : σ) :
    Emits (Unix.cvtR f s) Q := by
  refine emits_loop (fun s => (h s).bind fun ⟨ret, s⟩ => ?_) s
  dsimp only
  split
  · split
    · exact emits_pure _
    · exact emits_pure _
  · exact emits_pure _

theorem Platform.emits_cvtR (P : Platform) {f : Prog os Ret} (h : Emits f Q) :
    Emits (P.cvtR f) Q := by
  cases P with
  | unix target => exact (Unix.emits_cvtR (fun _ => h.map _) ()).map _
  | windows w => exact h.map _

/-! ### Creating a socket -/

/-- The calls that create a socket, set it up, and close it again on failure. -/
def Call.setsUp : Call → Bool
  | .socket .. | .fcntlGetfd .. | .fcntlSetfd .. | .ioctlFioclex .. | .setsockopt ..
  | .close .. => true
  | .winsockInit | .wsaSocketW .. | .setHandleInformation .. | .closesocket .. => true
  | _ => false

/-- What the functions below emit when all they do is set up a socket. -/
abbrev SetsUp (e : Event os) : Prop := e.call.setsUp = true

namespace Unix

theorem FileDesc.emits_drop (fd : FileDesc) : Emits fd.drop SetsUp :=
  (emits_perform _ fun _ => rfl).bind fun _ => emits_pure _

/-- `set_cloexec` emits what either of its variants does. -/
theorem FileDesc.emits_cloexec (target : Target) (fd : FileDesc)
    (fioclex : ∀ r, Q ⟨.ioctlFioclex fd.fd, r⟩) (getfd : ∀ r, Q ⟨.fcntlGetfd fd.fd, r⟩)
    (setfd : ∀ previous r, Q ⟨.fcntlSetfd fd.fd (withCloexec previous), r⟩) :
    Emits (fd.setCloexec target).run Q := by
  unfold setCloexec
  split
  · exact Emits.run_bind (emits_sys _ fioclex) fun _ =>
      Emits.run_bind (emits_check _) fun _ => emits_run_pure _
  · refine Emits.run_bind (emits_sys _ getfd) fun _ => Emits.run_bind (emits_check _) fun _ => ?_
    split
    · exact emits_run_pure _
    · exact Emits.run_bind (emits_sys _ (setfd _)) fun _ =>
        Emits.run_bind (emits_check _) fun _ => emits_run_pure _

theorem FileDesc.emits_setCloexec (target : Target) (fd : FileDesc) :
    Emits (fd.setCloexec target).run SetsUp :=
  FileDesc.emits_cloexec target fd (fun _ => rfl) (fun _ => rfl) fun _ _ => rfl

theorem Socket.emits_newFallback (target : Target) (protocol : BtProtocol) :
    Emits (Socket.newFallback target protocol).run SetsUp := by
  refine Emits.run_bind (emits_sys _ fun _ => rfl) fun r => ?_
  refine Emits.run_bind (emits_check _) fun fd => emits_owning ?_ (FileDesc.emits_drop ⟨fd⟩)
  refine Emits.run_bind (FileDesc.emits_setCloexec target ⟨fd⟩) fun _ => ?_
  refine Emits.run_bind ?_ fun _ => emits_run_pure _
  unfold Socket.setNosigpipe
  split
  · exact emits_setsockopt _ _ _ _ fun _ => rfl
  · exact emits_run_pure _

theorem Socket.emits_new (target : Target) (protocol : BtProtocol) :
    Emits (Socket.new target protocol).run SetsUp := by
  unfold Socket.new
  split
  · refine Emits.run_bind (emits_sys _ fun _ => rfl) fun r => ?_
    split
    · exact emits_run_pure _
    · split
      · exact Socket.emits_newFallback target protocol
      · exact emits_run_throw _
  · exact Socket.emits_newFallback target protocol

end Unix

namespace Windows

theorem Socket.emits_drop (self : IoBluetooth.Socket) : Emits (Socket.drop self) SetsUp :=
  (emits_perform _ fun _ => rfl).bind fun _ => emits_pure _

theorem Socket.emits_withNoInherit (s : Handle) : Emits (Socket.withNoInherit s).run SetsUp := by
  refine emits_owning ?_ (Socket.emits_drop ⟨s⟩)
  refine Emits.run_bind ?_ fun _ => emits_run_pure _
  exact Emits.run_bind (emits_sys _ fun _ => rfl) fun _ =>
    Emits.run_bind (emits_check _) fun _ => emits_run_pure _

theorem Socket.emits_new (protocol : BtProtocol) : Emits (Socket.new protocol).run SetsUp := by
  refine Emits.run_bind (emits_sys _ fun _ => rfl) fun _ => ?_
  cases protocol with
  | l2cap => exact emits_run_throw _
  | rfcomm =>
    refine Emits.run_bind (emits_sys _ fun _ => rfl) fun _ => ?_
    exact Emits.run_bind (emits_check _) fun s => Socket.emits_withNoInherit s

end Windows

theorem Socket.emits_new (P : Platform) (protocol : BtProtocol) :
    Emits (Socket.new P protocol).run SetsUp := by
  cases P with
  | unix target => exact Unix.Socket.emits_new target protocol
  | windows w => exact Windows.Socket.emits_new protocol

theorem Socket.emits_drop (P : Platform) (self : Socket) : Emits (self.drop P) SetsUp := by
  cases P with
  | unix target => exact Unix.FileDesc.emits_drop ⟨self.raw⟩
  | windows w => exact Windows.Socket.emits_drop self

/-! ### Connecting within a time -/

namespace Unix

/-- The calls of the Unix `connect_timeout`. -/
inductive ConnectCall (self : IoBluetooth.Socket) (pad : UInt8) (addr : BtAddr)
    (timeout : Duration) : Call → Prop
  | mode (n) : ConnectCall self pad addr timeout (.ioctlFionbio self.raw n)
  | connect : ConnectCall self pad addr timeout
      (.connect self.raw (seen (sockaddrRcLiteral pad addr) sizeofSockaddrRc) sizeofSockaddrRc)
  | start : ConnectCall self pad addr timeout .instantNow
  | elapsed : ConnectCall self pad addr timeout .elapsed
  | poll (elapsed remaining) : timeout.checkedSub elapsed = some remaining →
      ConnectCall self pad addr timeout (.poll self.raw POLLOUT (Socket.pollTimeout remaining))
  | error : ConnectCall self pad addr timeout (.getsockopt self.raw .int .soError)

end Unix

namespace Windows

/-- The calls of the Windows `connect_timeout`. -/
inductive ConnectCall (w : Bthdef) (self : IoBluetooth.Socket) (addr : BtAddr)
    (timeout : Duration) : Call → Prop
  | mode (n) : ConnectCall w self addr timeout (.ioctlsocketFionbio self.raw n)
  | connect : ConnectCall w self addr timeout
      (.connect self.raw (seen (sockaddrBthLiteral w addr) sizeofSockaddrBth) sizeofSockaddrBth)
  | select : timeout.total ≠ 0 →
      ConnectCall w self addr timeout (.select self.raw (Socket.selectTimeout timeout))
  | error : ConnectCall w self addr timeout (.getsockopt self.raw .int .soError)

end Windows

namespace Unix.Socket

variable (self : IoBluetooth.Socket) (pad : UInt8) (addr : BtAddr) (timeout : Duration)

private theorem emits_setNonblocking (nonblocking : Bool)
    (h : ∀ n r, Q ⟨.ioctlFionbio self.raw n, r⟩) :
    Emits (setNonblocking self nonblocking).run Q :=
  Emits.run_bind (emits_sys _ (h _)) fun _ =>
    Emits.run_bind (emits_check _) fun _ => emits_run_pure _

theorem emits_afterPoll (reply : PollReply)
    (h : ∀ r, Q ⟨.getsockopt self.raw .int .soError, r⟩) : Emits (afterPoll self reply).run Q := by
  unfold afterPoll
  split
  · split
    · exact emits_run_throw _
    · exact emits_run_pure _
  · split
    · exact emits_run_pure _
    · refine Emits.run_bind ?_ fun _ => emits_run_pure _
      unfold connectReady
      split
      · exact Emits.run_bind (emits_takeError _ h) fun _ => emits_run_throw _
      · exact emits_run_pure _

private theorem emits_waitTurn :
    Emits (waitTurn self timeout).run fun e => ConnectCall self pad addr timeout e.call := by
  refine Emits.run_bind (emits_sys _ fun _ => .elapsed) fun elapsed => ?_
  split
  · exact emits_run_throw _
  · split
    · exact emits_run_throw _
    · next remaining left =>
      exact Emits.run_bind (emits_sys _ fun _ => .poll elapsed remaining left) fun reply =>
        emits_afterPoll self reply fun _ => .error

theorem emits_connectTimeout :
    Emits (connectTimeout self pad addr timeout).run fun e =>
      ConnectCall self pad addr timeout e.call := by
  refine Emits.run_bind (emits_setNonblocking self true fun _ _ => .mode _) fun _ => ?_
  refine Emits.run_bind (emits_sys _ fun _ => .connect) fun ret => ?_
  refine Emits.run_bind (emits_setNonblocking self false fun _ _ => .mode _) fun _ => ?_
  split
  · exact emits_run_pure _
  · split
    · unfold connectWait
      split
      · exact emits_run_throw _
      · exact Emits.run_bind (emits_sys _ fun _ => .start) fun _ =>
          emits_repeating (fun _ => emits_waitTurn self pad addr timeout) ()
    · exact emits_run_throw _

end Unix.Socket

namespace Windows.Socket

variable (w : Bthdef) (self : IoBluetooth.Socket) (addr : BtAddr) (timeout : Duration)

private theorem emits_setNonblockingWin (nonblocking : Bool)
    (h : ∀ n r, Q ⟨.ioctlsocketFionbio self.raw n, r⟩) :
    Emits (setNonblocking self nonblocking).run Q :=
  Emits.run_bind (emits_sys _ (h _)) fun _ =>
    Emits.run_bind (emits_check _) fun _ => emits_run_pure _

theorem emits_connectTimeout :
    Emits (connectTimeout w self addr timeout).run fun e =>
      ConnectCall w self addr timeout e.call := by
  refine Emits.run_bind (emits_setNonblockingWin self true fun _ _ => .mode _) fun _ => ?_
  refine Emits.run_bind (emits_sys _ fun _ => .connect) fun ret => ?_
  refine Emits.run_bind (emits_setNonblockingWin self false fun _ _ => .mode _) fun _ => ?_
  split
  · exact emits_run_pure _
  · split
    · unfold connectWait
      split
      · exact emits_run_throw _
      · next positive =>
        rw [Duration.isZero_iff] at positive
        refine Emits.run_bind (emits_sys _ fun _ => .select positive) fun reply => ?_
        refine Emits.run_bind (emits_check _) fun n => ?_
        split
        · exact emits_run_throw _
        · split
          · refine Emits.run_bind (emits_takeError _ fun _ => .error) fun e => ?_
            split
            · exact emits_run_throw _
            · exact emits_run_pure _
          · exact emits_run_pure _
    · exact emits_run_throw _

end Windows.Socket
end IoBluetooth
