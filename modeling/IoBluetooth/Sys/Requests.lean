import IoBluetooth.Bt.Streams
import IoBluetooth.Interaction.Threads
import IoBluetooth.Memory.Relaxed
import IoBluetooth.Properties.DescriptorOwnership

/-!
# Threads that use the crate

What threads may ask of the crate and when: a socket is used by reference as long as it is
alive, and dropped when no thread refers to it any more. The sockets alive, the descriptors
behind them and `TRY_CLOEXEC` are what the threads share.
-/
namespace IoBluetooth

open Interaction Memory Rust

/-- The descriptor that a call is made on. -/
def Call.target : Call → Option Handle
  | .accept s _ | .bind s .. | .connect s .. | .getpeername s _ | .getsockname s _
  | .getsockopt s .. | .listen s _ | .recv s .. | .recvfrom s .. | .send s .. | .sendto s ..
  | .setsockopt s .. | .shutdown s _ | .accept4 s _ | .close s | .fcntlDupfd s
  | .fcntlDupfdCloexec s | .fcntlGetfd s | .fcntlSetfd s _ | .ioctlFioclex s | .ioctlFionbio s _
  | .poll s .. | .wsaDuplicateSocketW s
  | .setHandleInformation s | .ioctlsocketFionbio s _ | .closesocket s | .select s _ => some s
  | _ => none

/-! ### Requests -/

/-- The functions of a stream that do not make another. -/
inductive StreamFn where
  | peek (buf : List UInt8)
  | recv (buf : List UInt8)
  | peekFrom (buf : List UInt8)
  | recvFrom (buf : List UInt8)
  | send (buf : List UInt8)
  | sendTo (buf : List UInt8) (dst : BtAddr)
  | shutdown (how : Shutdown)
  | readTimeout
  | setReadTimeout (dur : Option Duration)
  | writeTimeout
  | setWriteTimeout (dur : Option Duration)
  | setNonblocking (nonblocking : Bool)
  | localAddr
  | peerAddr
  | takeError

def StreamFn.program (P : Platform) (self : BtStream) : StreamFn → Sys Unit
  | peek buf => do let _ ← self.peek P buf; pure ()
  | recv buf => do let _ ← self.recv P buf; pure ()
  | peekFrom buf => do let _ ← self.peekFrom P buf; pure ()
  | recvFrom buf => do let _ ← self.recvFrom P buf; pure ()
  | send buf => do let _ ← self.send P buf; pure ()
  | sendTo buf dst => do let _ ← self.sendTo P buf dst; pure ()
  | shutdown how => self.shutdown how
  | readTimeout => do let _ ← self.readTimeout P; pure ()
  | setReadTimeout dur => self.setReadTimeout P dur
  | writeTimeout => do let _ ← self.writeTimeout P; pure ()
  | setWriteTimeout dur => self.setWriteTimeout P dur
  | setNonblocking nonblocking => self.setNonblocking P nonblocking
  | localAddr => do let _ ← self.localAddr P; pure ()
  | peerAddr => do let _ ← self.peerAddr P; pure ()
  | takeError => do let _ ← self.takeError; pure ()

/-- The functions of a listener that do not make a socket. -/
inductive ListenerFn where
  | setNonblocking (nonblocking : Bool)
  | localAddr
  | takeError

def ListenerFn.program (P : Platform) (self : BtListener) : ListenerFn → Sys Unit
  | setNonblocking nonblocking => self.setNonblocking P nonblocking
  | localAddr => do let _ ← self.localAddr P; pure ()
  | takeError => do let _ ← self.takeError; pure ()

inductive Request where
  | make (op : Operation)
  | bind (protocol : BtProtocol)
  | connect (protocol : BtProtocol)
  | stream (self : BtStream) (f : StreamFn)
  | listener (self : BtListener) (f : ListenerFn)
  | drop (self : Socket)

namespace Request

/-- A request, as far as the socket in its result goes. -/
def program (P : Platform) : Request → Sys (Option Socket)
  | make op => do
    let socket ← op.program P
    pure (some socket)
  | bind protocol => do
    let listener ← Bt.BtListener.bind P protocol
    pure (some listener.imp.inner)
  | connect protocol => do
    let stream ← Bt.BtStream.connect P protocol
    pure (some stream.imp.inner)
  | stream self f => do
    f.program P self
    pure none
  | listener self f => do
    f.program P self
    pure none
  | drop self => do
    ExceptT.lift (self.drop P)
    pure none

/-- The sockets that a request borrows. -/
def borrows : Request → List Socket
  | make op => op.borrows
  | stream self _ => [self.inner]
  | listener self _ => [self.inner]
  | _ => []

/-- The socket that is moved into a request. -/
def moves : Request → Option Socket
  | drop self => some self
  | _ => none

/-- A socket made on Linux, where the first call succeeds. -/
theorem runs_new (protocol : BtProtocol) (fd : Handle) (valid : fd ≠ -1) :
    Runs ((make (.new protocol)).program (.unix .linux)).run
      [⟨.socket true (Unix.Socket.btproto protocol), ⟨fd, 0⟩⟩] (.ok (some ⟨fd⟩)) := by
  have made : Runs (Operation.program (.unix .linux) (.new protocol)).run
      [⟨.socket true (Unix.Socket.btproto protocol), ⟨fd, 0⟩⟩] (.ok ⟨fd⟩) := by
    refine (runs_sys_bind _ _ _ _).mpr ⟨⟨fd, 0⟩, [], rfl, ?_⟩
    rw [(cvt_eq_ok_iff ⟨fd, 0⟩ fd).mpr ⟨valid, rfl⟩]
    exact ⟨rfl, rfl⟩
  exact made.run_bind (.run_pure _)

end Request

/-! ### What the threads share -/

/-- What is known of the system: the replies it may give, and whether the flag is set on what
`F_DUPFD_CLOEXEC` returns. -/
structure Kernel where
  replies : Event os → Prop
  dupfdGuards : Bool

/-- One that may give any reply. -/
def Kernel.any (dupfdGuards : Bool) : Kernel := ⟨fun _ => True, dupfdGuards⟩

/-- What a call does to the descriptors of the crate. -/
def Kernel.effect (K : Kernel) (P : Platform) : Event os → Effect Handle
  | ⟨.fcntlDupfdCloexec _, r⟩ => .ofResult K.dupfdGuards (cvt r)
  | e => P.effect e

structure Shared (ι : Type) where
  ledger : Ledger Handle
  live : List Socket
  tryCloexec : Cell ι Bool

/-- The value that `TRY_CLOEXEC` is initialised with. -/
def Platform.tryCloexec : Platform → Bool
  | .unix .android => false
  | _ => true

variable {ι : Type}

def Shared.start (P : Platform) : Shared ι := ⟨.empty, [], .new P.tryCloexec⟩

variable [DecidableEq ι]

/-- What a call of thread `i` does to `TRY_CLOEXEC`. -/
def Flagged (i : ι) (c : Cell ι Bool) : Event os → Cell ι Bool → Prop
  | ⟨.tryCloexecLoad, value⟩, c' => c.Loads i value c'
  | ⟨.tryCloexecStore value, _⟩, c' => c.Stores i value c'
  | _, c' => c' = c

/-- The crate, used by any number of threads. -/
def crate (P : Platform) (K : Kernel) :
    System ι Request os (Except Exit (Option Socket)) (Shared ι) where
  program q := (q.program P).run
  begins running s q s' := q.borrows ⊆ s.live ∧ match q.moves with
    | none => s' = s
    | some self => self ∈ s.live ∧ (∀ i q', running i = some q' → self ∉ q'.borrows) ∧
        s' = { s with live := s.live.erase self }
  calls i _ s e s' := K.replies e ∧ ledgerOf (K.effect P) s.ledger e s'.ledger ∧
    s'.live = s.live ∧ Flagged i s.tryCloexec e s'.tryCloexec
  returns _ result s s' := match result with
    | .ok (some socket) => s' = { s with live := socket :: s.live }
    | _ => s' = s

end IoBluetooth
