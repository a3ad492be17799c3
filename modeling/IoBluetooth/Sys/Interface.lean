import IoBluetooth.Bt.Address
import IoBluetooth.Sys.Windows.Bthdef
import IoBluetooth.Interaction.Environment
import IoBluetooth.Rust.Duration

/-!
# The operating system as the crate sees it

Every foreign function the crate calls, on Unix and on Windows, is a call; what the
function returns and writes through its pointers is the reply. A return value comes
with the error code that `errno` or `WSAGetLastError` would give right after it. The
iterator that a caller passes is outside as well. All targets have 64 bits.
-/
namespace IoBluetooth

open Interaction Memory Rust

/-- A descriptor on Unix, a `SOCKET` or `HANDLE` on Windows. -/
abbrev Handle := Int

/-- The targets that `cfg!` tells apart on Unix. -/
inductive Target where
  | linux
  | android
  | haiku
  | apple
  -- Solaris, and what `set_cloexec` takes together with it: newlib, Emscripten, Fuchsia and L4Re
  | solaris
  | other
  deriving DecidableEq, Repr

/-- Whether `set_cloexec` is the variant with `FIOCLEX`. -/
def Target.fioclex : Target → Bool
  | .haiku | .solaris => false
  | _ => true

inductive Platform where
  | unix (target : Target)
  | windows (w : Bthdef)

/-! ### Errors -/

inductive ErrorKind where
  | interrupted
  | wouldBlock
  | invalidInput
  | invalidData
  | timedOut
  | other
  deriving DecidableEq, Repr

/-- `io::Error`: a code of the system, or a kind and a message of the crate's own. -/
inductive IoError where
  | os (code : Int)
  | custom (kind : ErrorKind) (message : String)
  deriving DecidableEq, Repr

def FD_CLOEXEC : BitVec 32 := 1

def EINTR : Int := 4
def EINVAL : Int := 22
def ENOSYS : Int := 38
def EISCONN : Int := 106
def EALREADY : Int := 114
def EINPROGRESS : Int := 115
def WSAEFAULT : Int := 10014
def WSAEWOULDBLOCK : Int := 10035
def WSAESHUTDOWN : Int := 10058
def WSA_E_NO_MORE : Int := 10110

namespace IoError

def rawOsError : IoError → Option Int
  | .os code => some code
  | .custom _ _ => none

/-- `kind` on Unix; the crate tests for `Interrupted` only. -/
def unixKind : IoError → ErrorKind
  | .os code => if code = EINTR then .interrupted else .other
  | .custom kind _ => kind

/-- `kind` on Windows; the crate tests for `WouldBlock` only. -/
def windowsKind : IoError → ErrorKind
  | .os code => if code = WSAEWOULDBLOCK then .wouldBlock else .other
  | .custom kind _ => kind

end IoError

/-- How a function of the crate ends without a value. Both ways drop its locals. -/
inductive Exit where
  | err (e : IoError)
  | panic (message : String)
  deriving DecidableEq, Repr

/-! ### Calls and replies -/

structure Ret where
  value : Int
  errno : Int
  deriving DecidableEq, Repr, Inhabited

/-- Bytes written over a socket address, and the length written beside it. -/
structure AddrReply where
  ret : Ret
  addr : List UInt8
  addrlen : Nat
  deriving DecidableEq, Repr, Inhabited

structure RecvReply where
  ret : Ret
  data : List UInt8
  deriving DecidableEq, Repr, Inhabited

structure RecvfromReply where
  ret : Ret
  data : List UInt8
  addr : List UInt8
  addrlen : Nat
  deriving DecidableEq, Repr, Inhabited

structure PollReply where
  ret : Ret
  revents : BitVec 16
  deriving DecidableEq, Repr, Inhabited

/-- `select` leaves in each set the sockets that are ready. -/
structure SelectReply where
  ret : Ret
  writefds : Nat
  errorfds : Nat
  deriving DecidableEq, Repr, Inhabited

structure InquiryReply where
  ret : Ret
  bdaddrs : List (Block 6)
  deriving DecidableEq, Inhabited

structure LookupBeginReply where
  ret : Ret
  handle : Handle
  deriving DecidableEq, Repr, Inhabited

/-- `remoteAddr` is the `SOCKADDR_BTH` that the record written to the buffer points to. -/
structure LookupNextReply where
  ret : Ret
  len : Nat
  remoteAddr : List UInt8
  deriving DecidableEq, Repr, Inhabited

/-- The fields of `WSAPROTOCOL_INFOW` that the crate passes on. -/
structure ProtocolInfo where
  iAddressFamily : Int
  iSocketType : Int
  iProtocol : Int
  deriving DecidableEq, Repr, Inhabited

structure DuplicateReply where
  ret : Ret
  info : ProtocolInfo
  deriving DecidableEq, Repr, Inhabited

inductive SockOpt where
  | soReuseaddr
  | soError
  | soRcvtimeo
  | soSndtimeo
  | soNosigpipe
  deriving DecidableEq, Repr

/-- The types `T` at which `setsockopt<T>` and `getsockopt<T>` are used. -/
inductive OptType where
  | int
  | timeval
  | ulong
  deriving DecidableEq, Repr

structure Timeval where
  tvSec : Int
  tvUsec : Int
  deriving DecidableEq, Repr, Inhabited

/-- A value of the option's type, as it stands in memory. -/
@[reducible] def OptType.Slot : OptType → Type
  | .int => Int
  | .timeval => Timeval
  | .ulong => Nat

instance : (T : OptType) → Inhabited T.Slot
  | .int => ⟨(0 : Int)⟩
  | .timeval => ⟨(default : Timeval)⟩
  | .ulong => ⟨(0 : Nat)⟩

def OptType.size : OptType → Nat
  | .int => 4
  | .timeval => 16
  | .ulong => 4

structure GetsockoptReply (T : OptType) where
  ret : Ret
  slot : T.Slot
  len : Nat
  deriving Inhabited

inductive Shutdown where
  | read
  | write
  | both
  deriving DecidableEq, Repr

/-- The foreign calls. A pointer to a socket address is the bytes behind it that the
length passed with it covers. -/
inductive Call where
  -- `Iterator::next` of the caller's addresses
  | next
  -- `libc` and Winsock
  | accept (s : Handle) (addrlen : Nat)
  | bind (s : Handle) (addr : List UInt8) (addrlen : Nat)
  | connect (s : Handle) (addr : List UInt8) (addrlen : Nat)
  | getpeername (s : Handle) (addrlen : Nat)
  | getsockname (s : Handle) (addrlen : Nat)
  | getsockopt (s : Handle) (T : OptType) (opt : SockOpt)
  | listen (s : Handle) (backlog : Int)
  | recv (s : Handle) (len : Int) (peek : Bool)
  | recvfrom (s : Handle) (len : Int) (peek : Bool) (addrlen : Nat)
  | send (s : Handle) (buf : List UInt8) (len : Int)
  | sendto (s : Handle) (buf : List UInt8) (len : Int) (addr : List UInt8) (addrlen : Nat)
  | setsockopt (s : Handle) (T : OptType) (opt : SockOpt) (payload : T.Slot)
  | shutdown (s : Handle) (how : Shutdown)
  -- `libc` and `libbluetooth`
  | socket (cloexec : Bool) (protocol : Int)
  | accept4 (s : Handle) (addrlen : Nat)
  | close (fd : Handle)
  | fcntlDupfd (fd : Handle)
  | fcntlDupfdCloexec (fd : Handle)
  | fcntlGetfd (fd : Handle)
  | fcntlSetfd (fd : Handle) (flags : Int)
  | ioctlFioclex (fd : Handle)
  | ioctlFionbio (fd : Handle) (nonblocking : Int)
  | poll (fd : Handle) (events : BitVec 16) (timeout : Int)
  | hciGetRoute
  | hciOpenDev (deviceId : Int)
  | hciInquiry (deviceId timeout maxRsp : Int)
  | hciCloseDev (socket : Handle)
  -- process state and clock
  | tryCloexecLoad
  | tryCloexecStore (value : Bool)
  | instantNow
  | elapsed
  -- Winsock and Win32
  | winsockInit
  | wsaSocketW (info : ProtocolInfo)
  | wsaDuplicateSocketW (s : Handle)
  | setHandleInformation (s : Handle)
  | ioctlsocketFionbio (s : Handle) (nonblocking : Nat)
  | closesocket (s : Handle)
  | select (s : Handle) (timeout : Timeval)
  | wsaLookupServiceBeginW
  | wsaLookupServiceNextW (handle : Handle) (len : Nat)
  | wsaLookupServiceEnd (handle : Handle)

@[reducible] def Call.Reply : Call → Type
  | .next => Option BtAddr
  | .accept .. | .accept4 .. | .getpeername .. | .getsockname .. => AddrReply
  | .recv .. => RecvReply
  | .recvfrom .. => RecvfromReply
  | .getsockopt _ T _ => GetsockoptReply T
  | .poll .. => PollReply
  | .select .. => SelectReply
  | .hciInquiry .. => InquiryReply
  | .wsaLookupServiceBeginW => LookupBeginReply
  | .wsaLookupServiceNextW .. => LookupNextReply
  | .wsaDuplicateSocketW .. => DuplicateReply
  | .tryCloexecLoad => Bool
  | .elapsed => Duration
  | .tryCloexecStore .. | .instantNow | .winsockInit => Unit
  | .bind .. | .connect .. | .listen .. | .send .. | .sendto .. | .setsockopt .. | .shutdown ..
  | .socket .. | .close .. | .fcntlDupfd .. | .fcntlDupfdCloexec .. | .fcntlGetfd ..
  | .fcntlSetfd .. | .ioctlFioclex .. | .ioctlFionbio .. | .hciGetRoute | .hciOpenDev ..
  | .hciCloseDev .. | .wsaSocketW .. | .setHandleInformation .. | .ioctlsocketFionbio ..
  | .closesocket .. | .wsaLookupServiceEnd .. => Ret

theorem Call.replied (c : Call) : Nonempty c.Reply := by
  cases c with
  | elapsed => exact ⟨⟨0, 0, by decide, by decide⟩⟩
  | _ => exact ⟨default⟩

abbrev os : Interface := ⟨Call, Call.Reply⟩

/-- A function of the crate that returns an `io::Result`. -/
abbrev Sys (α : Type) := ExceptT Exit (Prog os) α

def sys (c : Call) : Sys c.Reply := ExceptT.lift (@Prog.perform os c)

/-- The `?` operator. -/
def check {α : Type} : Except IoError α → Sys α
  | .ok a => pure a
  | .error e => throw (.err e)

/-- An operation that panics where it has no value. Overflow checks are on. -/
def orPanic {α : Type} (message : String) : Option α → Sys α
  | some a => pure a
  | none => throw (.panic message)

/-- `cvt` of `sys/unix/mod.rs` and of `sys/windows/bt.rs`. -/
def cvt (r : Ret) : Except IoError Int :=
  if r.value = -1 then .error (.os r.errno) else .ok r.value

end IoBluetooth
