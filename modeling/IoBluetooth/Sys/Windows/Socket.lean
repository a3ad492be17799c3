import IoBluetooth.Sys.Sockopt

/-! Sockets on Windows, from `src/sys/windows/bt.rs` and `src/sys/windows/mod.rs`. -/
namespace IoBluetooth.Windows

open Interaction Memory Rust

def AF_BTH : Int := 32
def SOCK_STREAM : Int := 1
def BTHPROTO_RFCOMM : Int := 3
/-- `!0` as a 64-bit `SOCKET`. -/
def INVALID_SOCKET : Handle := 2 ^ 64 - 1

/-- `sys::cvt`, for functions that return zero on failure. -/
def sysCvt (r : Ret) : Except IoError Int :=
  if r.value = 0 then .error (.os r.errno) else .ok r.value

/-- The test for `INVALID_SOCKET` on a call that returns a socket. -/
def checkSocket (r : Ret) : Except IoError Handle :=
  if r.value = INVALID_SOCKET then .error (.os r.errno) else .ok r.value

/-- `INFINITE`, the longest timeout. -/
def INFINITE : Nat := 2 ^ 32 - 1

/-- A `c_ulong` of milliseconds: rounded up, and `INFINITE` where there are too many. -/
def dur2timeout (dur : Duration) : Nat :=
  let ms := checkedMul 64 dur.asSecs 1000
  let ms := ms.bind fun ms => checkedAdd 64 ms (dur.subsecNanos / 1000000)
  let ms := ms.bind fun ms => checkedAdd 64 ms (if dur.subsecNanos % 1000000 > 0 then 1 else 0)
  let timeout := ms.map fun (ms : Nat) => if ms > 2 ^ 32 - 1 then INFINITE else asUnsigned 32 ms
  timeout.getD INFINITE

/-! ### Socket addresses -/

/-- `size_of::<SOCKADDR_BTH>()`, a packed structure: `addressFamily` of 2 bytes, `btAddr` of
8, `serviceClassId` of 16, `port` of 4. -/
def sizeofSockaddrBth : Nat := 30

def sizeofSockaddrStorage : Nat := 128

variable (w : Bthdef)

/-- `Into<u64> for &BtAddr`. -/
def toU64 (addr : BtAddr) : UInt64 :=
  let o := addr.octets
  let sap := UInt32.ofNat (leNat #v[o.get 0, o.get 1, o.get 2, o.get 3])
  let nap := UInt16.ofNat (leNat #v[o.get 4, o.get 5])
  w.setNapSap nap sap

/-- `BtAddr::nap_sap(GET_NAP(x), GET_SAP(x))`. -/
def ofU64 (x : UInt64) : BtAddr := BtAddr.napSap (w.getNap x) (w.getSap x)

/-- `btAddr` of the `SOCKADDR_BTH` that starts the bytes `s`, as a `BtAddr`. -/
def bthAddr (s : List UInt8) : BtAddr := ofU64 w (UInt64.ofNat (leNat (field s 2 8)))

/-- `Into<BtAddr> for &sockaddr_storage`. -/
def ofSockaddrStorage (s : Block sizeofSockaddrStorage) : BtAddr := bthAddr w s.toList

/-- `Into<(sockaddr_storage, socklen_t)> for &BtAddr`. -/
def toSockaddrStorage (addr : BtAddr) : Block sizeofSockaddrStorage × Nat :=
  let storage := write (zeroed _) 0 (leBytes 2 AF_BTH.toNat)
  let storage := write storage 2 (leBytes 8 (toU64 w addr).toNat)
  (write storage 10 w.rfcommProtocolUuid, sizeofSockaddrBth)

/-- The `SOCKADDR_BTH` literal of `connect_timeout`: all but the family and the address is
`Default::default()`. -/
def sockaddrBthLiteral (addr : BtAddr) : Block sizeofSockaddrBth :=
  write (write (zeroed _) 0 (leBytes 2 AF_BTH.toNat)) 2 (leBytes 8 (toU64 w addr).toNat)

namespace Socket

def drop (self : Socket) : Prog os Unit := do
  let _ ← @Prog.perform os (.closesocket self.raw)
  pure ()

def setNoInherit (self : Socket) : Sys Unit := do
  let _ ← check (sysCvt (← sys (.setHandleInformation self.raw)))
  pure ()

/-- A socket just obtained, dropped again if its inherit flag cannot be cleared. -/
def withNoInherit (s : Handle) : Sys Socket :=
  owning (drop ⟨s⟩) do
    setNoInherit ⟨s⟩
    pure ⟨s⟩

def new (protocol : BtProtocol) : Sys Socket := do
  sys .winsockInit
  match protocol with
  | .l2cap =>
    throw (.err (.custom .invalidData "L2CAP is currently not supported on Windows"))
  | .rfcomm => do
    let s ← check (checkSocket (← sys (.wsaSocketW ⟨AF_BTH, SOCK_STREAM, BTHPROTO_RFCOMM⟩)))
    withNoInherit s

def accept (self : Socket) : Sys (Socket × BtAddr) := do
  let reply ← sys (.accept self.raw sizeofSockaddrBth)
  let s ← check (checkSocket reply.ret)
  let socket ← withNoInherit s
  pure (socket, bthAddr w (fill (zeroed sizeofSockaddrStorage) reply.addr).toList)

def duplicate (self : Socket) : Sys Socket := do
  let reply ← sys (.wsaDuplicateSocketW self.raw)
  let _ ← check (cvt reply.ret)
  let s ← check (checkSocket (← sys (.wsaSocketW reply.info)))
  withNoInherit s

def setNonblocking (self : Socket) (nonblocking : Bool) : Sys Unit := do
  let _ ← check (cvt (← sys (.ioctlsocketFionbio self.raw (if nonblocking then 1 else 0))))
  pure ()

/-! ### `connect_timeout` -/

/-- The `timeval` for `select`; `c_long` has 32 bits. -/
def selectTimeout (timeout : Duration) : Timeval :=
  let tvSec := asSigned 32 timeout.asSecs
  let tvUsec := asSigned 32 timeout.subsecMicros
  ⟨tvSec, if tvSec = 0 ∧ tvUsec = 0 then 1 else tvUsec⟩

/-- Everything after the nonblocking `connect` reported `WouldBlock`. -/
def connectWait (self : Socket) (timeout : Duration) : Sys Unit := do
  -- `connect` was already called when the argument is checked
  if timeout.asSecs = 0 ∧ timeout.subsecNanos = 0 then throw (.err zeroTimeout)
  else do
    let reply ← sys (.select self.raw (selectTimeout timeout))
    let n ← check (cvt reply.ret)
    if n = 0 then throw (.err timedOut)
    -- not writable, so `errorfds` has it; the error may be gone all the same
    else if reply.writefds ≠ 1 then
      match ← self.takeError with
      | some e => throw (.err e)
      | none => pure ()
    else pure ()

def connectTimeout (self : Socket) (addr : BtAddr) (timeout : Duration) : Sys Unit := do
  setNonblocking self true
  let sockaddr := sockaddrBthLiteral w addr
  let ret ← sys (.connect self.raw (seen sockaddr sizeofSockaddrBth) sizeofSockaddrBth)
  -- where the switch back fails, the result of `connect` is lost
  setNonblocking self false
  match cvt ret with
  | .ok _ => pure ()
  | .error e =>
    if e.windowsKind = .wouldBlock then connectWait self timeout else throw (.err e)

/-! ### Receiving -/

/-- The length of a buffer as a `c_int`. -/
def recvLen (buf : List UInt8) : Int := asSigned 32 (min buf.length (2 ^ 31 - 1) : Nat)

/-- The caller's buffer comes back with the received bytes over its front. -/
def recvFromWithFlags (self : Socket) (buf : List UInt8) (peek : Bool) :
    Sys ((Nat × BtAddr) × List UInt8) := do
  let reply ← sys (.recvfrom self.raw (recvLen buf) peek sizeofSockaddrBth)
  let addr := bthAddr w (fill (zeroed sizeofSockaddrStorage) reply.addr).toList
  let buf := reply.data ++ buf.drop reply.data.length
  if reply.ret.value = -1 then
    -- a shut down socket reads as the end of the stream, as on Unix
    if reply.ret.errno = WSAESHUTDOWN then pure ((0, addr), buf)
    else throw (.err (.os reply.ret.errno))
  else pure ((asUnsigned 64 reply.ret.value, addr), buf)

def recvWithFlags (self : Socket) (buf : List UInt8) (peek : Bool) : Sys (Nat × List UInt8) := do
  let reply ← sys (.recv self.raw (recvLen buf) peek)
  let buf := reply.data ++ buf.drop reply.data.length
  if reply.ret.value = -1 then
    if reply.ret.errno = WSAESHUTDOWN then pure (0, buf) else throw (.err (.os reply.ret.errno))
  else pure (asUnsigned 64 reply.ret.value, buf)

/-! ### Timeouts -/

def setTimeout (self : Socket) (dur : Option Duration) (kind : SockOpt) : Sys Unit := do
  let timeout ← match dur with
    | some dur =>
      let timeout := dur2timeout dur
      if timeout = 0 then
        throw (.err (.custom .invalidData "cannot set a 0 duration timeout"))
      else pure timeout
    | none => pure 0
  setsockopt .ulong self kind timeout

def timeout (self : Socket) (kind : SockOpt) : Sys (Option Duration) := do
  let raw : Nat ← getsockopt .ulong self kind
  if raw = 0 then pure none
  else do
    let secs := raw / 1000
    let nsec ← orPanic "attempt to multiply with overflow" (checkedMul 32 (raw % 1000) 1000000)
    let dur ← orPanic "overflow in Duration::new" (Duration.new secs nsec)
    pure (some dur)

end Socket
end IoBluetooth.Windows
