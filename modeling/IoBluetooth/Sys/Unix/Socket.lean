import IoBluetooth.Sys.Sockopt
import IoBluetooth.Sys.Unix.FileDesc

/-! Sockets on Unix, from `src/sys/unix/bt.rs`. -/
namespace IoBluetooth.Unix

open Interaction Memory Rust

def AF_BLUETOOTH : Nat := 31
def BTPROTO_L2CAP : Int := 0
def BTPROTO_RFCOMM : Int := 3
def POLLOUT : BitVec 16 := 0x004
def POLLERR : BitVec 16 := 0x008
def POLLHUP : BitVec 16 := 0x010
def POLLNVAL : BitVec 16 := 0x020

/-! ### Socket addresses -/

/-- `size_of::<sockaddr_rc>()`: a family of 2 bytes, an address of 6, a channel of 1, and one
byte of padding. -/
def sizeofSockaddrRc : Nat := 10

def sizeofSockaddrStorage : Nat := 128

/-- `rc_bdaddr.b` of the `sockaddr_rc` that starts a block. -/
def rcBdaddr {n : Nat} (s : Block n) : BtAddr := ⟨field s.toList 2 6⟩

/-- The three fields of a `sockaddr_rc` as both encoders of the crate set them. -/
def setSockaddrRc {n : Nat} (s : Block n) (addr : BtAddr) : Block n :=
  write (write (write s 0 (leBytes 2 AF_BLUETOOTH)) 2 addr.octets) 8 (leBytes 1 1)

/-- `Into<BtAddr> for &sockaddr_storage`. -/
def ofSockaddrStorage (s : Block sizeofSockaddrStorage) : BtAddr := rcBdaddr s

/-- `Into<(sockaddr_storage, socklen_t)> for &BtAddr`. -/
def toSockaddrStorage (addr : BtAddr) : Block sizeofSockaddrStorage × Nat :=
  (setSockaddrRc (zeroed _) addr, sizeofSockaddrRc)

/-- The `sockaddr_rc` literal of `connect_timeout`. A literal leaves the padding byte
unspecified: here it is `pad`. -/
def sockaddrRcLiteral (pad : UInt8) (addr : BtAddr) : Block sizeofSockaddrRc :=
  setSockaddrRc (Vector.replicate _ pad) addr

namespace Socket

/-- Dropping a `Socket` drops its `FileDesc`. -/
def drop (self : Socket) : Prog os Unit := FileDesc.drop ⟨self.raw⟩

def btproto : BtProtocol → Int
  | .l2cap => BTPROTO_L2CAP
  | .rfcomm => BTPROTO_RFCOMM

/-- The block of `new` for Apple's systems, which take a socket option for `SIGPIPE`. -/
def setNosigpipe (target : Target) (self : Socket) : Sys Unit :=
  if target = .apple then setsockopt .int self .soNosigpipe (1 : Int) else pure ()

def newFallback (target : Target) (protocol : BtProtocol) : Sys Socket := do
  let fd ← check (cvt (← sys (.socket false (btproto protocol))))
  owning (FileDesc.drop ⟨fd⟩) do
    FileDesc.setCloexec target ⟨fd⟩
    setNosigpipe target ⟨fd⟩
    pure ⟨fd⟩

def new (target : Target) (protocol : BtProtocol) : Sys Socket := do
  if target = .linux then
    match cvt (← sys (.socket true (btproto protocol))) with
    | .ok fd => pure ⟨fd⟩
    | .error e =>
      -- kernels that do not know `SOCK_CLOEXEC` answer with `EINVAL`
      if e.rawOsError = some EINVAL then newFallback target protocol else throw (.err e)
  else newFallback target protocol

/-- What `accept4` and `accept` do to the captured `addr` and `len`. -/
def acceptInto (call : Nat → Prog os AddrReply) (s : Block sizeofSockaddrRc × Nat) :
    Prog os (Ret × Block sizeofSockaddrRc × Nat) := do
  let reply ← call s.2
  pure (reply.ret, fill s.1 reply.addr, reply.addrlen)

def acceptFallback (target : Target) (self : Socket) (s : Block sizeofSockaddrRc × Nat) :
    Sys (Socket × BtAddr) := do
  let (res, addr, _) ← ExceptT.lift
    (cvtR (acceptInto fun len => @Prog.perform os (.accept self.raw len)) s)
  let fd ← check res
  owning (FileDesc.drop ⟨fd⟩) do
    FileDesc.setCloexec target ⟨fd⟩
    pure (⟨fd⟩, rcBdaddr addr)

def accept (target : Target) (self : Socket) : Sys (Socket × BtAddr) := do
  let s := (zeroed sizeofSockaddrRc, sizeofSockaddrRc)
  if target = .linux then
    let (res, s) ← ExceptT.lift
      (cvtR (acceptInto fun len => @Prog.perform os (.accept4 self.raw len)) s)
    match res with
    | .ok fd => pure (⟨fd⟩, rcBdaddr s.1)
    -- the fallback goes on with what the failed call left in `addr` and `len`
    | .error e => if e.rawOsError = some ENOSYS then acceptFallback target self s else throw (.err e)
  else acceptFallback target self s

def setNonblocking (self : Socket) (nonblocking : Bool) : Sys Unit := do
  let _ ← check (cvt (← sys (.ioctlFionbio self.raw (if nonblocking then 1 else 0))))
  pure ()

/-! ### `connect_timeout` -/

/-- The argument of `poll` for the time remaining: milliseconds, at least one, and no more
than a `c_int` holds. -/
def pollTimeout (remaining : Duration) : Int :=
  let ms := saturatingAdd 64 (saturatingMul 64 remaining.asSecs 1000)
    (remaining.subsecNanos / 1000000)
  -- zero would make `poll` return at once
  let ms := if ms = 0 then 1 else ms
  asSigned 32 (min ms (2 ^ 31 - 1) : Nat)

/-- What a positive `poll` leads to. -/
def connectReady (self : Socket) (revents : BitVec 16) : Sys Unit := do
  -- linux returns POLLOUT|POLLERR|POLLHUP for refused connections, so only POLLHUP is looked for
  if revents &&& POLLHUP ≠ 0 then
    let e ← self.takeError
    throw (.err (e.getD (.custom .other "no error set after POLLHUP")))

/-- The match on what `poll` returned; `.inl` goes round again. -/
def afterPoll (self : Socket) (reply : PollReply) : Sys (Unit ⊕ Unit) :=
  if reply.ret.value = -1 then
    if (IoError.os reply.ret.errno).unixKind ≠ .interrupted then
      throw (.err (.os reply.ret.errno))
    -- a signal: the time that is left is computed anew
    else pure (.inl ())
  else if reply.ret.value = 0 then pure (.inl ())
  else do
    connectReady self reply.revents
    pure (.inr ())

/-- One turn of the `loop`. -/
def waitTurn (self : Socket) (timeout : Duration) : Sys (Unit ⊕ Unit) := do
  let elapsed ← sys .elapsed
  if timeout.le elapsed then throw (.err timedOut)
  else match timeout.checkedSub elapsed with
    | none => throw (.panic "overflow when subtracting durations")
    | some remaining => do
      let reply ← sys (.poll self.raw POLLOUT (pollTimeout remaining))
      afterPoll self reply

def waitLoop (self : Socket) (timeout : Duration) : Sys Unit :=
  repeating (fun _ => waitTurn self timeout) ()

/-- Everything after the nonblocking `connect` reported that it is in progress. -/
def connectWait (self : Socket) (timeout : Duration) : Sys Unit := do
  -- `connect` was already called when the argument is checked
  if timeout.asSecs = 0 ∧ timeout.subsecNanos = 0 then throw (.err zeroTimeout)
  else do
    sys .instantNow
    waitLoop self timeout

def connectTimeout (self : Socket) (pad : UInt8) (addr : BtAddr) (timeout : Duration) :
    Sys Unit := do
  setNonblocking self true
  let sockaddr := sockaddrRcLiteral pad addr
  let ret ← sys (.connect self.raw (seen sockaddr sizeofSockaddrRc) sizeofSockaddrRc)
  -- where the switch back fails, the result of `connect` is lost
  setNonblocking self false
  match cvt ret with
  | .ok _ => pure ()
  | .error e =>
    if e.rawOsError = some EINPROGRESS then connectWait self timeout else throw (.err e)

/-! ### Receiving -/

/-- The caller's buffer comes back with the received bytes over its front. -/
def recvFromWithFlags (self : Socket) (buf : List UInt8) (peek : Bool) :
    Sys ((Nat × BtAddr) × List UInt8) := do
  let addr := zeroed sizeofSockaddrRc
  let reply ← sys (.recvfrom self.raw buf.length peek sizeofSockaddrRc)
  let n ← check (cvt reply.ret)
  let buf := reply.data ++ buf.drop reply.data.length
  pure ((asUnsigned 64 n, rcBdaddr (fill addr reply.addr)), buf)

def recvWithFlags (self : Socket) (buf : List UInt8) (peek : Bool) : Sys (Nat × List UInt8) := do
  let reply ← sys (.recv self.raw buf.length peek)
  let ret ← check (cvt reply.ret)
  pure (asUnsigned 64 ret, reply.data ++ buf.drop reply.data.length)

/-! ### Timeouts -/

/-- `libc::time_t::max_value()`. -/
def timeTMax : Nat := 2 ^ 63 - 1

/-- The bits of `suseconds_t`. -/
def susecondsT (target : Target) : Nat := if target = .apple then 32 else 64

/-- The `timeval` for a timeout that is not zero. -/
def optionTimeout (target : Target) (dur : Duration) : Timeval :=
  let secs := if dur.asSecs > timeTMax then (timeTMax : Int) else asSigned 64 dur.asSecs
  let timeout : Timeval := ⟨secs, asSigned (susecondsT target) dur.subsecMicros⟩
  -- zero would be a timeout that never comes
  if timeout.tvSec = 0 ∧ timeout.tvUsec = 0 then { timeout with tvUsec := 1 } else timeout

def setTimeout (target : Target) (self : Socket) (dur : Option Duration) (kind : SockOpt) :
    Sys Unit := do
  let timeout ← match dur with
    | some dur =>
      if dur.asSecs = 0 ∧ dur.subsecNanos = 0 then throw (.err zeroTimeout)
      else pure (optionTimeout target dur)
    | none => pure ⟨0, 0⟩
  setsockopt .timeval self kind timeout

def timeout (self : Socket) (kind : SockOpt) : Sys (Option Duration) := do
  let raw : Timeval ← getsockopt .timeval self kind
  if raw.tvSec = 0 ∧ raw.tvUsec = 0 then pure none
  else do
    let sec := asUnsigned 64 raw.tvSec
    let nsec ← orPanic "attempt to multiply with overflow"
      (checkedMul 32 (asUnsigned 32 raw.tvUsec) 1000)
    let dur ← orPanic "overflow in Duration::new" (Duration.new sec nsec)
    pure (some dur)

def duplicate (target : Target) (self : Socket) : Sys Socket := do
  let fd ← FileDesc.duplicate target ⟨self.raw⟩
  pure ⟨fd.fd⟩

end Socket
end IoBluetooth.Unix
