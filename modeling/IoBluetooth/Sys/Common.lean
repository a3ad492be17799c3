import IoBluetooth.Sys.Unix.Socket
import IoBluetooth.Sys.Windows.Socket

/-!
# Listeners and streams

`src/sys_common/bt.rs`, which is written once against the names that the module of the
platform exports: here the platform is an argument.
-/
namespace IoBluetooth

open Interaction Memory Rust

/-! ### What the platform exports -/

namespace Platform

def cvtR : Platform → Prog os Ret → Prog os (Except IoError Int)
  | .unix _, f => (·.1) <$> Unix.cvtR (fun _ => (·, ()) <$> f) ()
  | .windows _, f => cvt <$> f

/-- The storage that `addr.into()` makes, as far as the length beside it covers it. -/
def toSockaddr : Platform → BtAddr → List UInt8 × Nat
  | .unix _, addr =>
    let (storage, len) := Unix.toSockaddrStorage addr
    (seen storage len, len)
  | .windows w, addr =>
    let (storage, len) := Windows.toSockaddrStorage w addr
    (seen storage len, len)

/-- `sockname`: a zeroed `sockaddr_storage` is passed and then decoded. -/
def ofSockaddr : Platform → List UInt8 → BtAddr
  | .unix _, w => Unix.ofSockaddrStorage (fill (zeroed _) w)
  | .windows b, w => Windows.ofSockaddrStorage b (fill (zeroed _) w)

def sizeofSockaddrStorage : Nat := 128

/-- `cmp::min(buf.len(), <wrlen_t>::max_value() as usize) as wrlen_t`. -/
def wrlen : Platform → List UInt8 → Int
  | .unix _, buf => (min buf.length (2 ^ 64 - 1) : Nat)
  | .windows _, buf => asSigned 32 (min buf.length (2 ^ 31 - 1) : Nat)

end Platform

namespace Socket

def drop : Platform → Socket → Prog os Unit
  | .unix _ => Unix.Socket.drop
  | .windows _ => Windows.Socket.drop

def new : Platform → BtProtocol → Sys Socket
  | .unix target => Unix.Socket.new target
  | .windows _ => Windows.Socket.new

def accept : Platform → Socket → Sys (Socket × BtAddr)
  | .unix target => Unix.Socket.accept target
  | .windows w => Windows.Socket.accept w

def duplicate : Platform → Socket → Sys Socket
  | .unix target => Unix.Socket.duplicate target
  | .windows _ => Windows.Socket.duplicate

def setNonblocking : Platform → Socket → Bool → Sys Unit
  | .unix _ => Unix.Socket.setNonblocking
  | .windows _ => Windows.Socket.setNonblocking

/-- `pad` is the byte that the Unix literal leaves unspecified. -/
def connectTimeout : Platform → UInt8 → Socket → BtAddr → Duration → Sys Unit
  | .unix _, pad => fun self => Unix.Socket.connectTimeout self pad
  | .windows w, _ => Windows.Socket.connectTimeout w

def recvFromWithFlags : Platform → Socket → List UInt8 → Bool →
    Sys ((Nat × BtAddr) × List UInt8)
  | .unix _ => Unix.Socket.recvFromWithFlags
  | .windows w => Windows.Socket.recvFromWithFlags w

def recvWithFlags : Platform → Socket → List UInt8 → Bool → Sys (Nat × List UInt8)
  | .unix _ => Unix.Socket.recvWithFlags
  | .windows _ => Windows.Socket.recvWithFlags

def setTimeout : Platform → Socket → Option Duration → SockOpt → Sys Unit
  | .unix target => Unix.Socket.setTimeout target
  | .windows _ => Windows.Socket.setTimeout

def timeout : Platform → Socket → SockOpt → Sys (Option Duration)
  | .unix _ => Unix.Socket.timeout
  | .windows _ => Windows.Socket.timeout

/-- The constant for `how` has another name on each platform. -/
def shutdown (self : Socket) (how : Shutdown) : Sys Unit := do
  let _ ← check (cvt (← sys (.shutdown self.raw how)))
  pure ()

def peek (P : Platform) (self : Socket) (buf : List UInt8) := self.recvWithFlags P buf true

def read (P : Platform) (self : Socket) (buf : List UInt8) := self.recvWithFlags P buf false

/-- `peek_from`, and `recv_from` below it, are the same on both platforms. -/
def peekFrom (P : Platform) (self : Socket) (buf : List UInt8) :=
  self.recvFromWithFlags P buf true

def recvFrom (P : Platform) (self : Socket) (buf : List UInt8) :=
  self.recvFromWithFlags P buf false

end Socket

def sockname (P : Platform) (f : Nat → Sys AddrReply) : Sys BtAddr := do
  let reply ← f Platform.sizeofSockaddrStorage
  let _ ← check (cvt reply.ret)
  pure (P.ofSockaddr reply.addr)

/-! ### Streams and listeners -/

structure BtStream where
  inner : Socket
  protocol : BtProtocol
  deriving DecidableEq, Repr

structure BtListener where
  inner : Socket
  protocol : BtProtocol
  deriving DecidableEq, Repr

variable (P : Platform)

namespace BtListener

/-- The block of `bind` under `!cfg!(windows)`. -/
def setReuseaddr : Platform → Socket → Sys Unit
  | .unix _, socket => setsockopt .int socket .soReuseaddr (1 : Int)
  | .windows _, _ => pure ()

def bind (addr : BtAddr) (protocol : BtProtocol) : Sys BtListener := do
  let socket ← Socket.new P protocol
  owning (socket.drop P) do
    setReuseaddr P socket
    let (addr, len) := P.toSockaddr addr
    let _ ← check (cvt (← sys (.bind socket.raw addr len)))
    let _ ← check (cvt (← sys (.listen socket.raw 128)))
    pure ⟨socket, protocol⟩

def accept (self : BtListener) : Sys (BtStream × BtAddr) := do
  let (socket, addr) ← self.inner.accept P
  pure (⟨socket, self.protocol⟩, addr)

def setNonblocking (self : BtListener) (nonblocking : Bool) : Sys Unit :=
  self.inner.setNonblocking P nonblocking

def localAddr (self : BtListener) : Sys BtAddr :=
  sockname P fun len => sys (.getsockname self.inner.raw len)

def takeError (self : BtListener) : Sys (Option IoError) := self.inner.takeError

def duplicate (self : BtListener) : Sys BtListener := do
  let s ← self.inner.duplicate P
  pure ⟨s, self.protocol⟩

end BtListener

namespace BtStream

def connect (addr : BtAddr) (protocol : BtProtocol) : Sys BtStream := do
  let (addr, len) := P.toSockaddr addr
  let socket ← Socket.new P protocol
  owning (socket.drop P) do
    let res ← ExceptT.lift (P.cvtR (@Prog.perform os (.connect socket.raw addr len)))
    let _ ← check res
    pure ⟨socket, protocol⟩

def connectTimeout (pad : UInt8) (addr : BtAddr) (protocol : BtProtocol) (timeout : Duration) :
    Sys BtStream := do
  let socket ← Socket.new P protocol
  owning (socket.drop P) do
    Socket.connectTimeout P pad socket addr timeout
    pure ⟨socket, protocol⟩

def peek (self : BtStream) (buf : List UInt8) := self.inner.peek P buf

def recv (self : BtStream) (buf : List UInt8) := self.inner.read P buf

def peekFrom (self : BtStream) (buf : List UInt8) := self.inner.peekFrom P buf

def recvFrom (self : BtStream) (buf : List UInt8) := self.inner.recvFrom P buf

def send (self : BtStream) (buf : List UInt8) : Sys Nat := do
  let n ← check (cvt (← sys (.send self.inner.raw buf (P.wrlen buf))))
  pure (asUnsigned 64 n)

def sendTo (self : BtStream) (buf : List UInt8) (dst : BtAddr) : Sys Nat := do
  let (addr, addrlen) := P.toSockaddr dst
  let n ← check (cvt (← sys (.sendto self.inner.raw buf (P.wrlen buf) addr addrlen)))
  pure (asUnsigned 64 n)

def shutdown (self : BtStream) (how : Shutdown) : Sys Unit := self.inner.shutdown how

def setNonblocking (self : BtStream) (nonblocking : Bool) : Sys Unit :=
  self.inner.setNonblocking P nonblocking

def localAddr (self : BtStream) : Sys BtAddr :=
  sockname P fun len => sys (.getsockname self.inner.raw len)

def peerAddr (self : BtStream) : Sys BtAddr :=
  sockname P fun len => sys (.getpeername self.inner.raw len)

def readTimeout (self : BtStream) : Sys (Option Duration) := self.inner.timeout P .soRcvtimeo

def setReadTimeout (self : BtStream) (dur : Option Duration) : Sys Unit :=
  self.inner.setTimeout P dur .soRcvtimeo

def writeTimeout (self : BtStream) : Sys (Option Duration) := self.inner.timeout P .soSndtimeo

def setWriteTimeout (self : BtStream) (dur : Option Duration) : Sys Unit :=
  self.inner.setTimeout P dur .soSndtimeo

def takeError (self : BtStream) : Sys (Option IoError) := self.inner.takeError

def duplicate (self : BtStream) : Sys BtStream := do
  let s ← self.inner.duplicate P
  pure ⟨s, self.protocol⟩

end BtStream
end IoBluetooth
