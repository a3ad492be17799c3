import IoBluetooth.Sys.Interface

/-! Sockets of either platform and their options, from `src/sys_common/bt.rs`. -/
namespace IoBluetooth

open Interaction

/-- `Socket`: a `FileDesc` on Unix, a `SOCKET` on Windows. -/
structure Socket where
  raw : Handle
  deriving DecidableEq, Repr

def setsockopt (T : OptType) (sock : Socket) (opt : SockOpt) (payload : T.Slot) : Sys Unit := do
  let _ ← check (cvt (← sys (.setsockopt sock.raw T opt payload)))
  pure ()

def getsockopt (T : OptType) (sock : Socket) (opt : SockOpt) : Sys T.Slot := do
  let reply ← sys (.getsockopt sock.raw T opt)
  let _ ← check (cvt reply.ret)
  -- the assertion on the length written back
  if reply.len = T.size then pure reply.slot
  else throw (.panic "assertion failed: `(left == right)`")

/-- `Socket::take_error`, the same on both platforms. -/
def Socket.takeError (self : Socket) : Sys (Option IoError) := do
  let raw : Int ← getsockopt .int self .soError
  pure (if raw = 0 then none else some (.os raw))

def zeroTimeout : IoError := .custom .invalidInput "cannot set a 0 duration timeout"

def timedOut : IoError := .custom .timedOut "connection timed out"

end IoBluetooth
