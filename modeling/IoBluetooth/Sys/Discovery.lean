import IoBluetooth.Sys.Unix.Socket
import IoBluetooth.Sys.Windows.Socket

/-! `discover_devices` of `src/sys/unix/bt.rs` and of `src/sys/windows/bt.rs`. -/
namespace IoBluetooth

open Interaction Memory Rust

namespace Unix

/-- `TIMEOUT`, in units of 1.28 seconds. -/
def inquiryTimeout : Int := 4

def maxResponses : Nat := 256

/-- The vector of defaults after the inquiry wrote its responses over its front and it was
truncated to their number. -/
def inquiryInfos (reply : InquiryReply) (numResponses : Int) : List (Block 6) :=
  (reply.bdaddrs ++ (List.replicate maxResponses (zeroed 6)).drop reply.bdaddrs.length).take
    (asUnsigned 64 numResponses)

def discoverDevices : Sys (List BtAddr) := do
  let deviceId ← check (cvt (← sys .hciGetRoute))
  let localSocket ← check (cvt (← sys (.hciOpenDev deviceId)))
  let reply ← sys (.hciInquiry deviceId inquiryTimeout maxResponses)
  -- an early return here does not close the local socket
  let numResponses ← check (cvt reply.ret)
  let devices := (inquiryInfos reply numResponses).map BtAddr.mk
  let _ ← check (cvt (← sys (.hciCloseDev localSocket)))
  pure devices

end Unix

namespace Windows

def sizeofUsize : Nat := 8

def sizeofWsaquerysetw : Nat := 120

/-- The test on the Winsock lookup functions, which return zero on success. -/
def checkZero (r : Ret) : Except IoError Unit :=
  if r.value = 0 then .ok () else .error (.os r.errno)

/-- The lookup loop's state: the buffer's length in words and the addresses so far. -/
structure Lookup where
  words : Nat
  addresses : List BtAddr
  deriving DecidableEq

/-- The buffer's length in bytes, `as u32`. -/
def Lookup.len (s : Lookup) : Nat := asUnsigned 32 (s.words * sizeofUsize : Nat)

def lookupTurn (w : Bthdef) (handle : Handle) (s : Lookup) : Sys (Lookup ⊕ List BtAddr) := do
  let reply ← sys (.wsaLookupServiceNextW handle s.len)
  if reply.ret.value = 0 then
    pure (.inl { s with addresses := s.addresses ++ [bthAddr w reply.remoteAddr] })
  else if reply.ret.errno = WSA_E_NO_MORE then pure (.inr s.addresses)
  else if reply.ret.errno = WSAEFAULT then
    -- one word more than the bytes that were asked for fill
    pure (.inl { s with words := 1 + reply.len / sizeofUsize })
  -- an early return here does not end the lookup
  else throw (.err (.os reply.ret.errno))

def lookupLoop (w : Bthdef) (handle : Handle) : Sys (List BtAddr) :=
  repeating (lookupTurn w handle) ⟨sizeofWsaquerysetw / sizeofUsize, []⟩

def discoverDevices (w : Bthdef) : Sys (List BtAddr) := do
  sys .winsockInit
  let reply ← sys .wsaLookupServiceBeginW
  check (checkZero reply.ret)
  let addresses ← lookupLoop w reply.handle
  check (checkZero (← sys (.wsaLookupServiceEnd reply.handle)))
  pure addresses

end Windows

def discoverDevices : Platform → Sys (List BtAddr)
  | .unix _ => Unix.discoverDevices
  | .windows w => Windows.discoverDevices w

end IoBluetooth
