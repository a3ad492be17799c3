import IoBluetooth.Sys.Common

/-!
# Listeners and streams as the crate exports them

`src/bt/mod.rs`. The addresses come from an iterator of the caller's, one at a time.
-/
namespace IoBluetooth.Bt

open Interaction Rust

def couldNotResolve : IoError := .custom .invalidInput "could not resolve to any addresses"

section EachAddr

variable {σ T : Type}

/-- A turn of the loop in `each_addr`: beside `last_err` there is what `f` has captured. -/
def eachTurn (f : σ → BtAddr → Prog os (Except Exit T × σ)) (s : Option IoError × σ) :
    Sys ((Option IoError × σ) ⊕ T) := do
  match ← sys .next with
  | none => throw (.err (s.1.getD couldNotResolve))
  | some addr =>
    match ← ExceptT.lift (f s.2 addr) with
    | (.ok l, _) => pure (.inr l)
    -- only the last failure is kept
    | (.error (.err e), captured) => pure (.inl (some e, captured))
    -- a panic of `f` unwinds through the loop
    | (.error (.panic message), _) => throw (.panic message)

def eachAddr (f : σ → BtAddr → Prog os (Except Exit T × σ)) (captured : σ) : Sys T :=
  repeating (eachTurn f) (none, captured)

/-- A closure that changes nothing it has captured. -/
def attempt (f : BtAddr → Sys T) : Unit → BtAddr → Prog os (Except Exit T × Unit) :=
  fun _ addr => (·, ()) <$> (f addr).run

end EachAddr

structure BtListener where
  imp : IoBluetooth.BtListener
  deriving DecidableEq, Repr

structure BtStream where
  imp : IoBluetooth.BtStream
  deriving DecidableEq, Repr

variable (P : Platform)

def BtListener.bind (protocol : BtProtocol) : Sys BtListener :=
  BtListener.mk <$> eachAddr (attempt fun addr => IoBluetooth.BtListener.bind P addr protocol) ()

def BtListener.accept (self : BtListener) : Sys (BtStream × BtAddr) := do
  let (a, b) ← self.imp.accept P
  pure (⟨a⟩, b)

def BtListener.tryClone (self : BtListener) : Sys BtListener := do
  let imp ← self.imp.duplicate P
  pure ⟨imp⟩

namespace BtStream

def connect (protocol : BtProtocol) : Sys BtStream :=
  BtStream.mk <$> eachAddr (attempt fun addr => IoBluetooth.BtStream.connect P addr protocol) ()

def connectTimeout (pad : UInt8) (addr : BtAddr) (protocol : BtProtocol) (timeout : Duration) :
    Sys BtStream := do
  let imp ← IoBluetooth.BtStream.connectTimeout P pad addr protocol timeout
  pure ⟨imp⟩

def tryClone (self : BtStream) : Sys BtStream := do
  let imp ← self.imp.duplicate P
  pure ⟨imp⟩

def read (self : BtStream) (buf : List UInt8) : Sys (Nat × List UInt8) := self.imp.recv P buf

def write (self : BtStream) (buf : List UInt8) : Sys Nat := self.imp.send P buf

end BtStream
end IoBluetooth.Bt
