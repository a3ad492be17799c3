import IoBluetooth.Properties.AddressCodec
import IoBluetooth.Sys.Runs

/-!
# What discovery finds on Windows

A lookup gives one device after another, and asks for a larger buffer where the next record
does not fit. Every record is taken once, and the buffer only ever grows.
-/
namespace IoBluetooth.Windows

open Interaction Memory Rust

/-- A device that a lookup finds, and the bytes that its record needs. -/
structure Record where
  addr : BtAddr
  needed : Nat
  needed_le : needed ≤ 2 ^ 32 - 1 - sizeofUsize

/-- The records a lookup has still to give, and how often the buffer was too small for the first
of them. -/
structure Cursor where
  remaining : List Record
  faults : Nat

/-- The length of the buffer itself, in bytes. -/
def Lookup.bytes (s : Lookup) : Nat := s.words * sizeofUsize

variable {w : Bthdef} {handle : Handle} {all : List BtAddr}

/-- Each round takes a record or makes the buffer large enough for it. -/
private def Lookup.measure (_ : Lookup) (c : Cursor) : Nat := 2 * c.remaining.length + (1 - c.faults)

end IoBluetooth.Windows
