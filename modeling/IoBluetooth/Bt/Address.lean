import IoBluetooth.Memory.Block

/-! Bluetooth addresses and protocols, as `src/bt/mod.rs` defines them. -/
namespace IoBluetooth

open Memory

/-- A Bluetooth address, consisting of 6 bytes, least significant first. -/
structure BtAddr where
  octets : Block 6
  deriving DecidableEq

inductive BtProtocol where
  | l2cap
  | rfcomm
  deriving DecidableEq, Repr

namespace BtAddr

@[ext] theorem ext {a b : BtAddr} (h : a.octets = b.octets) : a = b := by
  cases a
  cases b
  rw [mk.injEq]
  exact h

def napSap (nap : UInt16) (sap : UInt32) : BtAddr :=
  let nap := leBytes 2 nap.toNat
  let sap := leBytes 4 sap.toNat
  ⟨#v[sap[0], sap[1], sap[2], sap[3], nap[0], nap[1]]⟩

/-- `{:02x}` of a byte. -/
def hex02 (b : UInt8) : List Char := [Nat.digitChar (b.toNat / 16), Nat.digitChar (b.toNat % 16)]

/-- The six bytes in the order both `Display` and `Debug` print them. -/
def hexPairs (a : BtAddr) : List Char :=
  hex02 a.octets[5] ++ ':' :: hex02 a.octets[4] ++ ':' :: hex02 a.octets[3] ++
    ':' :: hex02 a.octets[2] ++ ':' :: hex02 a.octets[1] ++ ':' :: hex02 a.octets[0]

def display (a : BtAddr) : String := String.ofList a.hexPairs

example : (napSap 0x0123 0x456789ab).display = "01:23:45:67:89:ab" := by decide

end BtAddr
end IoBluetooth
