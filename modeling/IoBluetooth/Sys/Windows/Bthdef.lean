import IoBluetooth.Memory.Block

/-! The Bluetooth definitions of `winapi`, which is not part of the repository. -/
namespace IoBluetooth

open Memory

/-- What the crate uses of `winapi::shared::bthdef`, with what it relies on: the two halves
of an address are its bits 32 to 47 and 0 to 31. -/
structure Bthdef where
  getNap : UInt64 → UInt16
  getSap : UInt64 → UInt32
  setNapSap : UInt16 → UInt32 → UInt64
  rfcommProtocolUuid : Block 16
  getNap_toNat : ∀ x, (getNap x).toNat = x.toNat / 2 ^ 32 % 2 ^ 16
  getSap_toNat : ∀ x, (getSap x).toNat = x.toNat % 2 ^ 32
  setNapSap_toNat : ∀ nap sap, (setNapSap nap sap).toNat = nap.toNat * 2 ^ 32 + sap.toNat
  rfcommProtocolUuid_ne : rfcommProtocolUuid ≠ zeroed 16

/-- The definitions as the Windows headers document them. -/
def bthdef : Bthdef where
  getNap x := (x >>> 32).toUInt16
  getSap x := x.toUInt32
  setNapSap nap sap := (nap.toUInt64 <<< 32) ||| sap.toUInt64
  rfcommProtocolUuid := #v[3, 0, 0, 0, 0, 0, 0, 0x10, 0x80, 0, 0, 0x80, 0x5f, 0x9b, 0x34, 0xfb]
  getNap_toNat x := by
    simp [Nat.shiftRight_eq_div_pow]
  getSap_toNat x := by
    simp
  setNapSap_toNat nap sap := by
    have hn := nap.toNat_lt
    have hs := sap.toNat_lt
    have low : nap.toNat * 2 ^ 32 < 2 ^ 64 := by omega
    simp only [UInt64.toNat_or, UInt64.toNat_shiftLeft, UInt16.toNat_toUInt64,
      UInt32.toNat_toUInt64, Nat.shiftLeft_eq]
    rw [show (32 : UInt64).toNat % 64 = 32 from rfl, Nat.mod_eq_of_lt low,
      Nat.mul_comm, ← Nat.two_pow_add_eq_or_of_lt hs]
  rfcommProtocolUuid_ne := by decide

end IoBluetooth
