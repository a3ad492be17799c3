import IoBluetooth.Sys.Common

/-!
# One device address, one `BtAddr`

A device address is a number below `2 ^ 48`. `BtAddr` holds its little-endian bytes, on both
platforms and through every conversion: each conversion is stated here as one of `leBytes`
or `leNat`, and the agreement of the conversions follows from those being inverse.
-/
namespace IoBluetooth

open Memory

/-- A `BtAddr` as the 48-bit number it stands for. -/
def BtAddr.toNat (a : BtAddr) : Nat := leNat a.octets

/-- The `BtAddr` of a device address. -/
def BtAddr.ofNat (v : Nat) : BtAddr := ⟨leBytes 6 v⟩

theorem BtAddr.ofNat_toNat (a : BtAddr) : BtAddr.ofNat a.toNat = a :=
  BtAddr.ext (leBytes_leNat a.octets)

theorem BtAddr.toNat_ofNat (v : Nat) : (BtAddr.ofNat v).toNat = v % 2 ^ 48 :=
  leNat_leBytes 6 v

theorem BtAddr.ofNat_mod (v : Nat) : BtAddr.ofNat (v % 2 ^ 48) = BtAddr.ofNat v :=
  BtAddr.ext (leBytes_mod 6 v)

theorem napSap_eq (nap : UInt16) (sap : UInt32) :
    BtAddr.napSap nap sap = BtAddr.ofNat (nap.toNat * 2 ^ 32 + sap.toNat) := by
  have hn := nap.toNat_lt
  have hs := sap.toNat_lt
  apply BtAddr.ext
  ext i hi
  -- the six octets, one by one
  interval_cases i <;>
    simp [BtAddr.napSap, BtAddr.ofNat, UInt8.toNat_ofNat'] <;> omega

namespace Windows

variable (w : Bthdef)

theorem toNat_toU64 (a : BtAddr) : (toU64 w a).toNat = a.toNat := by
  -- the lower four octets are the SAP, the upper two the NAP
  have split : a.octets = #v[a.octets.get 0, a.octets.get 1, a.octets.get 2, a.octets.get 3] ++
      #v[a.octets.get 4, a.octets.get 5] := by
    ext i hi
    interval_cases i <;> rfl
  have low := leNat_lt #v[a.octets.get 0, a.octets.get 1, a.octets.get 2, a.octets.get 3]
  have high := leNat_lt #v[a.octets.get 4, a.octets.get 5]
  simp only [toU64, w.setNapSap_toNat, BtAddr.toNat]
  conv_rhs => rw [split, leNat_append]
  rw [UInt16.toNat_ofNat_of_lt' high, UInt32.toNat_ofNat_of_lt' low]
  omega

theorem ofU64_eq (x : UInt64) : ofU64 w x = BtAddr.ofNat x.toNat := by
  rw [ofU64, napSap_eq, w.getNap_toNat, w.getSap_toNat, ← BtAddr.ofNat_mod x.toNat]
  congr 1
  omega

theorem ofU64_toU64 (a : BtAddr) : ofU64 w (toU64 w a) = a := by
  rw [ofU64_eq, toNat_toU64, BtAddr.ofNat_toNat]

theorem toU64_ofU64 (v : UInt64) (bound : v.toNat < 2 ^ 48) : toU64 w (ofU64 w v) = v := by
  apply UInt64.toNat_inj.mp
  rw [toNat_toU64, ofU64_eq, BtAddr.toNat_ofNat, Nat.mod_eq_of_lt bound]

theorem ofU64_congr (x y : UInt64) (low : x.toNat % 2 ^ 48 = y.toNat % 2 ^ 48) :
    ofU64 w x = ofU64 w y := by
  rw [ofU64_eq, ofU64_eq, ← BtAddr.ofNat_mod x.toNat, low, BtAddr.ofNat_mod]

theorem bthAddr_eq (s : List UInt8) (x : UInt64) (stored : field s 2 8 = leBytes 8 x.toNat) :
    bthAddr w s = ofU64 w x := by
  have fits : x.toNat < 256 ^ 8 := x.toNat_lt
  rw [bthAddr, stored, leNat_leBytes, Nat.mod_eq_of_lt fits, UInt64.ofNat_toNat]

theorem ofSockaddrStorage_toSockaddrStorage (a : BtAddr) :
    ofSockaddrStorage w (toSockaddrStorage w a).1 = a := by
  rw [ofSockaddrStorage, bthAddr_eq w _ (toU64 w a), ofU64_toU64]
  rw [← seen_all]
  dsimp only [toSockaddrStorage]
  rw [field_seen_write_of_disjoint _ _ _ _ _ _ (by decide) (by decide) (by decide),
    field_seen_write _ _ _ _ (by decide) (by decide)]

end Windows

namespace Unix

/-- The three writes leave the address where both the crate and the kernel look for it. -/
theorem rcBdaddr_setSockaddrRc {n : Nat} (s : Block n) (a : BtAddr) (fits : 9 ≤ n) :
    rcBdaddr (setSockaddrRc s a) = a := by
  apply BtAddr.ext
  change field (setSockaddrRc s a).toList 2 6 = a.octets
  rw [← seen_all, setSockaddrRc, field_seen_write_of_disjoint _ _ _ _ _ _ (by omega) (by omega)
    (by omega), field_seen_write _ _ _ _ (by omega) (by omega)]

theorem ofSockaddrStorage_toSockaddrStorage (a : BtAddr) :
    ofSockaddrStorage (toSockaddrStorage a).1 = a :=
  rcBdaddr_setSockaddrRc _ a (by decide)

end Unix

/-! ### Printing -/

/-- The hexadecimal digit of `v` of weight `16 ^ k`. -/
def hexDigit (v k : Nat) : Char := Nat.digitChar (v / 16 ^ k % 16)

/-- Twelve lowercase digits of `v`, most significant first, in pairs set apart by colons. -/
def colonHex (v : Nat) : String :=
  String.ofList (List.intercalate [':']
    ([5, 4, 3, 2, 1, 0].map fun i => [hexDigit v (2 * i + 1), hexDigit v (2 * i)]))

private theorem hex02_ofNat (v i : Nat) :
    BtAddr.hex02 (UInt8.ofNat (v / 256 ^ i)) = [hexDigit v (2 * i + 1), hexDigit v (2 * i)] := by
  have weight : 256 ^ i = 16 ^ (2 * i) := by rw [Nat.pow_mul]
  have high : v / 16 ^ (2 * i) % 256 / 16 = v / 16 ^ (2 * i) / 16 % 16 := by omega
  have low : v / 16 ^ (2 * i) % 256 % 16 = v / 16 ^ (2 * i) % 16 := by omega
  simp only [BtAddr.hex02, hexDigit, UInt8.toNat_ofNat', Nat.reducePow, weight, high, low,
    Nat.div_div_eq_div_mul, Nat.pow_succ]

theorem display_ofNat (v : Nat) : (BtAddr.ofNat v).display = colonHex v := by
  simp only [BtAddr.display, BtAddr.hexPairs, BtAddr.ofNat, getElem_leBytes, hex02_ofNat]
  rfl

private theorem digitChar_injective :
    ∀ m < 16, ∀ n < 16, Nat.digitChar m = Nat.digitChar n → m = n := by
  decide

theorem hex02_injective (b c : UInt8) (equal : BtAddr.hex02 b = BtAddr.hex02 c) : b = c := by
  have hb := b.toNat_lt
  have hc := c.toNat_lt
  simp only [BtAddr.hex02, List.cons.injEq, and_true] at equal
  have high := digitChar_injective _ (by omega) _ (by omega) equal.1
  have low := digitChar_injective _ (by omega) _ (by omega) equal.2
  apply UInt8.toNat_inj.mp
  omega

theorem display_injective (a b : BtAddr) (equal : a.display = b.display) : a = b := by
  have lists : a.hexPairs = b.hexPairs := String.ofList_injective equal
  simp only [BtAddr.hexPairs, BtAddr.hex02, List.cons_append, List.nil_append,
    List.cons.injEq, true_and, and_true] at lists
  obtain ⟨h5, l5, h4, l4, h3, l3, h2, l2, h1, l1, h0, l0⟩ := lists
  apply BtAddr.ext
  refine Vector.ext fun i hi => hex02_injective _ _ ?_
  interval_cases i <;> simp only [BtAddr.hex02, *]

/-- One device address has one `BtAddr`, whatever platform it comes from and whatever
conversion it went through, and one printed form. -/
theorem device_address_agreement (w : Bthdef) :
    (∀ a, Windows.ofU64 w (Windows.toU64 w a) = a) ∧
    (∀ v : UInt64, v.toNat < 2 ^ 48 → Windows.toU64 w (Windows.ofU64 w v) = v) ∧
    (∀ x y : UInt64, x.toNat % 2 ^ 48 = y.toNat % 2 ^ 48 →
      Windows.ofU64 w x = Windows.ofU64 w y) ∧
    (∀ a, Unix.ofSockaddrStorage (Unix.toSockaddrStorage a).1 = a) ∧
    (∀ a, Windows.ofSockaddrStorage w (Windows.toSockaddrStorage w a).1 = a) ∧
    (∀ (v : UInt64) (b : Block 6), v.toNat < 2 ^ 48 →
      (∀ i (h : i < 6), b[i].toNat = v.toNat / 2 ^ (8 * i) % 2 ^ 8) →
      Windows.ofU64 w v = ⟨b⟩ ∧
      ∀ s : Block Unix.sizeofSockaddrStorage, field s.toList 2 6 = b →
        Unix.ofSockaddrStorage s = Windows.ofU64 w v) ∧
    (∀ v : UInt64, v.toNat < 2 ^ 48 → (Windows.ofU64 w v).display = colonHex v.toNat) ∧
    (∀ a b : BtAddr, a ≠ b → a.display ≠ b.display) := by
  have bytes (v : UInt64) (b : Block 6)
      (octets : ∀ i (h : i < 6), b[i].toNat = v.toNat / 2 ^ (8 * i) % 2 ^ 8) :
      Windows.ofU64 w v = ⟨b⟩ := by
    rw [Windows.ofU64_eq]
    apply BtAddr.ext
    refine Vector.ext fun i hi => UInt8.toNat_inj.mp ?_
    rw [octets i hi, BtAddr.ofNat, getElem_leBytes, UInt8.toNat_ofNat', Nat.pow_mul]
  refine ⟨Windows.ofU64_toU64 w, Windows.toU64_ofU64 w, Windows.ofU64_congr w,
    Unix.ofSockaddrStorage_toSockaddrStorage, Windows.ofSockaddrStorage_toSockaddrStorage w,
    ?_, ?_, ?_⟩
  · intro v b _ octets
    refine ⟨bytes v b octets, fun s stored => ?_⟩
    rw [bytes v b octets]
    exact BtAddr.ext stored
  · intro v _
    rw [Windows.ofU64_eq, display_ofNat]
  · intro a b distinct equal
    exact distinct (display_injective a b equal)

theorem bthdef_device_address :
    (Windows.ofU64 bthdef 0x060504030201).display = colonHex 0x060504030201 :=
  (device_address_agreement bthdef).2.2.2.2.2.2.1 0x060504030201 (by decide)

end IoBluetooth
