import Mathlib.Data.Nat.Digits.Lemmas
import Mathlib.Tactic.Ring

/-!
# Byte blocks

Fixed-size byte arrays, the little-endian numbers they hold, and the copies made
between them: a field written into a block, a block seen through a length, and
bytes that another party wrote over the front of a block.
-/
namespace Memory

/-- A byte array of `n` bytes. -/
abbrev Block (n : Nat) := Vector UInt8 n

variable {m n : Nat}

/-! ### Little-endian numbers -/

def leBytes (n value : Nat) : Block n :=
  Vector.ofFn fun i => UInt8.ofNat (value / 256 ^ i.val)

def leNat (b : Block n) : Nat := Nat.ofDigits 256 (b.toList.map UInt8.toNat)

@[simp] theorem getElem_leBytes (value i : Nat) (h : i < n) :
    (leBytes n value)[i] = UInt8.ofNat (value / 256 ^ i) := by
  simp only [leBytes, Vector.getElem_ofFn]

private theorem digits_lt (b : Block n) : ∀ d ∈ b.toList.map UInt8.toNat, d < 256 := by
  intro d member
  obtain ⟨byte, _, rfl⟩ := List.mem_map.mp member
  exact byte.toNat_lt

theorem leNat_lt (b : Block n) : leNat b < 256 ^ n := by
  have bound := Nat.ofDigits_lt_base_pow_length (by decide : 1 < 256) (digits_lt b)
  simpa only [leNat, List.length_map, Vector.length_toList] using bound

theorem leNat_injective : Function.Injective (leNat : Block n → Nat) := by
  intro a b equal
  have digits := Nat.ofDigits_inj_of_len_eq (by decide : 1 < 256)
    (by simp only [List.length_map, Vector.length_toList]) (digits_lt a) (digits_lt b) equal
  have lists := (List.map_inj_right fun _ _ h => UInt8.toNat_inj.mp h).mp digits
  exact Vector.toList_inj.mp lists

private theorem ofDigits_ofFn (n value : Nat) :
    Nat.ofDigits 256 ((List.ofFn fun i : Fin n => UInt8.ofNat (value / 256 ^ i.val)).map
      UInt8.toNat) = value % 256 ^ n := by
  induction n generalizing value with
  | zero => simp [Nat.mod_one]
  | succ n ih =>
    have tail : (fun i : Fin n => UInt8.ofNat (value / 256 ^ (i.succ : Fin (n + 1)).val)) =
        fun i : Fin n => UInt8.ofNat (value / 256 / 256 ^ i.val) := by
      funext i
      rw [Fin.val_succ, Nat.pow_succ', ← Nat.div_div_eq_div_mul]
    rw [List.ofFn_succ, tail, List.map_cons, Nat.ofDigits_cons, ih, Nat.pow_succ', Nat.mod_mul]
    simp only [Fin.val_zero, Nat.pow_zero, Nat.div_one, UInt8.toNat_ofNat', Nat.reducePow]

@[simp] theorem leNat_leBytes (n value : Nat) : leNat (leBytes n value) = value % 256 ^ n := by
  rw [leNat, leBytes, Vector.toList_ofFn]
  exact ofDigits_ofFn n value

@[simp] theorem leBytes_leNat (b : Block n) : leBytes n (leNat b) = b := by
  apply leNat_injective
  rw [leNat_leBytes, Nat.mod_eq_of_lt (leNat_lt b)]

theorem leNat_append (a : Block m) (b : Block n) :
    leNat (a ++ b) = leNat a + 256 ^ m * leNat b := by
  simp only [leNat, Vector.toList_append, List.map_append, Nat.ofDigits_append, List.length_map,
    Vector.length_toList]

/-- A number's bytes depend on its low `8 * n` bits only. -/
theorem leBytes_mod (n value : Nat) : leBytes n (value % 256 ^ n) = leBytes n value := by
  apply leNat_injective
  simp only [leNat_leBytes, Nat.mod_mod]

/-! ### Copies between blocks -/

def zeroed (n : Nat) : Block n := Vector.replicate n 0

/-- `s` with the bytes from `off` on replaced by those of `b`. -/
def write (s : Block n) (off : Nat) (b : Block m) : Block n :=
  Vector.ofFn fun i => if h : off ≤ i.val ∧ i.val - off < m then b[i.val - off] else s[i]

/-- The bytes behind a pointer to `s` that a length of `len` covers. -/
def seen (s : Block n) (len : Nat) : List UInt8 := s.toList.take len

/-- `s` after another party wrote the bytes `w` over its front. -/
def fill (s : Block n) (w : List UInt8) : Block n :=
  Vector.ofFn fun i => w.getD i.val s[i]

/-- The `m` bytes at `off`; bytes past the end read as zero. -/
def field (w : List UInt8) (off m : Nat) : Block m :=
  Vector.ofFn fun j => w.getD (off + j.val) 0

@[simp] theorem getElem_zeroed (i : Nat) (h : i < n) : (zeroed n)[i] = 0 :=
  Vector.getElem_replicate h

@[simp] theorem getD_zeroed (i : Nat) : (zeroed n).toList.getD i 0 = 0 := by
  rw [zeroed, Vector.toList_replicate, List.getD_eq_getElem?_getD, List.getElem?_replicate]
  split <;> rfl

theorem getElem_write (s : Block n) (off : Nat) (b : Block m) (i : Nat) (h : i < n) :
    (write s off b)[i] =
      if h' : off ≤ i ∧ i - off < m then b[i - off] else s[i] := by
  simp only [write, Vector.getElem_ofFn, Fin.getElem_fin]

@[simp] theorem getElem_fill (s : Block n) (w : List UInt8) (i : Nat) (h : i < n) :
    (fill s w)[i] = w.getD i s[i] := by
  simp only [fill, Vector.getElem_ofFn, Fin.getElem_fin]

@[simp] theorem getElem_field (w : List UInt8) (off j : Nat) (h : j < m) :
    (field w off m)[j] = w.getD (off + j) 0 := by
  simp only [field, Vector.getElem_ofFn]

theorem getD_seen (s : Block n) (len i : Nat) (h : i < n) (covered : i < len) :
    (seen s len).getD i 0 = s[i] := by
  simp [seen, List.getD_eq_getElem?_getD, covered, h]

theorem seen_all (s : Block n) : seen s n = s.toList := by
  rw [seen, List.take_of_length_le (Nat.le_of_eq s.length_toList)]

theorem length_seen (s : Block n) (len : Nat) : (seen s len).length = min len n := by
  simp only [seen, List.length_take, Vector.length_toList]

/-- A field that was written and is covered by the length reads back. -/
theorem field_seen_write (s : Block n) (off len : Nat) (b : Block m) (fits : off + m ≤ n)
    (covered : off + m ≤ len) : field (seen (write s off b) len) off m = b := by
  ext j hj
  rw [getElem_field, getD_seen _ _ _ (by omega) (by omega), getElem_write]
  simp [show off + j - off = j by omega, hj]

/-- Writing one field leaves the fields beside it alone. -/
theorem field_seen_write_of_disjoint (s : Block n) (off off' len : Nat) (b : Block m) (k : Nat)
    (fits : off' + k ≤ n) (covered : off' + k ≤ len)
    (disjoint : off' + k ≤ off ∨ off + m ≤ off') :
    field (seen (write s off b) len) off' k = field (seen s len) off' k := by
  ext j hj
  rw [getElem_field, getElem_field, getD_seen _ _ _ (by omega) (by omega),
    getD_seen _ _ _ (by omega) (by omega), getElem_write]
  rw [dif_neg (by omega)]

/-- A field that the bytes cover is cut out of them. -/
theorem toList_field (w : List UInt8) (off : Nat) (fits : off + m ≤ w.length) :
    (field w off m).toList = (w.drop off).take m := by
  apply List.ext_getElem
  · rw [Vector.length_toList, List.length_take, List.length_drop]
    omega
  · intro j hj _
    have inside : off + j < w.length := by
      rw [Vector.length_toList] at hj
      omega
    rw [Vector.getElem_toList, getElem_field, List.getElem_take, List.getElem_drop,
      List.getD_eq_getElem?_getD, List.getElem?_eq_getElem inside, Option.getD_some]

/-- Two fields side by side are one field. -/
theorem field_add (w : List UInt8) (off a b : Nat) :
    field w off (a + b) = field w off a ++ field w (off + a) b := by
  refine Vector.ext fun j hj => ?_
  rw [getElem_field, Vector.getElem_append]
  split
  · rw [getElem_field]
  · rw [getElem_field]
    congr 1
    omega

/-- A block among other bytes reads back at its own offset. -/
theorem field_append (u v : List UInt8) (b : Block m) :
    field (u ++ (b.toList ++ v)) u.length m = b := by
  ext j hj
  have inside : u.length + j - u.length < b.toList.length := by
    rw [Vector.length_toList]
    omega
  rw [getElem_field, List.getD_eq_getElem?_getD, List.getElem?_append_right (by omega),
    List.getElem?_append_left inside]
  simp [hj]

/-- Cutting bytes off behind a field leaves it alone. -/
theorem field_take (w : List UInt8) (off len : Nat) (covered : off + m ≤ len) :
    field (w.take len) off m = field w off m := by
  ext j hj
  rw [getElem_field, getElem_field]
  simp [List.getD_eq_getElem?_getD, show off + j < len by omega]

/-- The bytes the other party wrote in full are its own. -/
theorem field_fill (s : Block n) (w : List UInt8) (off : Nat) (fits : off + m ≤ n)
    (written : off + m ≤ w.length) : field (fill s w).toList off m = field w off m := by
  ext j hj
  have inside : off + j < w.length := by omega
  rw [getElem_field, getElem_field]
  simp [List.getD_eq_getElem?_getD, show off + j < n by omega, inside]

end Memory
