import IoBluetooth.Bt.Streams
import IoBluetooth.Sys.Calls

/-!
# Counting bytes

The length of a buffer reaches the system as it is, or cut down to what the type of the parameter
holds. What the system counts in return is at most that length, so it is at most the buffer's.
-/
namespace IoBluetooth

open Interaction Rust

/-- `isize::MAX`: no buffer is longer. -/
def isizeMax : Nat := 2 ^ 63 - 1

/-- A length that may be passed with a buffer. -/
structure LengthOf (buf : List UInt8) (len : Int) : Prop where
  nonneg : 0 ≤ len
  le : len ≤ buf.length
  pos : buf ≠ [] → 0 < len

theorem lengthOf_min (buf : List UInt8) (cap : Nat) (pos : 0 < cap) :
    LengthOf buf (min buf.length cap : Nat) where
  nonneg := by omega
  le := by omega
  pos nonempty := by
    have := List.length_pos_iff.mpr nonempty
    omega

theorem lengthOf_length (buf : List UInt8) : LengthOf buf buf.length where
  nonneg := by omega
  le := le_rfl
  pos nonempty := by
    have := List.length_pos_iff.mpr nonempty
    omega

/-- The cut comes before the cast, so the cast changes nothing. -/
theorem asSigned_min (buf : List UInt8) :
    asSigned 32 (min buf.length (2 ^ 31 - 1) : Nat) = (min buf.length (2 ^ 31 - 1) : Nat) :=
  asSigned_of_fits 31 _ (by omega) (by omega)

theorem Windows.Socket.lengthOf_recvLen (buf : List UInt8) : LengthOf buf (recvLen buf) := by
  rw [recvLen, asSigned_min]
  exact lengthOf_min buf _ (by decide)

theorem Platform.lengthOf_wrlen (P : Platform) (buf : List UInt8) :
    LengthOf buf (P.wrlen buf) := by
  cases P with
  | unix target => exact lengthOf_min buf _ (by decide)
  | windows w =>
    rw [Platform.wrlen, asSigned_min]
    exact lengthOf_min buf _ (by decide)

/-! ### One call -/

/-- A call that transfers bytes, the length passed to it, and what it returned. -/
inductive Transfers : Event os → Int → Ret → Prop
  | send {s buf len} {r : Ret} : Transfers ⟨.send s buf len, r⟩ len r
  | sendto {s buf len addr addrlen} {r : Ret} : Transfers ⟨.sendto s buf len addr addrlen, r⟩ len r
  | recv {s len peek} {r : RecvReply} : Transfers ⟨.recv s len peek, r⟩ len r.ret
  | recvfrom {s len peek addrlen} {r : RecvfromReply} :
      Transfers ⟨.recvfrom s len peek addrlen, r⟩ len r.ret

theorem Transfers.length_eq {e : Event os} {len len' : Int} {r r' : Ret}
    (transfer : Transfers e len r) (transfer' : Transfers e len' r') : len' = len := by
  cases transfer <;> cases transfer' <;> rfl

/-- What a call may return that was given the length `len`. -/
def Counts (len : Int) (r : Ret) : Prop := r.value = -1 ∨ (0 ≤ r.value ∧ r.value ≤ len)

/-- One call that transfers bytes; `count a` bytes of `buf`, according to the result `a`. -/
structure CountsBytes {α : Type} (buf : List UInt8) (count : α → Nat) (p : Sys α) : Prop where
  once : ∀ t y, Runs p.run t y → ∃ e len r, t = [e] ∧ Transfers e len r
  passes : Emits p.run fun e => ∀ len r, Transfers e len r → LengthOf buf len
  returns : ∀ t a, Runs p.run t (.ok a) →
    (∀ e ∈ t, ∀ len r, Transfers e len r → Counts len r) → count a ≤ buf.length

/-- A result that counts nothing, or what the system counted. -/
def CountOf (r : Ret) (n : Nat) : Prop := n = 0 ∨ (r.value ≠ -1 ∧ n = asUnsigned 64 r.value)

theorem CountOf.le {r : Ret} {n : Nat} {len : Int} {buf : List UInt8} (result : CountOf r n)
    (counts : Counts len r) (given : LengthOf buf len) (fits : buf.length ≤ isizeMax) :
    n ≤ buf.length := by
  rcases result with rfl | ⟨passed, rfl⟩
  · exact Nat.zero_le _
  · rcases counts with failed | ⟨nonneg, le⟩
    · exact absurd failed passed
    · have := given.le
      rw [isizeMax] at fits
      rw [asUnsigned, Int.emod_eq_of_lt nonneg (by omega)]
      omega

section Call

variable {α : Type} {buf : List UInt8} {count : α → Nat}

/-- A function that makes one such call and goes by what it returned. -/
theorem countsBytes_call (fits : buf.length ≤ isizeMax) {c : Call} {len : Int}
    {ret : c.Reply → Ret} (transfers : ∀ r, Transfers ⟨c, r⟩ len (ret r))
    (given : LengthOf buf len) {k : c.Reply → Sys α} (quiet : ∀ r, Emits (k r).run fun _ => False)
    (result : ∀ r, Yields (k r) fun a => CountOf (ret r) (count a)) :
    CountsBytes buf count (sys c >>= k) where
  once := by
    intro t y run
    obtain ⟨r, u, rfl, rest⟩ := (runs_sys_bind _ _ _ _).mp run
    refine ⟨⟨c, r⟩, len, ret r, ?_, transfers r⟩
    rw [List.eq_nil_iff_forall_not_mem.mpr ((quiet r).runs u y rest)]
  passes := by
    refine Emits.run_bind (emits_sys c fun r len' r' transfer => ?_) fun r =>
      (quiet r).mono fun _ => False.elim
    exact (transfers r).length_eq transfer ▸ given
  returns := by
    intro t a run counts
    obtain ⟨r, u, rfl, rest⟩ := (runs_sys_bind _ _ _ _).mp run
    exact (result r u a rest).le (counts _ List.mem_cons_self _ _ (transfers r)) given fits

/-- `cvt` passes a count on. -/
theorem yields_cvt (r : Ret) {f : Int → α} (counted : ∀ n, count (f n) = asUnsigned 64 n) :
    Yields (check (cvt r) >>= fun n => pure (f n)) fun a => CountOf r (count a) := by
  intro t a run
  rcases (runs_check_bind _ _ _ _).mp run with ⟨e, _, _, eq⟩ | ⟨n, passed, _, eq⟩
  · cases eq
  · obtain ⟨success, rfl⟩ := (cvt_eq_ok_iff _ _).mp passed
    cases eq
    exact Or.inr ⟨success, counted _⟩

theorem emits_cvt (r : Ret) (f : Int → α) :
    Emits (check (cvt r) >>= fun n => pure (f n) : Sys α).run fun _ => False :=
  Emits.run_bind (emits_check _) fun _ => emits_run_pure _

end Call

/-! ### The functions of a stream -/

section Streams

variable (P : Platform) (self : BtStream) (buf : List UInt8) (fits : buf.length ≤ isizeMax)

include fits

theorem BtStream.countsBytes_send : CountsBytes buf id (self.send P buf) :=
  countsBytes_call fits (fun _ => .send) (P.lengthOf_wrlen buf) (fun r => emits_cvt r _)
    fun r => yields_cvt r fun _ => rfl

theorem BtStream.countsBytes_sendTo (dst : BtAddr) : CountsBytes buf id (self.sendTo P buf dst) :=
  countsBytes_call fits (fun _ => .sendto) (P.lengthOf_wrlen buf) (fun r => emits_cvt r _)
    fun r => yields_cvt r fun _ => rfl

theorem Socket.countsBytes_recvWithFlags (self : Socket) (peek : Bool) :
    CountsBytes buf Prod.fst (self.recvWithFlags P buf peek) := by
  cases P with
  | unix target =>
    exact countsBytes_call fits (fun _ => .recv) (lengthOf_length buf) (fun r => emits_cvt r.ret _)
      fun r => yields_cvt r.ret fun _ => rfl
  | windows w =>
    -- Windows turns `WSAESHUTDOWN` into a count of zero
    refine countsBytes_call fits (fun _ => .recv) (Windows.Socket.lengthOf_recvLen buf)
      (fun r => ?_) fun r => ?_
    · split
      · split
        · exact emits_run_pure _
        · exact emits_run_throw _
      · exact emits_run_pure _
    · split
      · split
        · exact yields_pure _ (Or.inl rfl)
        · exact yields_throw _
      · next success => exact yields_pure _ (Or.inr ⟨success, rfl⟩)

theorem Socket.countsBytes_recvFromWithFlags (self : Socket) (peek : Bool) :
    CountsBytes buf (·.1.1) (self.recvFromWithFlags P buf peek) := by
  cases P with
  | unix target =>
    exact countsBytes_call fits (fun _ => .recvfrom) (lengthOf_length buf)
      (fun r => emits_cvt r.ret _) fun r => yields_cvt r.ret fun _ => rfl
  | windows w =>
    refine countsBytes_call fits (fun _ => .recvfrom) (Windows.Socket.lengthOf_recvLen buf)
      (fun r => ?_) fun r => ?_
    · dsimp only
      split
      · split
        · exact emits_run_pure _
        · exact emits_run_throw _
      · exact emits_run_pure _
    · dsimp only
      split
      · split
        · exact yields_pure _ (Or.inl rfl)
        · exact yields_throw _
      · next success => exact yields_pure _ (Or.inr ⟨success, rfl⟩)

end Streams

/-! ### Writing a whole buffer -/

/-- The other end: of what is sent over `s` it receives a front of any length but none. -/
inductive Wire (s : Handle) : List UInt8 → Event os → List UInt8 → Prop
  | sent {received buf len} {k : Nat} {errno} : 0 < k → (k : Int) ≤ len →
      Wire s received ⟨.send s buf len, ⟨k, errno⟩⟩ (received ++ buf.take k)

namespace Bt

/-- A caller that goes on writing what has not been sent. -/
def writeAll (P : Platform) (self : BtStream) (buf : List UInt8) : Sys Unit :=
  repeating (fun unsent => do
    if unsent = [] then pure (.inr ())
    else
      let n ← self.write P unsent
      pure (.inl (unsent.drop n))) buf

variable (P : Platform) (self : BtStream)

theorem ensures_write (buf received : List UInt8) (fits : buf.length ≤ isizeMax)
    (nonempty : buf ≠ []) :
    Ensures (Wire self.imp.inner.raw) (self.write P buf).run received fun y received' =>
      ∃ k, 0 < k ∧ k ≤ buf.length ∧ y = .ok k ∧ received' = received ++ buf.take k := by
  have given := P.lengthOf_wrlen buf
  have pos := given.pos nonempty
  have le := given.le
  rw [isizeMax] at fits
  refine (ensures_sys_bind _ _ _).mpr ⟨⟨⟨1, 0⟩, _, @Wire.sent _ _ _ _ 1 0 Nat.one_pos pos⟩, ?_⟩
  intro r received' sent
  cases sent with
  | @sent _ _ k errno kpos kle =>
    have counted : cvt ⟨k, errno⟩ = .ok (k : Int) := if_neg (by dsimp only; omega)
    have cast : asUnsigned 64 k = k := by
      rw [asUnsigned, Int.emod_eq_of_lt (by omega) (by omega)]
      rfl
    rw [ensures_check_bind, counted]
    exact ⟨k, kpos, by omega, congrArg Except.ok cast, rfl⟩

theorem ensures_writeAll (buf received : List UInt8) (fits : buf.length ≤ isizeMax) :
    Ensures (Wire self.imp.inner.raw) (writeAll P self buf).run received fun y received' =>
      y = .ok () ∧ received' = received ++ buf := by
  -- nothing is skipped and nothing sent twice
  refine ensures_repeating
    (fun unsent w => w ++ unsent = received ++ buf ∧ unsent.length ≤ isizeMax)
    (fun unsent _ => unsent.length) ?_ buf received ⟨rfl, fits⟩
  rintro unsent w ⟨whole, fits⟩
  split
  · next done =>
    rw [done, List.append_nil] at whole
    exact ⟨rfl, whole⟩
  · next more =>
    -- each `write` takes at least one byte from the front of what is unsent
    refine (ensures_run_bind _ _ _).mpr ((ensures_write P self unsent w fits more).mono ?_)
    rintro _ w' ⟨k, pos, le, rfl, rfl⟩
    have rest : (unsent.drop k).length = unsent.length - k := List.length_drop
    refine ⟨⟨?_, by omega⟩, by omega⟩
    rw [List.append_assoc, List.take_append_drop, whole]

end Bt

/-- Lengths and counts agree with the buffer on both platforms, whatever its length, so that
writing what is unsent until nothing is left transmits the buffer. -/
theorem byte_counts (P : Platform) (self : BtStream) (buf : List UInt8)
    (fits : buf.length ≤ isizeMax) :
    CountsBytes buf id (self.send P buf) ∧
    (∀ dst, CountsBytes buf id (self.sendTo P buf dst)) ∧
    CountsBytes buf Prod.fst (self.recv P buf) ∧
    CountsBytes buf (·.1.1) (self.recvFrom P buf) ∧
    CountsBytes buf Prod.fst (self.peek P buf) ∧
    CountsBytes buf (·.1.1) (self.peekFrom P buf) ∧
    ∀ received, Ensures (Wire self.inner.raw) (Bt.writeAll P ⟨self⟩ buf).run received
      fun y received' => y = .ok () ∧ received' = received ++ buf := by
  refine ⟨?_, ?_, ?_, ?_, ?_, ?_, ?_⟩
  · exact self.countsBytes_send P buf fits
  · exact self.countsBytes_sendTo P buf fits
  · exact self.inner.countsBytes_recvWithFlags P buf fits false
  · exact self.inner.countsBytes_recvFromWithFlags P buf fits false
  · exact self.inner.countsBytes_recvWithFlags P buf fits true
  · exact self.inner.countsBytes_recvFromWithFlags P buf fits true
  · intro received
    exact Bt.ensures_writeAll P ⟨self⟩ buf received fits

theorem three_bytes_written :
    Ensures (Wire 5) (Bt.writeAll (.unix .linux) ⟨⟨⟨5⟩, .rfcomm⟩⟩ [1, 2, 3]).run [0]
      fun y received => y = .ok () ∧ received = [0, 1, 2, 3] := by
  obtain ⟨_, _, _, _, _, _, written⟩ :=
    byte_counts (.unix .linux) ⟨⟨5⟩, .rfcomm⟩ [1, 2, 3] (by decide)
  exact written [0]

end IoBluetooth
