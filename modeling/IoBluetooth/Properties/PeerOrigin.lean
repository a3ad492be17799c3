import IoBluetooth.Properties.AddressCodec
import IoBluetooth.Sys.Runs

/-!
# The origin of received data

`recv_from` and `peek_from` decode a zeroed socket address whose bytes the system wrote in part,
and take no notice of how many those are.
-/
namespace IoBluetooth

open Interaction Memory Rust

/-- On Windows the address is decoded through a number of 64 bits; its low 48 are the bytes. -/
theorem Windows.bthAddr_eq_field (w : Bthdef) (s : List UInt8) :
    bthAddr w s = ⟨field s 2 6⟩ := by
  have split : (field s 2 8 : Block 8) = (field s 2 6 : Block 6) ++ (field s 8 2 : Block 2) :=
    field_add s 2 6 2
  have fits : leNat (field s 2 8) < 2 ^ 64 := leNat_lt _
  rw [bthAddr, ofU64_eq, UInt64.toNat_ofNat_of_lt' fits, split, leNat_append]
  apply BtAddr.ext
  rw [BtAddr.ofNat, ← leBytes_mod, Nat.add_mul_mod_self_left, leBytes_mod, leBytes_leNat]

/-- The socket address of the device `p` in the layout that the platform decodes. -/
def PeerSockaddr (p : BtAddr) (s : List UInt8) : Platform → Prop
  | .unix _ => Unix.sizeofSockaddrRc ≤ s.length ∧ field s 2 6 = p.octets
  | .windows w => Windows.sizeofSockaddrBth ≤ s.length ∧
      field s 2 8 = leBytes 8 (Windows.toU64 w p).toNat

/-- `recvfrom` wrote the first `k` bytes of `s`, and none when it failed. -/
def Wrote (s : List UInt8) (k : Nat) : Event os → Prop
  | ⟨.recvfrom .., r⟩ =>
    (r : RecvfromReply).addr = s.take k ∧ ((r : RecvfromReply).ret.value = -1 → k = 0)
  | _ => True

theorem PeerSockaddr.octets {P : Platform} {p : BtAddr} {s : List UInt8}
    (peer : PeerSockaddr p s P) :
    10 ≤ s.length ∧ field s 2 6 = p.octets := by
  cases P with
  | unix target => exact peer
  | windows w =>
    obtain ⟨long, stored⟩ := peer
    have decoded := Windows.bthAddr_eq w s _ stored
    rw [Windows.bthAddr_eq_field, Windows.ofU64_toU64] at decoded
    refine ⟨le_trans (by decide) long, congrArg BtAddr.octets decoded⟩

namespace Platform

/-- How a receiving function decodes its storage. -/
def decode : Platform → List UInt8 → BtAddr
  | .unix _, s => ⟨field s 2 6⟩
  | .windows w, s => Windows.bthAddr w s

/-- The size of that storage. -/
def storage : Platform → Nat
  | .unix _ => Unix.sizeofSockaddrRc
  | .windows _ => Windows.sizeofSockaddrStorage

/-- The address that a receiving function makes of the bytes that the system wrote. -/
def origin (P : Platform) (written : List UInt8) : BtAddr :=
  P.decode (fill (zeroed P.storage) written).toList

theorem decode_eq (P : Platform) (s : List UInt8) : P.decode s = ⟨field s 2 6⟩ := by
  cases P with
  | unix target => rfl
  | windows w => exact Windows.bthAddr_eq_field w s

theorem eight_le_storage (P : Platform) : 8 ≤ P.storage := by
  cases P with
  | unix target => exact (by decide : 8 ≤ Unix.sizeofSockaddrRc)
  | windows w => exact (by decide : 8 ≤ Windows.sizeofSockaddrStorage)

/-- Byte by byte: what was written, and beyond that what the storage held before. -/
theorem octets_decode_fill (P : Platform) (init : Block P.storage) (s : List UInt8) (k : Nat)
    (long : 8 ≤ s.length) (i : Nat) (h : i < 6) :
    (P.decode (fill init (s.take k)).toList).octets[i] =
      if 2 + i < k then (field s 2 6 : Block 6)[i] else init.toList.getD (2 + i) 0 := by
  -- both layouts have the address in the bytes 2 to 7
  have fits := P.eight_le_storage
  have room : 2 + i < P.storage := by omega
  have inside : 2 + i < s.length := by omega
  simp only [decode_eq, getElem_field]
  split
  · next covered => simp [List.getD_eq_getElem?_getD, room, covered, inside]
  · next beyond =>
    have unwritten : (s.take k).length ≤ 2 + i := by
      rw [List.length_take]
      omega
    simp [List.getD_eq_getElem?_getD, room, List.getElem?_eq_none unwritten]

end Platform

section Decoded

variable (P : Platform) (p : BtAddr) (s : List UInt8) (k : Nat) (peer : PeerSockaddr p s P)

include peer

theorem origin_eq_iff :
    P.origin (s.take k) = p ↔ ∀ i (h : i < 6), k ≤ 2 + i → p.octets[i] = 0 := by
  obtain ⟨long, stored⟩ := peer.octets
  have octet (i : Nat) (h : i < 6) :=
    P.octets_decode_fill (zeroed P.storage) s k (by omega) i h
  simp only [stored, getD_zeroed] at octet
  constructor
  · intro same i h beyond
    have zero := octet i h
    rw [← Platform.origin, same, if_neg (by omega)] at zero
    exact zero
  · intro zeros
    apply BtAddr.ext
    refine Vector.ext fun i h => ?_
    rw [Platform.origin, octet i h]
    split
    · rfl
    · next beyond => exact (zeros i h (by omega)).symm

/-- What was written determines the decoded address exactly when it covers the device address. -/
theorem determined_iff :
    (∀ init : Block P.storage, P.decode (fill init (s.take k)).toList = P.origin (s.take k)) ↔
      8 ≤ k := by
  obtain ⟨long, stored⟩ := peer.octets
  have room := P.eight_le_storage
  constructor
  · intro determined
    by_contra short
    -- the last byte of the address is not written, so it is the storage's own
    have own := P.octets_decode_fill (Vector.replicate _ 1) s k (by omega) 5 (by decide)
    have zero := P.octets_decode_fill (zeroed P.storage) s k (by omega) 5 (by decide)
    rw [if_neg (by omega)] at own zero
    rw [determined, Platform.origin, zero, getD_zeroed, Vector.toList_replicate] at own
    simp [show 7 < P.storage by omega] at own
  · intro covered init
    apply BtAddr.ext
    refine Vector.ext fun i h => ?_
    rw [Platform.origin, P.octets_decode_fill _ s k (by omega) i h,
      P.octets_decode_fill _ s k (by omega) i h, if_pos (by omega), if_pos (by omega)]

end Decoded

/-! ### Runs -/

/-- The replies that `recv_from` takes for a result: a count, or on Windows a socket shut down. -/
def Platform.received : Platform → Ret → Prop
  | .unix _, r => r.value ≠ -1
  | .windows _, r => r.value ≠ -1 ∨ r.errno = WSAESHUTDOWN

theorem runs_recvFrom (P : Platform) (self : Socket) (buf : List UInt8) (peek : Bool)
    (t : Trace os) (y : Except Exit ((Nat × BtAddr) × List UInt8))
    (run : Runs (self.recvFromWithFlags P buf peek).run t y) :
    ∃ len addrlen r, t = [⟨.recvfrom self.raw len peek addrlen, r⟩] ∧
      ((P.received r.ret ∧ ∃ n rest, y = .ok ((n, P.origin r.addr), rest)) ∨
        (¬P.received r.ret ∧ ∃ e, y = .error e)) := by
  cases P with
  | unix target =>
    simp only [Socket.recvFromWithFlags, Unix.Socket.recvFromWithFlags, runs_sys_bind,
      runs_check_bind, runs_run_pure, cvt_eq_ok_iff, cvt_eq_error_iff] at run
    obtain ⟨r, u, rfl, ⟨e, ⟨failed, _⟩, rfl, eq⟩ | ⟨n, ⟨passed, _⟩, rfl, eq⟩⟩ := run
    · exact ⟨_, _, r, rfl, Or.inr ⟨fun passed => passed failed, _, eq⟩⟩
    · exact ⟨_, _, r, rfl, Or.inl ⟨passed, _, _, eq⟩⟩
  | windows w =>
    rw [Socket.recvFromWithFlags, Windows.Socket.recvFromWithFlags, runs_sys_bind] at run
    obtain ⟨r, u, rfl, run⟩ := run
    dsimp only at run
    split at run
    · next failed =>
      split at run
      · next ended =>
        obtain ⟨rfl, eq⟩ := run
        exact ⟨_, _, r, rfl, Or.inl ⟨Or.inr ended, _, _, eq⟩⟩
      · next other =>
        obtain ⟨rfl, eq⟩ := run
        refine ⟨_, _, r, rfl, Or.inr ⟨?_, _, eq⟩⟩
        rintro (passed | ended)
        · exact passed failed
        · exact other ended
    · next passed =>
      obtain ⟨rfl, eq⟩ := run
      exact ⟨_, _, r, rfl, Or.inl ⟨Or.inl passed, _, _, eq⟩⟩

/-- The result names the peer `p`, and it does so whatever the storage held before the system
wrote to it. -/
def NamesPeer (P : Platform) (p : BtAddr) (written : List UInt8)
    (y : Except Exit ((Nat × BtAddr) × List UInt8)) : Prop :=
  ∀ n a rest, y = .ok ((n, a), rest) →
    a = p ∧ ∀ init : Block P.storage, P.decode (fill init written).toList = a

/-- The call failed in a way that the crate passes on. -/
def Rejects (P : Platform) (t : Trace os) : Prop :=
  ∀ s len peek addrlen r, ⟨.recvfrom s len peek addrlen, r⟩ ∈ t → ¬P.received r.ret

private theorem namesPeer_iff (P : Platform) (self : Socket) (buf : List UInt8) (peek : Bool)
    (p : BtAddr) (s : List UInt8) (k : Nat) (t : Trace os)
    (y : Except Exit ((Nat × BtAddr) × List UInt8)) (peer : PeerSockaddr p s P)
    (wrote : ∀ e ∈ t, Wrote s k e) (run : Runs (self.recvFromWithFlags P buf peek).run t y) :
    (NamesPeer P p (s.take k) y ↔ Rejects P t ∨ 8 ≤ k) ∧
    ∀ n a rest, y = .ok ((n, a), rest) →
      (a = p ↔ ∀ i (h : i < 6), k ≤ 2 + i → p.octets[i] = 0) := by
  obtain ⟨len, addrlen, r, rfl, outcome⟩ := runs_recvFrom P self buf peek t y run
  have written := (wrote _ (List.mem_singleton_self _)).1
  -- the run is a single call, so what it did decides
  have rejects_iff : Rejects P [⟨.recvfrom self.raw len peek addrlen, r⟩] ↔ ¬P.received r.ret := by
    constructor
    · intro rejects
      exact rejects _ _ _ _ r (List.mem_singleton_self _)
    · intro unreceived s len peek addrlen r' member
      cases List.mem_singleton.mp member
      exact unreceived
  rw [rejects_iff]
  rcases outcome with ⟨received, n, rest, rfl⟩ | ⟨unreceived, e, rfl⟩
  · rw [written]
    refine ⟨?_, ?_⟩
    · constructor
      · intro names
        obtain ⟨_, determined⟩ := names n _ rest rfl
        exact Or.inr ((determined_iff P p s k peer).mp determined)
      · rintro (unreceived | covered)
        · exact absurd received unreceived
        · intro n' a rest' eq
          cases eq
          refine ⟨(origin_eq_iff P p s k peer).mpr fun i h beyond => by omega, ?_⟩
          exact (determined_iff P p s k peer).mpr covered
    · intro n' a rest' eq
      cases eq
      exact origin_eq_iff P p s k peer
  · refine ⟨iff_of_true ?_ (Or.inl unreceived), ?_⟩
    · intro n a rest eq
      cases eq
    · intro n a rest eq
      cases eq

theorem peer_origin_iff (P : Platform) (self : BtStream) (buf : List UInt8) (p : BtAddr)
    (s : List UInt8) (k : Nat) (t : Trace os) (y : Except Exit ((Nat × BtAddr) × List UInt8))
    (peer : PeerSockaddr p s P) (wrote : ∀ e ∈ t, Wrote s k e)
    (run : Runs (self.recvFrom P buf).run t y ∨ Runs (self.peekFrom P buf).run t y) :
    (NamesPeer P p (s.take k) y ↔ Rejects P t ∨ 8 ≤ k) ∧
    ∀ n a rest, y = .ok ((n, a), rest) →
      (a = p ↔ ∀ i (h : i < 6), k ≤ 2 + i → p.octets[i] = 0) := by
  rcases run with received | peeked
  · exact namesPeer_iff P self.inner buf false p s k t y peer wrote received
  · exact namesPeer_iff P self.inner buf true p s k t y peer wrote peeked

/-- The socket address of the peer 06:05:04:03:02:01. -/
def peerBytes : List UInt8 := [31, 0, 1, 2, 3, 4, 5, 6, 1, 0]

private theorem peerSockaddr_peerBytes :
    PeerSockaddr ⟨#v[1, 2, 3, 4, 5, 6]⟩ peerBytes (.unix .linux) :=
  ⟨by decide, by decide⟩

/-- Five bytes are received, and the first `k` of the peer's socket address. -/
def receivedFive (k : Nat) : Trace os :=
  [⟨.recvfrom 3 8 false 10, ⟨⟨5, 0⟩, [104, 101, 108, 108, 111], peerBytes.take k, k⟩⟩]

private theorem runs_receivedFive (k : Nat) :
    Runs (BtStream.recvFrom (.unix .linux) ⟨⟨3⟩, .rfcomm⟩ (List.replicate 8 0)).run (receivedFive k)
      (.ok ((5, (Platform.unix .linux).origin (peerBytes.take k)),
        [104, 101, 108, 108, 111, 0, 0, 0])) := by
  simp only [BtStream.recvFrom, Socket.recvFrom, Socket.recvFromWithFlags,
    Unix.Socket.recvFromWithFlags, runs_sys_bind, runs_check_bind]
  exact ⟨⟨⟨5, 0⟩, [104, 101, 108, 108, 111], peerBytes.take k, k⟩, [], rfl,
    Or.inr ⟨5, rfl, rfl, rfl⟩⟩

private theorem wrote_receivedFive (k : Nat) : ∀ e ∈ receivedFive k, Wrote peerBytes k e := by
  simp [receivedFive, Wrote]

/-- The system writes no address, and the zeroed storage is taken for one. -/
theorem unnamed_peer :
    PeerSockaddr ⟨#v[1, 2, 3, 4, 5, 6]⟩ peerBytes (.unix .linux) ∧
    (∀ e ∈ receivedFive 0, Wrote peerBytes 0 e) ∧
    Runs (BtStream.recvFrom (.unix .linux) ⟨⟨3⟩, .rfcomm⟩ (List.replicate 8 0)).run (receivedFive 0)
      (.ok ((5, ⟨#v[0, 0, 0, 0, 0, 0]⟩), [104, 101, 108, 108, 111, 0, 0, 0])) ∧
    ¬NamesPeer (.unix .linux) ⟨#v[1, 2, 3, 4, 5, 6]⟩ (peerBytes.take 0)
      (.ok ((5, ⟨#v[0, 0, 0, 0, 0, 0]⟩), [104, 101, 108, 108, 111, 0, 0, 0])) := by
  have decoded : (Platform.unix .linux).origin (peerBytes.take 0) = ⟨#v[0, 0, 0, 0, 0, 0]⟩ := by
    decide
  refine ⟨peerSockaddr_peerBytes, wrote_receivedFive 0, decoded ▸ runs_receivedFive 0, ?_⟩
  intro named
  exact absurd (named _ _ _ rfl).1 (by decide)

theorem named_peer :
    (Platform.unix .linux).origin (peerBytes.take 10) = ⟨#v[1, 2, 3, 4, 5, 6]⟩ := by
  have named := (peer_origin_iff _ _ _ _ _ 10 _ _ peerSockaddr_peerBytes (wrote_receivedFive 10)
    (Or.inl (runs_receivedFive 10))).1.mpr (Or.inr (by decide))
  exact (named _ _ _ rfl).1

end IoBluetooth
