import IoBluetooth.Properties.SentAddresses

/-!
# Socket addresses as the kernel lays them out

The crate encodes and decodes every socket address on Unix as a `sockaddr_rc`, and the kernel
reads and writes those of an L2CAP socket as a `sockaddr_l2`, which has the address two bytes
further on.
-/
namespace IoBluetooth

open Interaction Memory Rust

/-- Where the kernel has the device address in a socket address of the protocol. -/
def bdaddrOffset : BtProtocol → Nat
  | .rfcomm => 2
  | .l2cap => 4

/-- The device address that the kernel reads. It copies as many bytes as the length says, over
zeroes. -/
def kernelAddr (protocol : BtProtocol) (x : List UInt8 × Nat) : BtAddr :=
  ⟨field (x.1.take x.2) (bdaddrOffset protocol) 6⟩

/-- The bytes of a socket address that the kernel makes for the device address `b`. -/
inductive KernelSockaddr (b : BtAddr) : BtProtocol → List UInt8 → Prop
  | rc (channel : UInt8) (tail : List UInt8) : KernelSockaddr b .rfcomm
      ((leBytes 2 Unix.AF_BLUETOOTH).toList ++ (b.octets.toList ++ channel :: tail))
  | l2 (psm cid : Block 2) (type : UInt8) (tail : List UInt8) : KernelSockaddr b .l2cap
      ((leBytes 2 Unix.AF_BLUETOOTH).toList ++ (psm.toList ++ (b.octets.toList ++
        (cid.toList ++ type :: tail))))

/-- A call that succeeds writes the bytes `w` as far as the length goes; one that fails writes
nothing. -/
def Answered (w : List UInt8) (len : Nat) (r : AddrReply) : Prop :=
  if r.ret.value = -1 then r.addr = [] ∧ r.addrlen = len else r.addr = w.take len

/-- The calls that write a socket address write `w`. -/
def Answers (w : List UInt8) : Event os → Prop
  | ⟨.accept _ len, r⟩ => Answered w len r
  | ⟨.accept4 _ len, r⟩ => Answered w len r
  | ⟨.getsockname _ len, r⟩ => Answered w len r
  | ⟨.getpeername _ len, r⟩ => Answered w len r
  | ⟨.recvfrom _ _ _ len, r⟩ =>
    Answered w len ⟨(r : RecvfromReply).ret, (r : RecvfromReply).addr, (r : RecvfromReply).addrlen⟩
  | _ => True

/-! ### What the kernel reads -/

/-- The addresses that survive being written for one layout and read in the other. -/
def Survives (protocol : BtProtocol) (pad : UInt8) (a : BtAddr) : Prop :=
  protocol = .rfcomm ∨ a.octets = #v[1, pad, 1, pad, 1, pad]

/-- Six bytes that start with two others and go on with their own first four. -/
private theorem shifted_iff (p l : List UInt8) (two : p.length = 2) (six : l.length = 6) :
    p ++ l.take 4 = l ↔ l = p ++ p ++ p := by
  obtain ⟨u, v, rfl⟩ := List.length_eq_two.mp two
  match l, six with
  | [a, b, c, d, e, f], _ =>
    simp only [List.take_succ_cons, List.take_zero, List.cons_append, List.nil_append,
      List.cons.injEq, and_true]
    -- Each pair of bytes equals the pair before it, back to `u` and `v`.
    constructor
    · rintro ⟨rfl, rfl, rfl, rfl, rfl, rfl⟩
      exact ⟨rfl, rfl, rfl, rfl, rfl, rfl⟩
    · rintro ⟨rfl, rfl, rfl, rfl, rfl, rfl⟩
      exact ⟨rfl, rfl, rfl, rfl, rfl, rfl⟩

private theorem shifted_back_iff (p l : List UInt8) (two : p.length = 2) (six : l.length = 6) :
    l.drop 2 ++ p = l ↔ l = p ++ p ++ p := by
  obtain ⟨u, v, rfl⟩ := List.length_eq_two.mp two
  match l, six with
  | [a, b, c, d, e, f], _ =>
    simp only [List.drop_succ_cons, List.drop_zero, List.cons_append, List.nil_append,
      List.cons.injEq, and_true]
    constructor
    · rintro ⟨rfl, rfl, rfl, rfl, rfl, rfl⟩
      exact ⟨rfl, rfl, rfl, rfl, rfl, rfl⟩
    · rintro ⟨rfl, rfl, rfl, rfl, rfl, rfl⟩
      exact ⟨rfl, rfl, rfl, rfl, rfl, rfl⟩

theorem kernelAddr_rcFields (protocol : BtProtocol) (a : BtAddr) (pad : UInt8) :
    kernelAddr protocol (Unix.rcFields a ++ [pad], Unix.sizeofSockaddrRc) = a ↔
      Survives protocol pad a := by
  have all : (Unix.rcFields a ++ [pad]).take Unix.sizeofSockaddrRc = Unix.rcFields a ++ [pad] :=
    List.take_of_length_le (by simp [Unix.rcFields, Unix.sizeofSockaddrRc])
  cases protocol with
  | rfcomm =>
    refine iff_of_true ?_ (Or.inl rfl)
    apply BtAddr.ext
    dsimp only [kernelAddr, bdaddrOffset]
    rw [all, Unix.rcFields, List.append_assoc, List.append_assoc]
    exact field_append _ _ a.octets
  | l2cap =>
    -- the kernel reads two bytes further on, past the end of the address
    have read : (field (Unix.rcFields a ++ [pad]) 4 6).toList =
        a.octets.toList.drop 2 ++ [1, pad] := by
      rw [toList_field _ _ (by simp [Unix.rcFields]), Unix.rcFields]
      simp [List.drop_append, List.drop_of_length_le, List.take_of_length_le]
    have inner := shifted_back_iff [1, pad] a.octets.toList rfl a.octets.length_toList
    dsimp only [kernelAddr, bdaddrOffset]
    rw [all, Survives]
    constructor
    · intro same
      have octets := congrArg (·.octets.toList) same
      exact Or.inr (Vector.toList_inj.mp (inner.mp (read ▸ octets)))
    · rintro (wrong | same)
      · cases wrong
      · have octets := inner.mpr (congrArg Vector.toList same)
        exact BtAddr.ext (Vector.toList_inj.mp (read ▸ octets))

/-! ### What the crate decodes -/

/-- The two bytes of an L2CAP socket address that the crate takes for the start of the device
address. -/
def RepeatsPsm (protocol : BtProtocol) (w : List UInt8) (b : BtAddr) : Prop :=
  let psm := (field w 2 2 : Block 2).toList
  protocol = .rfcomm ∨ b.octets.toList = psm ++ psm ++ psm

theorem decoded_iff (b : BtAddr) (protocol : BtProtocol) (w : List UInt8)
    (written : KernelSockaddr b protocol w) :
    (⟨field w 2 6⟩ : BtAddr) = b ↔ RepeatsPsm protocol w b := by
  cases written with
  | rc channel tail =>
    refine iff_of_true ?_ (Or.inl rfl)
    exact BtAddr.ext (field_append (leBytes 2 Unix.AF_BLUETOOTH).toList _ b.octets)
  | l2 psm cid type tail =>
    -- the crate reads from the PSM on
    have port := field_append (leBytes 2 Unix.AF_BLUETOOTH).toList
      (b.octets.toList ++ (cid.toList ++ type :: tail)) psm
    have read : (field ((leBytes 2 Unix.AF_BLUETOOTH).toList ++ (psm.toList ++ (b.octets.toList ++
        (cid.toList ++ type :: tail)))) 2 6).toList = psm.toList ++ b.octets.toList.take 4 := by
      rw [toList_field _ _ (by simp only [List.length_append, Vector.length_toList]; omega)]
      simp [List.take_append]
    have inner := shifted_iff psm.toList b.octets.toList psm.length_toList b.octets.length_toList
    have offset : (leBytes 2 Unix.AF_BLUETOOTH).toList.length = 2 := rfl
    rw [offset] at port
    rw [RepeatsPsm, port]
    constructor
    · intro same
      have octets := congrArg (·.octets.toList) same
      exact Or.inr (inner.mp (read ▸ octets))
    · rintro (wrong | same)
      · cases wrong
      · have octets := inner.mpr same
        exact BtAddr.ext (Vector.toList_inj.mp (read ▸ octets))

theorem KernelSockaddr.length_ge {b : BtAddr} {protocol : BtProtocol} {w : List UInt8}
    (written : KernelSockaddr b protocol w) : 8 ≤ w.length := by
  cases written with
  | rc channel tail =>
    simp only [List.length_append, List.length_cons, Vector.length_toList]
    omega
  | l2 psm cid type tail =>
    simp only [List.length_append, List.length_cons, Vector.length_toList]
    omega

private theorem rcBdaddr_fill (n : Nat) (w : List UInt8) (fits : 8 ≤ n) (written : 8 ≤ w.length) :
    Unix.rcBdaddr (fill (zeroed n) (w.take n)) = ⟨field w 2 6⟩ := by
  have inside : 2 + 6 ≤ (w.take n).length := by
    rw [List.length_take]
    omega
  rw [Unix.rcBdaddr, field_fill _ _ _ fits inside, field_take _ _ _ fits]

section Decoders

variable (w : List UInt8) (t : Trace os) (honest : ∀ e ∈ t, Answers w e)

/-- The attempts of an `accept`: none but the last writes the address or its length. -/
private theorem accepted_addr (call : Nat → Prog os AddrReply)
    (answers : ∀ len t r, Runs (call len) t r → (∀ e ∈ t, Answers w e) →
      Answered w len r)
    (s : Block Unix.sizeofSockaddrRc × Nat)
    (y : Except IoError Int × Block Unix.sizeofSockaddrRc × Nat)
    (run : Runs (Unix.cvtR (Unix.Socket.acceptInto call) s) t y) (honest : ∀ e ∈ t, Answers w e) :
    (∃ fd, y.1 = .ok fd ∧ y.2.1 = fill s.1 (w.take s.2)) ∨ ((∃ e, y.1 = .error e) ∧ y.2 = s) := by
  have attempt (s : Block Unix.sizeofSockaddrRc × Nat) (t : Trace os) (r : Ret)
      (s' : Block Unix.sizeofSockaddrRc × Nat)
      (run : Runs (Unix.Socket.acceptInto call s) t (r, s')) (honest : ∀ e ∈ t, Answers w e) :
      if r.value = -1 then s' = s else s'.1 = fill s.1 (w.take s.2) := by
    rw [Unix.Socket.acceptInto, runs_bind] at run
    obtain ⟨u, v, reply, rfl, called, rfl, eq⟩ := run
    cases eq
    have answered := answers s.2 u reply called fun e member => honest e (by simp [member])
    unfold Answered at answered
    split at answered
    · next failed =>
      rw [if_pos failed, answered.1, answered.2]
      have same : fill s.1 [] = s.1 := Vector.ext fun i hi => by simp
      rw [same]
    · next passed => rw [if_neg passed, answered]
  -- induction over the attempts of `cvt_r`
  revert honest
  refine Unix.runs_cvtR_induction ?_ ?_ s t y run
  · intro s t r s' run quiet honest
    have outcome := attempt s t r s' run honest
    by_cases failed : r.value = -1
    · rw [if_pos failed] at outcome
      exact Or.inr ⟨⟨_, (cvt_eq_error_iff r _).mpr ⟨failed, rfl⟩⟩, outcome⟩
    · rw [if_neg failed] at outcome
      exact Or.inl ⟨_, (cvt_eq_ok_iff r _).mpr ⟨failed, rfl⟩, outcome⟩
  · intro s t r s' u y run signal ih honest
    have outcome := attempt s t r s' run fun e member => honest e (List.mem_append_left u member)
    rw [if_pos signal.1] at outcome
    subst outcome
    exact ih fun e member => honest e (List.mem_append_right t member)

include honest

private theorem acceptFallback_addr (self : Socket) (s : Block Unix.sizeofSockaddrRc × Nat)
    (r : Socket × BtAddr) (run : Runs (Unix.Socket.acceptFallback target self s).run t (.ok r)) :
    r.2 = Unix.rcBdaddr (fill s.1 (w.take s.2)) := by
  rw [Unix.Socket.acceptFallback, runs_run_bind] at run
  simp only [runs_run_lift] at run
  rcases run with ⟨e, ⟨_, _, eq⟩, _⟩ | ⟨u, v, ⟨res, addr, len⟩, rfl, ⟨y, accepted, eq⟩, rest⟩
  · cases eq
  · cases eq
    have answers (len : Nat) (t : Trace os) (r : AddrReply)
        (run : Runs (@Prog.perform os (.accept self.raw len)) t r) (honest : ∀ e ∈ t, Answers w e) :
        Answered w len r := by
      obtain rfl := (@runs_perform os (.accept self.raw len) t r).mp run
      exact honest _ (List.mem_singleton_self _)
    have outcome := accepted_addr w u _ answers s _ accepted fun e member =>
      honest e (List.mem_append_left v member)
    rw [runs_check_bind] at rest
    rcases rest with ⟨e, _, _, wrong⟩ | ⟨fd, accepted, rest⟩
    · cases wrong
    · rcases outcome with ⟨_, _, filled⟩ | ⟨⟨e, failed⟩, _⟩
      · rcases (runs_owning _ _ _ _).mp rest with ⟨x, body, eq⟩ | ⟨_, _, _, _, _, _, wrong⟩
        · cases eq
          rcases (runs_run_bind _ _ _ _).mp body with ⟨_, _, wrong⟩ | ⟨_, _, _, _, _, _, eq⟩
          · cases wrong
          · cases eq
            rw [← filled]
        · cases wrong
      · rw [accepted] at failed
        cases failed

theorem Unix.accept_addr (target : Target) (self : Socket) (r : Socket × BtAddr)
    (run : Runs (Unix.Socket.accept target self).run t (.ok r)) :
    r.2 = rcBdaddr (fill (zeroed sizeofSockaddrRc) (w.take sizeofSockaddrRc)) := by
  unfold Unix.Socket.accept at run
  dsimp only at run
  split at run
  · rw [runs_run_bind] at run
    simp only [runs_run_lift] at run
    rcases run with ⟨e, ⟨_, _, eq⟩, _⟩ | ⟨u, v, ⟨res, s⟩, rfl, ⟨y, accepted, eq⟩, rest⟩
    · cases eq
    · cases eq
      have answers (len : Nat) (t : Trace os) (r : AddrReply)
          (run : Runs (@Prog.perform os (.accept4 self.raw len)) t r)
          (honest : ∀ e ∈ t, Answers w e) : Answered w len r := by
        obtain rfl := (@runs_perform os (.accept4 self.raw len) t r).mp run
        exact honest _ (List.mem_singleton_self _)
      have outcome := accepted_addr w u _ answers _ _ accepted fun e member =>
        honest e (List.mem_append_left v member)
      rcases outcome with ⟨fd, ok, filled⟩ | ⟨⟨e, failed⟩, kept⟩
      · dsimp only at ok filled
        subst ok
        obtain ⟨_, eq⟩ := rest
        cases eq
        rw [filled]
      · dsimp only at failed kept
        subst failed kept
        dsimp only at rest
        split at rest
        · -- the kernel has no `accept4`: the fallback starts from storage nothing was written to
          have later : ∀ e ∈ v, Answers w e :=
            fun e member => honest e (List.mem_append_right u member)
          exact acceptFallback_addr w v later self
            (zeroed Unix.sizeofSockaddrRc, Unix.sizeofSockaddrRc) r rest
        · obtain ⟨_, wrong⟩ := rest
          cases wrong
  · exact acceptFallback_addr w t honest self
      (zeroed Unix.sizeofSockaddrRc, Unix.sizeofSockaddrRc) r run

theorem Unix.recvFrom_addr (self : Socket) (buf : List UInt8) (peek : Bool)
    (r : (Nat × BtAddr) × List UInt8)
    (run : Runs (Unix.Socket.recvFromWithFlags self buf peek).run t (.ok r)) :
    r.1.2 = rcBdaddr (fill (zeroed sizeofSockaddrRc) (w.take sizeofSockaddrRc)) := by
  simp only [Unix.Socket.recvFromWithFlags, runs_sys_bind, runs_check_bind, cvt_eq_ok_iff] at run
  obtain ⟨reply, u, rfl, ⟨_, _, _, wrong⟩ | ⟨n, ⟨passed, _⟩, _, eq⟩⟩ := run
  · cases wrong
  · cases eq
    have answered : Answered w sizeofSockaddrRc ⟨reply.ret, reply.addr, reply.addrlen⟩ :=
      honest ⟨.recvfrom self.raw buf.length peek sizeofSockaddrRc, reply⟩ List.mem_cons_self
    rw [Answered, if_neg passed] at answered
    exact congrArg (fun addr => rcBdaddr (fill (zeroed sizeofSockaddrRc) addr)) answered

/-- What `sockname` decodes is what the call it makes has written. -/
private theorem sockname_addr (target : Target) (call : Nat → Sys AddrReply)
    (answers : ∀ len t reply, Runs (call len).run t (.ok reply) → (∀ e ∈ t, Answers w e) →
      Answered w len reply)
    (r : BtAddr) (run : Runs (sockname (.unix target) call).run t (.ok r)) :
    r = Unix.rcBdaddr (fill (zeroed Unix.sizeofSockaddrStorage)
      (w.take Unix.sizeofSockaddrStorage)) := by
  rcases (runs_run_bind _ _ _ _).mp run with ⟨_, _, wrong⟩ | ⟨u, v, reply, rfl, called, rest⟩
  · cases wrong
  · have answered := answers _ u reply called fun e member =>
      honest e (List.mem_append_left v member)
    rcases (runs_check_bind _ _ _ _).mp rest with ⟨_, _, _, wrong⟩ | ⟨_, passed, _, eq⟩
    · cases wrong
    · cases eq
      rw [Answered, if_neg ((cvt_eq_ok_iff _ _).mp passed).1] at answered
      rw [answered]
      rfl

theorem Unix.getsockname_addr (target : Target) (h : Handle) (r : BtAddr)
    (run : Runs (sockname (.unix target) fun len => sys (.getsockname h len)).run t (.ok r)) :
    r = rcBdaddr (fill (zeroed sizeofSockaddrStorage) (w.take sizeofSockaddrStorage)) := by
  refine sockname_addr w t honest target _ (fun len t reply called honest => ?_) r run
  obtain ⟨_, rfl, eq⟩ := (runs_sys (.getsockname h len) t _).mp called
  cases eq
  exact honest _ (List.mem_singleton_self _)

theorem Unix.getpeername_addr (target : Target) (h : Handle) (r : BtAddr)
    (run : Runs (sockname (.unix target) fun len => sys (.getpeername h len)).run t (.ok r)) :
    r = rcBdaddr (fill (zeroed sizeofSockaddrStorage) (w.take sizeofSockaddrStorage)) := by
  refine sockname_addr w t honest target _ (fun len t reply called honest => ?_) r run
  obtain ⟨_, rfl, eq⟩ := (runs_sys (.getpeername h len) t _).mp called
  cases eq
  exact honest _ (List.mem_singleton_self _)

end Decoders

/-! ### Both directions -/

/-- In every run that returns, `q` gives the device address of the socket address that the kernel
wrote exactly when that address repeats the two bytes before it. -/
def RecoversIff {α : Type} (protocol : BtProtocol) (q : Sys α) (addr : α → BtAddr) : Prop :=
  ∀ b w t r, KernelSockaddr b protocol w → (∀ e ∈ t, Answers w e) → Runs q.run t (.ok r) →
    (addr r = b ↔ RepeatsPsm protocol w b)

/-- What `q` hands over is read by the kernel as `a` exactly when `a` survives. -/
def DeliversIff {α : Type} (protocol : BtProtocol) (q : Sys α) (pad : UInt8) (a : BtAddr) : Prop :=
  (addressesOf q).Nonempty ∧
    ((∀ x ∈ addressesOf q, kernelAddr protocol x = a) ↔ Survives protocol pad a)

private theorem recoversIff_of_addr {α : Type} (protocol : BtProtocol) (q : Sys α)
    (addr : α → BtAddr) (n : Nat) (fits : 8 ≤ n)
    (reads : ∀ w t, (∀ e ∈ t, Answers w e) → ∀ r, Runs q.run t (.ok r) →
      addr r = Unix.rcBdaddr (fill (zeroed n) (w.take n))) : RecoversIff protocol q addr := by
  intro b w t r written honest run
  rw [reads w t honest r run, rcBdaddr_fill n w fits written.length_ge]
  exact decoded_iff b protocol w written

private theorem deliversIff_of_addressesOf {α : Type} (protocol : BtProtocol) (q : Sys α)
    (pad : UInt8) (a : BtAddr)
    (handed : addressesOf q = {(Unix.rcFields a ++ [pad], Unix.sizeofSockaddrRc)}) :
    DeliversIff protocol q pad a := by
  rw [DeliversIff, handed]
  refine ⟨Set.singleton_nonempty _, ?_⟩
  simp only [Set.mem_singleton_iff, forall_eq]
  exact kernelAddr_rcFields protocol a pad

/-- With RFCOMM every address goes to the kernel and comes back; with L2CAP, whose socket address
has its device address two bytes later, only those that the shift maps to themselves. -/
theorem protocol_layout_iff (target : Target) :
    (∀ a protocol,
      DeliversIff protocol (BtListener.bind (.unix target) a protocol) 0 a ∧
      DeliversIff protocol (BtStream.connect (.unix target) a protocol) 0 a ∧
      ∀ pad timeout,
        DeliversIff protocol (BtStream.connectTimeout (.unix target) pad a protocol timeout)
          pad a) ∧
    (∀ self : BtListener,
      RecoversIff self.protocol (self.accept (.unix target)) (·.2) ∧
      RecoversIff self.protocol (self.localAddr (.unix target)) id) ∧
    (∀ self : BtStream,
      (∀ buf a, DeliversIff self.protocol (self.sendTo (.unix target) buf a) 0 a) ∧
      (∀ buf, RecoversIff self.protocol (self.recvFrom (.unix target) buf) (·.1.2)) ∧
      (∀ buf, RecoversIff self.protocol (self.peekFrom (.unix target) buf) (·.1.2)) ∧
      RecoversIff self.protocol (self.localAddr (.unix target)) id ∧
      RecoversIff self.protocol (self.peerAddr (.unix target)) id) := by
  refine ⟨fun a protocol => ?_, fun self => ?_, fun self => ?_⟩
  · have supported := supports_unix target protocol
    refine ⟨deliversIff_of_addressesOf _ _ _ _ ?_, deliversIff_of_addressesOf _ _ _ _ ?_,
      fun pad timeout => deliversIff_of_addressesOf _ _ _ _ ?_⟩
    · rw [addressesOf_bind _ _ _ supported, Platform.toSockaddr_unix]
    · rw [addressesOf_connect _ _ _ supported, Platform.toSockaddr_unix]
    · rw [addressesOf_connectTimeout _ _ _ _ _ supported, Platform.literal_unix]
  · refine ⟨recoversIff_of_addr _ _ _ Unix.sizeofSockaddrRc (by decide) fun w t honest r run => ?_,
      recoversIff_of_addr _ _ _ Unix.sizeofSockaddrStorage (by decide)
        fun w t honest r run => Unix.getsockname_addr w t honest target _ r run⟩
    rcases (runs_run_bind _ _ _ _).mp run with
      ⟨_, _, wrong⟩ | ⟨u, v, ⟨s, addr⟩, rfl, accepted, rest⟩
    · cases wrong
    · obtain ⟨_, eq⟩ := rest
      cases eq
      exact Unix.accept_addr w u (fun e member => honest e (List.mem_append_left v member)) target
        _ _ accepted
  · refine ⟨fun buf a => deliversIff_of_addressesOf _ _ _ _ ?_, fun buf => ?_, fun buf => ?_,
      ?_, ?_⟩
    · rw [addressesOf_sendTo, Platform.toSockaddr_unix]
    · exact recoversIff_of_addr _ _ _ Unix.sizeofSockaddrRc (by decide)
        fun w t honest r run => Unix.recvFrom_addr w t honest _ buf false r run
    · exact recoversIff_of_addr _ _ _ Unix.sizeofSockaddrRc (by decide)
        fun w t honest r run => Unix.recvFrom_addr w t honest _ buf true r run
    · exact recoversIff_of_addr _ _ _ Unix.sizeofSockaddrStorage (by decide)
        fun w t honest r run => Unix.getsockname_addr w t honest target _ r run
    · exact recoversIff_of_addr _ _ _ Unix.sizeofSockaddrStorage (by decide)
        fun w t honest r run => Unix.getpeername_addr w t honest target _ r run

/-- A socket address of an L2CAP peer 06:05:04:03:02:01 on PSM 0x1019. -/
def l2capPeer : List UInt8 := [31, 0, 0x19, 0x10, 1, 2, 3, 4, 5, 6, 0x40, 0, 0]

private theorem kernelSockaddr_l2capPeer :
    KernelSockaddr ⟨#v[1, 2, 3, 4, 5, 6]⟩ .l2cap l2capPeer :=
  .l2 #v[0x19, 0x10] #v[0x40, 0] 0 []

/-- A socket address of an RFCOMM peer 06:05:04:03:02:01 on channel 3. -/
def rfcommPeer : List UInt8 := [31, 0, 1, 2, 3, 4, 5, 6, 3, 0]

private theorem kernelSockaddr_rfcommPeer :
    KernelSockaddr ⟨#v[1, 2, 3, 4, 5, 6]⟩ .rfcomm rfcommPeer :=
  .rc 3 [0]

private theorem runs_peerAddr (protocol : BtProtocol) (w : List UInt8) :
    Runs (BtStream.peerAddr (.unix .linux) ⟨⟨3⟩, protocol⟩).run
      [⟨.getpeername 3 128, ⟨⟨0, 0⟩, w, w.length⟩⟩]
      (.ok (Unix.ofSockaddrStorage (fill (zeroed _) w))) := by
  simp only [BtStream.peerAddr, sockname, runs_sys_bind, runs_check_bind]
  exact ⟨⟨⟨0, 0⟩, w, w.length⟩, [], rfl, Or.inr ⟨0, rfl, rfl, rfl⟩⟩

theorem l2cap_addresses_shifted :
    (∀ x ∈ addressesOf (BtStream.connect (.unix .linux) ⟨#v[1, 2, 3, 4, 5, 6]⟩ .l2cap),
      kernelAddr .l2cap x = ⟨#v[3, 4, 5, 6, 1, 0]⟩) ∧
    KernelSockaddr ⟨#v[1, 2, 3, 4, 5, 6]⟩ .l2cap l2capPeer ∧
    Runs (BtStream.peerAddr (.unix .linux) ⟨⟨3⟩, .l2cap⟩).run
      [⟨.getpeername 3 128, ⟨⟨0, 0⟩, l2capPeer, l2capPeer.length⟩⟩]
      (.ok ⟨#v[0x19, 0x10, 1, 2, 3, 4]⟩) := by
  refine ⟨?_, kernelSockaddr_l2capPeer, ?_⟩
  · rw [addressesOf_connect _ _ _ (supports_unix .linux .l2cap), Platform.toSockaddr_unix]
    simp only [Set.mem_singleton_iff, forall_eq]
    decide
  · have decoded : Unix.ofSockaddrStorage (fill (zeroed _) l2capPeer) =
        ⟨#v[0x19, 0x10, 1, 2, 3, 4]⟩ := by decide
    exact decoded ▸ runs_peerAddr .l2cap l2capPeer

theorem rfcomm_peer_recovered :
    Unix.ofSockaddrStorage (fill (zeroed _) rfcommPeer) = ⟨#v[1, 2, 3, 4, 5, 6]⟩ := by
  have honest : ∀ e ∈ [(⟨.getpeername 3 128, ⟨⟨0, 0⟩, rfcommPeer, rfcommPeer.length⟩⟩ : Event os)],
      Answers rfcommPeer e := by
    simp [Answers, Answered, rfcommPeer]
  exact ((protocol_layout_iff .linux).2.2 ⟨⟨3⟩, .rfcomm⟩).2.2.2.2 _ _ _ _ kernelSockaddr_rfcommPeer
    honest (runs_peerAddr .rfcomm rfcommPeer) |>.mpr (Or.inl rfl)

end IoBluetooth
