import IoBluetooth.Properties.AddressCodec
import IoBluetooth.Sys.Calls
import IoBluetooth.Sys.TimedConnect

/-!
# The socket addresses that the system is given

`bind`, `connect` and `send_to` encode an address with the conversion that the platform
exports, `connect_timeout` with a literal of its own. Each function hands the system exactly
one socket address, whatever the system replies, so two functions reach the same endpoint
when these two are equal.
-/
namespace IoBluetooth

open Interaction Memory Rust

/-- The socket address that a call hands to the system, with its length. -/
def carried (e : Event os) : Option (List UInt8 × Nat) :=
  match e.call with
  | .bind _ addr addrlen | .connect _ addr addrlen | .sendto _ _ _ addr addrlen =>
    some (addr, addrlen)
  | _ => none

/-- The socket addresses that the runs of `p` hand to the system. -/
def addressesOf {α : Type} (p : Sys α) : Set (List UInt8 × Nat) :=
  {x | ∃ t y, Runs p.run t y ∧ ∃ e ∈ t, carried e = some x}

/-- Sockets of the protocol exist on the platform. -/
def Supports (P : Platform) (protocol : BtProtocol) : Prop :=
  ∃ t s, Runs (Socket.new P protocol).run t (.ok s)

theorem carried_of_setsUp (e : Event os) (h : SetsUp e) : carried e = none := by
  obtain ⟨c, r⟩ := e
  cases c <;> simp_all [carried, SetsUp, Call.setsUp]

/-- An event that hands over no other socket address than `x`. -/
abbrev Carries (x : List UInt8 × Nat) (e : Event os) : Prop := ∀ y, carried e = some y → y = x

theorem carries_of_setsUp (x : List UInt8 × Nat) (e : Event os) (h : SetsUp e) : Carries x e := by
  intro y handed
  rw [carried_of_setsUp e h] at handed
  cases handed

theorem addressesOf_eq_singleton {α : Type} (p : Sys α) (x : List UInt8 × Nat)
    (emits : Emits p.run (Carries x)) (reached : MayEmit p.run (carried · = some x)) :
    addressesOf p = {x} := by
  apply Set.Subset.antisymm
  · intro y ⟨t, z, run, e, member, handed⟩
    exact emits.runs t z run e member y handed
  · intro y same
    obtain rfl : y = x := same
    exact reached

/-! ### The addresses of each function -/

private theorem runs_drop (P : Platform) (s : Socket) : ∃ v, Runs (s.drop P) v () := by
  cases P with
  | unix target => exact ⟨[⟨.close s.raw, ⟨0, 0⟩⟩], ⟨0, 0⟩, [], rfl, rfl, rfl⟩
  | windows w => exact ⟨[⟨.closesocket s.raw, ⟨0, 0⟩⟩], ⟨0, 0⟩, [], rfl, rfl, rfl⟩

section Functions

variable (P : Platform) (addr : BtAddr) (protocol : BtProtocol)

private theorem emits_owned {α : Type} (x : List UInt8 × Nat) (f : Socket → Sys α)
    (body : ∀ s, Emits (f s).run (Carries x)) :
    Emits (Socket.new P protocol >>= fun s => owning (s.drop P) (f s)).run (Carries x) :=
  Emits.run_bind ((Socket.emits_new P protocol).mono (carries_of_setsUp x)) fun s =>
    emits_owning (body s) ((Socket.emits_drop P s).mono (carries_of_setsUp x))

private theorem mayEmit_owned {α : Type} (x : List UInt8 × Nat) (f : Socket → Sys α)
    (supported : Supports P protocol) (body : ∀ s, MayEmit (f s).run (carried · = some x)) :
    MayEmit (Socket.new P protocol >>= fun s => owning (s.drop P) (f s)).run
      (carried · = some x) := by
  obtain ⟨u, s, created⟩ := supported
  obtain ⟨v, dropped⟩ := runs_drop P s
  exact MayEmit.after created (MayEmit.owning dropped (body s))

theorem addressesOf_bind (supported : Supports P protocol) :
    addressesOf (BtListener.bind P addr protocol) = {P.toSockaddr addr} := by
  apply addressesOf_eq_singleton
  · refine emits_owned P protocol _ _ fun s => ?_
    refine Emits.run_bind ?_ fun _ => ?_
    · cases P with
      | unix target => exact emits_setsockopt _ _ _ _ fun _ _ handed => by cases handed
      | windows w => exact emits_run_pure _
    · refine Emits.run_bind (emits_sys _ fun r y handed => ?_) fun r => ?_
      · exact (Option.some.inj handed).symm
      · refine Emits.run_bind (emits_check _) fun _ => ?_
        refine Emits.run_bind (emits_sys _ fun r y handed => by cases handed) fun r => ?_
        exact Emits.run_bind (emits_check _) fun _ => emits_run_pure _
  · refine mayEmit_owned P protocol _ _ supported fun s => ?_
    -- the option is set where there is one, and `bind` fails
    have optioned : ∃ u, Runs (BtListener.setReuseaddr P s).run u (.ok ()) := by
      cases P with
      | unix target =>
        refine ⟨[⟨.setsockopt s.raw .int .soReuseaddr (1 : Int), ⟨0, 0⟩⟩], ?_⟩
        simp only [BtListener.setReuseaddr, setsockopt, runs_sys_bind, runs_check_bind]
        exact ⟨⟨0, 0⟩, [], rfl, Or.inr ⟨0, rfl, rfl, rfl⟩⟩
      | windows w => exact ⟨[], rfl, rfl⟩
    obtain ⟨u, first⟩ := optioned
    apply MayEmit.after first
    refine ⟨[⟨.bind s.raw (P.toSockaddr addr).1 (P.toSockaddr addr).2, ⟨-1, 13⟩⟩],
      .error (.err (.os 13)), ?_, _, List.mem_singleton_self _, rfl⟩
    simp only [runs_sys_bind, runs_check_bind]
    exact ⟨⟨-1, 13⟩, [], rfl, Or.inl ⟨_, rfl, rfl, rfl⟩⟩

theorem addressesOf_connect (supported : Supports P protocol) :
    addressesOf (BtStream.connect P addr protocol) = {P.toSockaddr addr} := by
  apply addressesOf_eq_singleton
  · refine emits_owned P protocol _ _ fun s => ?_
    refine Emits.run_bind (emits_lift (P.emits_cvtR ?_)) fun _ => ?_
    · refine @emits_perform os _ (.connect s.raw _ _) fun r y handed => ?_
      exact (Option.some.inj handed).symm
    · exact Emits.run_bind (emits_check _) fun _ => emits_run_pure _
  · refine mayEmit_owned P protocol _ _ supported fun s => ?_
    -- the attempt is refused
    have refused := P.runs_cvtR_last _ _ ⟨-1, 111⟩ ((@runs_perform os
      (.connect s.raw (P.toSockaddr addr).1 (P.toSockaddr addr).2) _ ⟨-1, 111⟩).mpr rfl) (by decide)
    refine ⟨[⟨.connect s.raw (P.toSockaddr addr).1 (P.toSockaddr addr).2, ⟨-1, 111⟩⟩],
      .error (.err (.os 111)), ?_, _, List.mem_singleton_self _, rfl⟩
    refine (runs_run_bind _ _ _ _).mpr (Or.inr ⟨_, [], _, (List.append_nil _).symm,
      (runs_run_lift _ _ _).mpr ⟨_, refused, rfl⟩, rfl, rfl⟩)

theorem addressesOf_connectTimeout (pad : UInt8) (timeout : Duration)
    (supported : Supports P protocol) :
    addressesOf (BtStream.connectTimeout P pad addr protocol timeout) = {P.literal pad addr} := by
  apply addressesOf_eq_singleton
  · refine emits_owned P protocol _ _ fun s => ?_
    refine Emits.run_bind ?_ fun _ => emits_run_pure _
    cases P with
    | unix target =>
      refine (Unix.Socket.emits_connectTimeout s pad addr timeout).mono fun e call y handed => ?_
      obtain ⟨c, r⟩ := e
      cases call
      all_goals first | exact (Option.some.inj handed).symm | cases handed
    | windows w =>
      refine (Windows.Socket.emits_connectTimeout w s addr timeout).mono fun e call y handed => ?_
      obtain ⟨c, r⟩ := e
      cases call
      all_goals first | exact (Option.some.inj handed).symm | cases handed
  · refine mayEmit_owned P protocol _ _ supported fun s => ?_
    -- the attempt starts, and the socket cannot be made blocking again
    have inner : TimedConnect P pad s addr timeout
        [P.modeEvent s true ⟨0, 0⟩, P.connectEvent pad s addr ⟨0, 0⟩, P.modeEvent s false ⟨-1, 5⟩]
        (.error (.err (.os 5))) := .stuck (by decide) rfl
    have run := (runs_connectTimeout P pad s addr timeout _ _).mpr inner
    refine ⟨_, .error (.err (.os 5)), (runs_run_bind _ _ _ _).mpr (Or.inl ⟨_, run, rfl⟩),
      P.connectEvent pad s addr ⟨0, 0⟩, by simp, rfl⟩

theorem addressesOf_sendTo (self : BtStream) (buf : List UInt8) :
    addressesOf (self.sendTo P buf addr) = {P.toSockaddr addr} := by
  apply addressesOf_eq_singleton
  · refine Emits.run_bind (emits_sys _ fun r y handed => ?_) fun r => ?_
    · exact (Option.some.inj handed).symm
    · exact Emits.run_bind (emits_check _) fun _ => emits_run_pure _
  · refine ⟨[⟨.sendto self.inner.raw buf (P.wrlen buf) (P.toSockaddr addr).1 (P.toSockaddr addr).2,
      ⟨-1, 32⟩⟩], .error (.err (.os 32)), ?_, _, List.mem_singleton_self _, rfl⟩
    simp only [BtStream.sendTo, runs_sys_bind, runs_check_bind]
    exact ⟨⟨-1, 32⟩, [], rfl, Or.inl ⟨_, rfl, rfl, rfl⟩⟩

end Functions

/-! ### Two ways to connect -/

theorem supports_unix (target : Target) (protocol : BtProtocol) :
    Supports (.unix target) protocol := by
  by_cases linux : target = .linux
  · refine ⟨[⟨.socket true (Unix.Socket.btproto protocol), ⟨3, 0⟩⟩], ⟨3⟩, ?_⟩
    simp only [Socket.new, Unix.Socket.new, linux, if_true, runs_sys_bind]
    exact ⟨⟨3, 0⟩, [], rfl, rfl, rfl⟩
  · -- the fallback: no flag at creation, then `set_cloexec`, then the option of Apple's systems
    have created := Runs.sys (.socket false (Unix.Socket.btproto protocol)) ⟨3, 0⟩
    have closing : ∃ u, Runs (Unix.FileDesc.setCloexec target ⟨3⟩).run u (.ok ()) := by
      unfold Unix.FileDesc.setCloexec
      split
      · exact ⟨_, Runs.checked (.ioctlFioclex 3) id ⟨0, 0⟩ (by decide)⟩
      · -- the flag is set already
        exact ⟨[⟨.fcntlGetfd 3, ⟨1, 0⟩⟩], ⟨1, 0⟩, [], rfl, rfl, rfl⟩
    have optioned : ∃ u, Runs (Unix.Socket.setNosigpipe target ⟨3⟩).run u (.ok ()) := by
      unfold Unix.Socket.setNosigpipe
      split
      · exact ⟨_, Runs.checked (.setsockopt 3 .int .soNosigpipe (1 : Int)) id ⟨0, 0⟩ (by decide)⟩
      · exact ⟨[], Runs.run_pure ()⟩
    obtain ⟨u, last⟩ := optioned
    obtain ⟨v, closed⟩ := closing
    have whole : Runs (Unix.Socket.newFallback target protocol).run _ (.ok ⟨3⟩) :=
      created.run_bind ((closed.run_bind (last.run_bind (Runs.run_pure (⟨3⟩ : Socket)))).owning _)
    have new : Socket.new (.unix target) protocol = Unix.Socket.newFallback target protocol := by
      rw [Socket.new, Unix.Socket.new, if_neg linux]
    exact ⟨_, ⟨3⟩, new ▸ whole⟩

theorem supports_windows (w : Bthdef) : Supports (.windows w) .rfcomm := by
  have started := Runs.sys .winsockInit ()
  have created := Runs.sys (.wsaSocketW ⟨Windows.AF_BTH, Windows.SOCK_STREAM,
    Windows.BTHPROTO_RFCOMM⟩) ⟨5, 0⟩
  have cleared := Runs.sys (.setHandleInformation 5) ⟨1, 0⟩
  have uninherited : Runs (Windows.Socket.setNoInherit ⟨5⟩).run _ (.ok ()) :=
    cleared.run_bind (Runs.run_pure ())
  have wrapped : Runs (Windows.Socket.withNoInherit 5).run _ (.ok ⟨5⟩) :=
    (uninherited.run_bind (Runs.run_pure (⟨5⟩ : Socket))).owning _
  exact ⟨_, ⟨5⟩, started.run_bind (created.run_bind wrapped)⟩

/-- The nine bytes of the fields that the crate sets in a `sockaddr_rc`. -/
def Unix.rcFields (addr : BtAddr) : List UInt8 :=
  (leBytes 2 AF_BLUETOOTH).toList ++ addr.octets.toList ++ [1]

theorem Unix.seen_setSockaddrRc {n : Nat} (s : Block n) (addr : BtAddr) (fits : 10 ≤ n) :
    seen (setSockaddrRc s addr) sizeofSockaddrRc = rcFields addr ++ [s[9]] := by
  apply List.ext_getElem
  · simp [length_seen, rcFields, sizeofSockaddrRc, fits]
  · intro i h h'
    have small : i < 10 := by
      simpa [length_seen, sizeofSockaddrRc, fits] using h
    simp only [seen, List.getElem_take, Vector.getElem_toList, setSockaddrRc, getElem_write,
      rcFields, AF_BLUETOOTH]
    interval_cases i <;> simp [leBytes]

theorem Platform.toSockaddr_unix (target : Target) (addr : BtAddr) :
    (Platform.unix target).toSockaddr addr =
      (Unix.rcFields addr ++ [0], Unix.sizeofSockaddrRc) := by
  simp only [toSockaddr, Unix.toSockaddrStorage]
  rw [Unix.seen_setSockaddrRc _ addr (by decide), getElem_zeroed]

theorem Platform.literal_unix (target : Target) (pad : UInt8) (addr : BtAddr) :
    (Platform.unix target).literal pad addr =
      (Unix.rcFields addr ++ [pad], Unix.sizeofSockaddrRc) := by
  simp only [literal, Unix.sockaddrRcLiteral]
  rw [Unix.seen_setSockaddrRc _ addr (by decide), Vector.getElem_replicate]

/-- On Windows the literal has no service class. -/
theorem Windows.literal_ne (w : Bthdef) (pad : UInt8) (addr : BtAddr) :
    (Platform.windows w).toSockaddr addr ≠ (Platform.windows w).literal pad addr := by
  intro same
  simp only [Platform.toSockaddr, Platform.literal, toSockaddrStorage, sockaddrBthLiteral,
    Prod.mk.injEq, and_true] at same
  -- the two differ in the 16 bytes of the service class
  have classes := congrArg (fun x => field x 10 16) same
  rw [field_seen_write _ _ _ _ (by decide) (by decide),
    field_seen_write_of_disjoint _ _ _ _ _ _ (by decide) (by decide) (by decide),
    field_seen_write_of_disjoint _ _ _ _ _ _ (by decide) (by decide) (by decide)] at classes
  exact w.rfcommProtocolUuid_ne (classes.trans (by decide))

/-- The two ways to connect hand over the same bytes only on Unix, and there only when the byte
after the three fields, which a literal leaves open, happens to be zero. -/
theorem connect_endpoints_iff (P : Platform) (pad : UInt8) (addr : BtAddr) (protocol : BtProtocol)
    (timeout : Duration) (supported : Supports P protocol) :
    (addressesOf (BtStream.connect P addr protocol)).Nonempty ∧
    (addressesOf (BtStream.connect P addr protocol) =
        addressesOf (BtStream.connectTimeout P pad addr protocol timeout) ↔
      (∃ target, P = .unix target) ∧ pad = 0) ∧
    ((∃ target, P = .unix target) →
      ∀ x ∈ addressesOf (BtStream.connect P addr protocol),
      ∀ y ∈ addressesOf (BtStream.connectTimeout P pad addr protocol timeout),
        x.2 = y.2 ∧ x.1.take 9 = y.1.take 9) := by
  rw [addressesOf_connect P addr protocol supported,
    addressesOf_connectTimeout P addr protocol pad timeout supported,
    Set.singleton_eq_singleton_iff]
  refine ⟨Set.singleton_nonempty _, ?_, ?_⟩
  · cases P with
    | unix target =>
      rw [Platform.toSockaddr_unix, Platform.literal_unix]
      simp [eq_comm]
    | windows w =>
      constructor
      · intro same
        exact absurd same (Windows.literal_ne w pad addr)
      · rintro ⟨⟨_, wrong⟩, _⟩
        cases wrong
  · rintro ⟨target, rfl⟩ x rfl y rfl
    rw [Platform.toSockaddr_unix, Platform.literal_unix]
    have nine : (Unix.rcFields addr).length = 9 := by simp [Unix.rcFields]
    exact ⟨rfl, by rw [List.take_left' nine, List.take_left' nine]⟩

theorem linux_endpoints_agree :
    addressesOf (BtStream.connect (.unix .linux) ⟨#v[1, 2, 3, 4, 5, 6]⟩ .l2cap) =
      addressesOf (BtStream.connectTimeout (.unix .linux) 0 ⟨#v[1, 2, 3, 4, 5, 6]⟩ .l2cap
        .second) :=
  (connect_endpoints_iff (.unix .linux) 0 _ .l2cap _ (supports_unix .linux .l2cap)).2.1.mpr
    ⟨⟨.linux, rfl⟩, rfl⟩

theorem windows_endpoints_differ :
    Supports (.windows bthdef) .rfcomm ∧
    addressesOf (BtStream.connect (.windows bthdef) ⟨#v[1, 2, 3, 4, 5, 6]⟩ .rfcomm) ≠
      addressesOf (BtStream.connectTimeout (.windows bthdef) 0 ⟨#v[1, 2, 3, 4, 5, 6]⟩ .rfcomm
        .second) := by
  refine ⟨supports_windows bthdef, ?_⟩
  rw [addressesOf_connect _ _ _ (supports_windows bthdef),
    addressesOf_connectTimeout _ _ _ _ _ (supports_windows bthdef), Ne,
    Set.singleton_eq_singleton_iff]
  exact Windows.literal_ne bthdef 0 _

end IoBluetooth
