import IoBluetooth.Sys.Ownership
import Mathlib.Data.Finset.Dedup

/-!
# Descriptors are owned by live sockets

Any sequence of operations that make and drop sockets, whatever the system calls return: between
two of them the open descriptors are those of the live sockets, one each, and all close on exec.
-/
namespace IoBluetooth

open Interaction Rust

/-- The platforms on which no descriptor outlives an `exec`. Elsewhere `duplicate` relies on
`F_DUPFD_CLOEXEC`, which on some systems is only another name for `F_DUPFD`. -/
inductive Platform.Covered : Platform → Prop
  | linux : Covered (.unix .linux)
  | windows (w : Bthdef) : Covered (.windows w)

/-- The operations that make a socket. -/
inductive Operation where
  | new (protocol : BtProtocol)
  | accept (self : Socket)
  | duplicate (self : Socket)
  | bind (addr : BtAddr) (protocol : BtProtocol)
  | connect (addr : BtAddr) (protocol : BtProtocol)
  | connectTimeout (pad : UInt8) (addr : BtAddr) (protocol : BtProtocol) (timeout : Duration)

namespace Operation

/-- An operation, as far as the socket in its result goes. -/
def program (P : Platform) : Operation → Sys Socket
  | new protocol => Socket.new P protocol
  | accept self => do
    let (socket, _) ← self.accept P
    pure socket
  | duplicate self => self.duplicate P
  | bind addr protocol => do
    let listener ← BtListener.bind P addr protocol
    pure listener.inner
  | connect addr protocol => do
    let stream ← BtStream.connect P addr protocol
    pure stream.inner
  | connectTimeout pad addr protocol timeout => do
    let stream ← BtStream.connectTimeout P pad addr protocol timeout
    pure stream.inner

/-- The sockets that an operation borrows. -/
def borrows : Operation → List Socket
  | accept self | duplicate self => [self]
  | _ => []

theorem constructs {P : Platform} (covered : P.Covered) (op : Operation) :
    Constructs P.effect Socket.raw (op.program P) := by
  cases op with
  | new protocol => exact Socket.constructs_new protocol
  | accept self => exact (Socket.constructs_accept self).bind_pure _ fun _ => rfl
  | duplicate self =>
    cases covered with
    | linux => exact Unix.Socket.constructs_duplicate self
    | windows w => exact Windows.Socket.constructs_duplicate self
  | bind addr protocol =>
    exact (BtListener.constructs_bind addr protocol).bind_pure _ fun _ => rfl
  | connect addr protocol =>
    exact (BtStream.constructs_connect addr protocol).bind_pure _ fun _ => rfl
  | connectTimeout pad addr protocol timeout =>
    exact (BtStream.constructs_connectTimeout pad addr protocol timeout).bind_pure _ fun _ => rfl

end Operation

/-! ### Worlds -/

/-- The descriptors the crate obtained and the sockets that are alive. -/
structure World where
  ledger : Ledger Handle
  live : List Socket

/-- One operation, with the error it returned if it did. A socket is dropped once. -/
inductive Operates (P : Platform) : World → Option Exit → World → Prop
  | made {w : World} {op : Operation} {t s L} : op.borrows ⊆ w.live →
      Runs (op.program P).run t (.ok s) → Steps (ledgerOf P.effect) w.ledger t L →
      Operates P w none ⟨L, s :: w.live⟩
  | failed {w : World} {op : Operation} {t x L} : op.borrows ⊆ w.live →
      Runs (op.program P).run t (.error x) → Steps (ledgerOf P.effect) w.ledger t L →
      Operates P w (some x) ⟨L, w.live⟩
  | dropped {w : World} {s : Socket} {t L} : s ∈ w.live →
      Runs (s.drop P) t () → Steps (ledgerOf P.effect) w.ledger t L →
      Operates P w none ⟨L, w.live.erase s⟩

/-- The worlds between the operations of a run. -/
inductive Reached (P : Platform) : World → Prop
  | start : Reached P ⟨.empty, []⟩
  | after {w w' x} : Reached P w → Operates P w x w' → Reached P w'

/-- The open descriptors are those of the live sockets, each has one owner, all are guarded, and
none was closed that was not open. -/
structure Owned (w : World) : Prop where
  held_eq : w.ledger.held = (w.live.map Socket.raw).toFinset
  nodup : (w.live.map Socket.raw).Nodup
  guarded_eq : w.ledger.guarded = w.ledger.held
  once : w.ledger.misused = false

variable {P : Platform}

theorem Owned.start : Owned ⟨.empty, []⟩ where
  held_eq := rfl
  nodup := List.nodup_nil
  guarded_eq := rfl
  once := rfl

theorem Owned.made {w : World} (owned : Owned w) (s : Socket) (fresh : s.raw ∉ w.ledger.held) :
    Owned ⟨w.ledger.acquire s.raw true, s :: w.live⟩ where
  held_eq := by simp [Ledger.acquire, owned.held_eq]
  nodup := by
    rw [owned.held_eq, List.mem_toFinset] at fresh
    exact List.nodup_cons.mpr ⟨fresh, owned.nodup⟩
  guarded_eq := by simp [Ledger.acquire, owned.guarded_eq]
  once := owned.once

theorem Owned.dropped {w : World} (owned : Owned w) (s : Socket) (alive : s ∈ w.live) :
    Owned ⟨w.ledger.release s.raw, w.live.erase s⟩ := by
  have injective : Function.Injective Socket.raw := by
    rintro ⟨a⟩ ⟨b⟩ same
    exact congrArg Socket.mk same
  have erased : (w.live.erase s).map Socket.raw = (w.live.map Socket.raw).erase s.raw :=
    List.map_erase injective w.live
  have opened : s.raw ∈ w.ledger.held := by
    rw [owned.held_eq, List.mem_toFinset]
    exact List.mem_map_of_mem alive
  constructor
  · ext h
    simp [Ledger.release, owned.held_eq, erased, owned.nodup.mem_erase_iff]
  · simp only [erased]
    exact owned.nodup.erase s.raw
  · simp only [Ledger.release, owned.guarded_eq]
  · simp [Ledger.release, owned.once, opened]

/-- An operation that fails leaves the ledger as it was. -/
theorem Operates.ledger_eq (covered : P.Covered) {w w' : World} {x : Exit}
    (operates : Operates P w (some x) w') : w'.ledger = w.ledger := by
  cases operates with
  | @failed op t _ L _ run steps =>
    exact op.constructs covered w.ledger w.ledger t _ L rfl run steps

theorem Owned.after (covered : P.Covered) {w w' : World} {x : Option Exit} (owned : Owned w)
    (operates : Operates P w x w') : Owned w' := by
  cases operates with
  | @made op t s L _ run steps =>
    obtain ⟨fresh, rfl⟩ := op.constructs covered w.ledger w.ledger t _ L rfl run steps
    exact owned.made s fresh
  | @failed op t x L _ run steps =>
    obtain rfl := op.constructs covered w.ledger w.ledger t _ L rfl run steps
    exact owned
  | @dropped s t L alive run steps =>
    obtain rfl := s.releases_drop w.ledger w.ledger t () L rfl run steps
    exact owned.dropped s alive

theorem descriptors_owned (P : Platform) (covered : P.Covered) (w : World)
    (reached : Reached P w) :
    Owned w ∧ ∀ x w', Operates P w (some x) w' → w'.ledger.held = w.ledger.held := by
  have owned : Owned w := by
    induction reached with
    | start => exact Owned.start
    | after _ operates ih => exact ih.after covered operates
  refine ⟨owned, fun x w' failed => ?_⟩
  rw [failed.ledger_eq covered]

/-- A socket is made. -/
private theorem made_three :
    Operates (.unix .linux) ⟨.empty, []⟩ none ⟨Ledger.empty.acquire 3 true, [⟨3⟩]⟩ := by
  refine @Operates.made _ ⟨.empty, []⟩ (.new .rfcomm) [⟨.socket true 3, ⟨3, 0⟩⟩] ⟨3⟩ _ nofun ?_ ?_
  · exact (runs_sys_bind _ _ _ _).mpr ⟨⟨3, 0⟩, [], rfl, rfl, rfl⟩
  · exact (steps_singleton _ _ _ _).mpr ⟨fun _ _ _ => Finset.notMem_empty _, rfl⟩

/-- It is duplicated, and the duplicate closed again because its flag cannot be set. -/
private def failedDuplicate : Trace os :=
  [⟨.tryCloexecLoad, true⟩, ⟨.fcntlDupfdCloexec 3, ⟨4, 0⟩⟩, ⟨.ioctlFioclex 4, ⟨-1, EINVAL⟩⟩,
    ⟨.close 4, ⟨0, 0⟩⟩]

private theorem runs_failedDuplicate :
    Runs (Operation.program (.unix .linux) (.duplicate ⟨3⟩)).run failedDuplicate
      (.error (.err (.os EINVAL))) := by
  have failed : Runs (Unix.FileDesc.makeFiledesc .linux 4).run
      [⟨.ioctlFioclex 4, ⟨-1, EINVAL⟩⟩, ⟨.close 4, ⟨0, 0⟩⟩] (.error (.err (.os EINVAL))) := by
    have unset : Runs (Unix.FileDesc.setCloexec .linux ⟨4⟩).run [⟨.ioctlFioclex 4, ⟨-1, EINVAL⟩⟩]
        (.error (.err (.os EINVAL))) :=
      (runs_checked (.ioctlFioclex 4) id _ _).mpr ⟨⟨-1, EINVAL⟩, rfl, Or.inl ⟨rfl, rfl⟩⟩
    have closed : Runs (Unix.FileDesc.drop ⟨4⟩) [⟨.close 4, ⟨0, 0⟩⟩] () :=
      ⟨⟨0, 0⟩, [], rfl, rfl, rfl⟩
    exact (unset.run_bind_error _).owning_error closed
  have duplicated : Runs (Unix.FileDesc.duplicate .linux ⟨3⟩).run failedDuplicate
      (.error (.err (.os EINVAL))) :=
    (runs_sys_bind _ _ _ _).mpr ⟨true, _, rfl, (runs_sys_bind _ _ _ _).mpr
      ⟨⟨4, 0⟩, _, rfl, failed⟩⟩
  exact duplicated.run_bind_error _

theorem failed_duplicate_closed :
    Owned ⟨Ledger.empty.acquire 3 true, [⟨3⟩]⟩ ∧
    ∀ L, Steps (ledgerOf (Platform.unix .linux).effect) (Ledger.empty.acquire 3 true)
      failedDuplicate L → L.held = {3} := by
  have owned := descriptors_owned (.unix .linux) .linux _ (.after .start made_three)
  refine ⟨owned.1, fun L steps => ?_⟩
  have same := owned.2 _ _ (.failed (by decide) runs_failedDuplicate steps)
  rw [same]
  rfl

end IoBluetooth
