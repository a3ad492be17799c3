import IoBluetooth.Interaction.Atomic
import IoBluetooth.Properties.PeerOrigin
import IoBluetooth.Sys.Custody

/-!
# The backlog of a listener

Devices connect to a listener, and their connections wait in its backlog until a thread accepts
them through one of its clones. What the system answers, and what each call means for the function
that makes it.
-/
namespace IoBluetooth

open Interaction Memory Rust

/-- The connections that wait, by the device at the other end, and those that were given a
descriptor, each the latest last. -/
structure Backlog where
  served : List (Handle × BtAddr)
  pending : List BtAddr

/-- A device connects, or one that waits at a place in the queue goes away, or a thread calls
`accept`. -/
inductive Incoming where
  | connects (peer : BtAddr)
  | leaves (place : Nat)
  | accepts (self : BtListener)

def Incoming.program (P : Platform) : Incoming → Sys (Option (BtStream × BtAddr))
  | connects _ | leaves _ => pure none
  | accepts self => do
    let r ← self.accept P
    pure (some r)

/-- Whether a call that accepts is `accept4`, the length that it passes, and the reply. -/
def accepting : Event os → Option (Bool × Nat × AddrReply)
  | ⟨.accept _ len, r⟩ => some (false, len, r)
  | ⟨.accept4 _ len, r⟩ => some (true, len, r)
  | _ => none

/-- What a call returns that gives no descriptor. -/
def Platform.invalid : Platform → Handle
  | .unix _ => -1
  | .windows _ => Windows.INVALID_SOCKET

/-- The connection that has waited longest is given a descriptor, and the address of the device is
written as far as the length goes. A call that fails writes nothing; `known` says whether the
kernel has `accept4`. -/
inductive Serves (P : Platform) (known : Bool) : Backlog → Event os → Backlog → Prop
  | takes {served peer rest w e fast len r} : accepting e = some (fast, len, r) →
      r.ret.value ≠ P.invalid → PeerSockaddr peer w P → r.addr = w.take len →
      Serves P known ⟨served, peer :: rest⟩ e ⟨served ++ [(r.ret.value, peer)], rest⟩
  | fails {s e fast len r} : accepting e = some (fast, len, r) → r.ret.value = P.invalid →
      r.addr = [] → r.addrlen = len →
      (fast = true → r.ret.errno = ENOSYS → known = false) → Serves P known s e s
  | other {s e} : accepting e = none → Serves P known s e s

/-- Whether nothing is left that can fail once the system has given a descriptor. -/
def Platform.direct : Platform → Bool → Bool
  | .unix .linux, known => known
  | _, _ => false

/-- Any number of threads accept from one listener, which each refers to by one of the listeners
`same`. -/
def listening (P : Platform) (known : Bool) (same : BtListener → Prop) (ι : Type) :
    System ι Incoming os (Except Exit (Option (BtStream × BtAddr))) Backlog where
  program q := (q.program P).run
  begins _ s q s' := match q with
    | .connects peer => s' = { s with pending := s.pending ++ [peer] }
    | .leaves place =>
      place < s.pending.length ∧ s' = { s with pending := s.pending.eraseIdx place }
    | .accepts self => same self ∧ s' = s
  calls _ _ := Serves P known
  returns _ _ s s' := s' = s

/-- A queue of connections. Where something can fail afterwards, an `accept` that returns an error
may have taken a connection off the queue. -/
inductive Accepting (direct : Bool) :
    Object Incoming (Except Exit (Option (BtStream × BtAddr))) Backlog
  | connects {peer s} :
      Accepting direct (.connects peer) s (.ok none) { s with pending := s.pending ++ [peer] }
  | leaves {place s} : place < s.pending.length → Accepting direct (.leaves place) s (.ok none)
      { s with pending := s.pending.eraseIdx place }
  | accepts {self fd peer served rest} : Accepting direct (.accepts self) ⟨served, peer :: rest⟩
      (.ok (some (⟨⟨fd⟩, self.protocol⟩, peer))) ⟨served ++ [(fd, peer)], rest⟩
  | lost {self fd peer served rest e} : direct = false →
      Accepting direct (.accepts self) ⟨served, peer :: rest⟩ (.error e)
        ⟨served ++ [(fd, peer)], rest⟩
  | refused {self s e} : Accepting direct (.accepts self) s (.error e) s

/-! ### What each call means -/

/-- What an operation is to return, once that is known. -/
abbrev Outcome := Option (Option (BtStream × BtAddr))

/-- An `accept` takes one connection at most, with room for the address of the device. -/
def Incoming.gets (P : Platform) (q : Incoming) : Monitor os Outcome := fun m e =>
  match accepting e, q with
  | none, _ => some m
  | some _, connects _ | some _, leaves _ => none
  | some (_, len, r), accepts self =>
    if m ≠ none ∨ len < 8 then none
    else if r.ret.value = P.invalid then some none
    else some (some (some (⟨⟨r.ret.value⟩, self.protocol⟩, P.origin r.addr)))

/-- The results that are left. -/
def Outcome.possible (direct : Bool) :
    Outcome → Option (Set (Except Exit (Option (BtStream × BtAddr)))) :=
  Option.map fun x => {a | a = .ok x ∨ x.isSome = true ∧ direct = false ∧ ∃ e, a = .error e}

section Gets

variable {P : Platform} {known fast : Bool} {q : Incoming} {self : BtListener} {m n : Outcome}
  {e : Event os} {len : Nat} {r : AddrReply}

theorem Incoming.gets_other (other : accepting e = none) (m : Outcome) :
    q.gets P m e = some m := by
  unfold gets
  rw [other]

theorem Incoming.gets_failed (call : accepting e = some (fast, len, r)) (room : 8 ≤ len)
    (failed : r.ret.value = P.invalid) : (accepts self).gets P none e = some none := by
  unfold gets
  rw [call]
  dsimp only
  rw [if_neg (by simp [Nat.not_lt.mpr room]), if_pos failed]

theorem Incoming.gets_passed (call : accepting e = some (fast, len, r)) (room : 8 ≤ len)
    (passed : r.ret.value ≠ P.invalid) : (accepts self).gets P none e =
      some (some (some (⟨⟨r.ret.value⟩, self.protocol⟩, P.origin r.addr))) := by
  unfold gets
  rw [call]
  dsimp only
  rw [if_neg (by simp [Nat.not_lt.mpr room]), if_neg passed]

theorem Incoming.of_gets (accepted : q.gets P m e = some n) (call : accepting e = some (fast, len, r)) :
    ∃ self, q = accepts self ∧ m = none ∧ 8 ≤ len ∧
      (r.ret.value = P.invalid ∧ n = none ∨ r.ret.value ≠ P.invalid ∧
        n = some (some (⟨⟨r.ret.value⟩, self.protocol⟩, P.origin r.addr))) := by
  unfold gets at accepted
  rw [call] at accepted
  cases q with
  | connects | leaves => cases accepted
  | accepts self =>
    dsimp only at accepted
    split at accepted
    · cases accepted
    · next first =>
      obtain ⟨fresh, room⟩ := not_or.mp first
      refine ⟨self, rfl, not_ne_iff.mp fresh, Nat.le_of_not_lt room, ?_⟩
      split at accepted
      · next failed => exact Or.inl ⟨failed, (Option.some.inj accepted).symm⟩
      · next passed => exact Or.inr ⟨passed, (Option.some.inj accepted).symm⟩

theorem accepting_of_setsUp (setsUp : SetsUp e) : accepting e = none := by
  obtain ⟨c, r⟩ := e
  cases c <;> first | rfl | cases setsUp

/-- The device of the connection is what the address decodes to. -/
theorem PeerSockaddr.origin {peer : BtAddr} {w : List UInt8} (written : PeerSockaddr peer w P)
    (room : 8 ≤ len) : P.origin (w.take len) = peer := by
  refine (origin_eq_iff P peer w len written).mpr fun i inside beyond => ?_
  omega

end Gets

/-! ### `accept` -/

/-- How an operation ends, by what it returned and where it left the monitor. -/
def Incoming.Ends (direct : Bool) :
    Incoming → Except Exit (Option (BtStream × BtAddr)) → Outcome → Prop
  | connects _, x, n | leaves _, x, n => x = .ok none ∧ n = some none
  | accepts _, .ok o, n => n = some o
  | accepts _, .error _, n => n = none ∨ direct = false ∧ ∃ r, n = some (some r)

def Incoming.start : Incoming → Outcome
  | connects _ | leaves _ => some none
  | accepts _ => none

section Accept

variable {P : Platform} {known : Bool} {self : BtListener}

/-- Replied to as `Serves` says. -/
abbrev Served (P : Platform) (known : Bool) (e : Event os) : Prop :=
  ∃ s s', Serves P known s e s'

/-- Where a part of an `accept` left the monitor: its result is what is to be returned. -/
def Gives {β : Type} (direct : Bool) (result : β → BtStream × BtAddr) (x : Except Exit β)
    (n : Outcome) : Prop :=
  match x with
  | .ok y => n = some (some (result y))
  | .error _ => n = none ∨ direct = false ∧ ∃ r, n = some (some r)

/-- A socket that was accepted, as the stream of a listener. -/
def BtListener.stream (self : BtListener) (y : Socket × BtAddr) : BtStream × BtAddr :=
  (⟨y.1, self.protocol⟩, y.2)

/-- What a call that accepts came to. -/
def Got (P : Platform) (known fast : Bool) (protocol : BtProtocol) (len : Nat) (r : AddrReply)
    (n : Outcome) : Prop :=
  r.ret.value = P.invalid ∧ n = none ∧ r.addr = [] ∧ r.addrlen = len ∧
      (fast = true → r.ret.errno = ENOSYS → known = false) ∨
    r.ret.value ≠ P.invalid ∧ n = some (some (⟨⟨r.ret.value⟩, protocol⟩, P.origin r.addr))

theorem Served.got {e : Event os} {fast : Bool} {len : Nat} {r : AddrReply}
    (served : Served P known e) (call : accepting e = some (fast, len, r)) (room : 8 ≤ len) :
    ∃ n, (Incoming.accepts self).gets P none e = some n ∧
      Got P known fast self.protocol len r n := by
  obtain ⟨_, _, serves⟩ := served
  cases serves with
  | takes call' passed =>
    cases call.symm.trans call'
    exact ⟨_, Incoming.gets_passed call room passed, Or.inr ⟨passed, rfl⟩⟩
  | fails call' failed nothing same unknown =>
    cases call.symm.trans call'
    exact ⟨_, Incoming.gets_failed call room failed, Or.inl ⟨failed, rfl, nothing, same, unknown⟩⟩
  | other none => cases call.symm.trans none

/-- What follows the call that gave a descriptor can only fail. -/
theorem gives_of_setsUp {y : Socket × BtAddr} {p : Sys (Socket × BtAddr)}
    (slow : P.direct known = false) (setsUp : Emits p.run SetsUp) (same : Yields p (· = y)) :
    Obeys (Served P known) ((Incoming.accepts self).gets P) (some (some (self.stream y))) p.run
      (Gives (P.direct known) self.stream) := by
  have still : Obeys (Served P known) ((Incoming.accepts self).gets P)
      (some (some (self.stream y))) p.run fun _ n => n = some (some (self.stream y)) :=
    (setsUp.mono fun e setsUp => Incoming.gets_other (accepting_of_setsUp setsUp) _).obeys
  refine still.ran.mono ?_
  rintro x _ ⟨rfl, t, run⟩
  cases x with
  | ok z => rw [Gives, same t z run]
  | error e => exact Or.inr ⟨slow, _, rfl⟩

namespace Unix

variable {target : Target}

/-- Where an `accept` starts from, as does each attempt after one that failed. -/
def unwritten : Block sizeofSockaddrRc × Nat := (zeroed sizeofSockaddrRc, sizeofSockaddrRc)

/-- What the attempts of an `accept` come to. -/
def Attempted (known fast : Bool) (protocol : BtProtocol) :
    Except IoError Int → Block sizeofSockaddrRc × Nat → Outcome → Prop
  | .ok fd, s, n => n = some (some (⟨⟨fd⟩, protocol⟩, rcBdaddr s.1))
  | .error e, s, n => n = none ∧ s = unwritten ∧ (fast = true → e = .os ENOSYS → known = false)

theorem attempted {fast : Bool} {call : Nat → Prog os AddrReply}
    (accepts : ∀ len, 8 ≤ len → Obeys (Served (.unix target) known)
      ((Incoming.accepts self).gets (.unix target)) none (call len)
      (Got (.unix target) known fast self.protocol len)) :
    Obeys (Served (.unix target) known) ((Incoming.accepts self).gets (.unix target)) none
      (cvtR (Socket.acceptInto call) unwritten)
      fun x n => Attempted known fast self.protocol x.1 x.2 n := by
  refine obeys_cvtR (Q := Attempted known fast self.protocol)
    (fun s n => s = unwritten ∧ n = none) ?_ ?_ _ ⟨rfl, rfl⟩
  · rintro _ _ ⟨rfl, rfl⟩
    refine (accepts sizeofSockaddrRc (by decide)).bind fun r n got => obeys_pure _ ?_
    rcases got with ⟨failed, rfl, nothing, same, unknown⟩ | ⟨passed, rfl⟩
    · have failing := (cvt_eq_error_iff r.ret (.os r.ret.errno)).mpr ⟨failed, rfl⟩
      dsimp only
      rw [failing, nothing, same]
      refine ⟨rfl, Prod.ext (Vector.ext fun i inside => by simp [unwritten]) rfl, ?_⟩
      exact fun quick missing => unknown quick (IoError.os.inj missing)
    · have passing := (cvt_eq_ok_iff r.ret r.ret.value).mpr ⟨passed, rfl⟩
      dsimp only
      rw [passing]
      rfl
  · rintro e s n ⟨none, same, _⟩ _
    exact ⟨same, none⟩

theorem Socket.gives_acceptFallback (slow : (Platform.unix target).direct known = false) :
    Obeys (Served (.unix target) known) ((Incoming.accepts self).gets (.unix target)) none
      (Socket.acceptFallback target self.inner unwritten).run
      (Gives ((Platform.unix target).direct known) self.stream) := by
  have accepts (len : Nat) (room : 8 ≤ len) : Obeys (Served (.unix target) known)
      ((Incoming.accepts self).gets (.unix target)) none
      (@Prog.perform os (.accept self.inner.raw len))
      (Got (.unix target) known false self.protocol len) :=
    @obeys_perform os _ _ _ _ (.accept self.inner.raw len) _ fun r served => served.got rfl room
  refine (attempted accepts).lift_bind ?_
  rintro ⟨res, addr, len⟩ n left
  cases res with
  | ok fd =>
    cases left
    have last : Yields (do FileDesc.setCloexec target ⟨fd⟩; pure (⟨fd⟩, rcBdaddr addr))
        (· = ((⟨fd⟩ : IoBluetooth.Socket), rcBdaddr addr)) := yields_bind fun _ => yields_pure _ rfl
    refine gives_of_setsUp slow (emits_owning ?_ (FileDesc.emits_drop ⟨fd⟩)) (last.owning _)
    exact Emits.run_bind (FileDesc.emits_setCloexec target ⟨fd⟩) fun _ => emits_run_pure _
  | error e =>
    obtain ⟨rfl, _, _⟩ := left
    exact obeys_run_throw _ (Or.inl rfl)

theorem Socket.gives_accept :
    Obeys (Served (.unix target) known) ((Incoming.accepts self).gets (.unix target)) none
      (Socket.accept target self.inner).run
      (Gives ((Platform.unix target).direct known) self.stream) := by
  unfold Socket.accept
  split
  · next linux =>
    subst linux
    have accepts (len : Nat) (room : 8 ≤ len) : Obeys (Served (.unix .linux) known)
        ((Incoming.accepts self).gets (.unix .linux)) none
        (@Prog.perform os (.accept4 self.inner.raw len))
        (Got (.unix .linux) known true self.protocol len) :=
      @obeys_perform os _ _ _ _ (.accept4 self.inner.raw len) _ fun r served => served.got rfl room
    refine (attempted accepts).lift_bind ?_
    rintro ⟨res, s⟩ n left
    cases res with
    | ok fd =>
      cases left
      exact obeys_run_pure _ rfl
    | error e =>
      obtain ⟨rfl, same, unknown⟩ := left
      dsimp only at same ⊢
      split
      · next missing =>
        -- the kernel has no `accept4`
        rw [IoError.rawOsError_eq_some] at missing
        rw [same]
        exact Socket.gives_acceptFallback (unknown rfl missing)
      · exact obeys_run_throw _ (Or.inl rfl)
  · next other =>
    refine Socket.gives_acceptFallback ?_
    cases target with
    | linux => exact absurd rfl other
    | _ => rfl

end Unix

theorem Windows.Socket.gives_accept {w : Bthdef} :
    Obeys (Served (.windows w) known) ((Incoming.accepts self).gets (.windows w)) none
      (Socket.accept w self.inner).run (Gives ((Platform.windows w).direct known) self.stream) := by
  refine Obeys.lift_bind (@obeys_perform os _ _ _ _ (.accept self.inner.raw _)
    (Got (.windows w) known false self.protocol sizeofSockaddrBth) fun r served =>
      served.got rfl (by decide)) ?_
  rintro r n (⟨failed, rfl, _⟩ | ⟨passed, rfl⟩)
  · have failing : checkSocket r.ret = .error (.os r.ret.errno) := if_pos failed
    rw [failing]
    exact obeys_run_throw _ (Or.inl rfl)
  · have passing : checkSocket r.ret = .ok r.ret.value := if_neg passed
    rw [passing]
    refine @gives_of_setsUp (.windows w) known self
      (⟨r.ret.value⟩, (Platform.windows w).origin r.addr)
      (Socket.withNoInherit r.ret.value >>= fun socket =>
        pure (socket, (Platform.windows w).origin r.addr)) rfl ?_ ?_
    · exact Emits.run_bind (Socket.emits_withNoInherit _) fun _ => emits_run_pure _
    · have last : Yields (do Socket.setNoInherit ⟨r.ret.value⟩; pure ⟨r.ret.value⟩)
          (· = (⟨r.ret.value⟩ : IoBluetooth.Socket)) := yields_bind fun _ => yields_pure _ rfl
      intro t y run
      rcases (runs_run_bind _ _ _ _).mp run with ⟨_, _, wrong⟩ | ⟨u, v, socket, _, first, _, eq⟩
      · cases wrong
      · cases eq
        rw [last.owning _ u socket first]

theorem BtListener.gives_accept :
    Obeys (Served P known) ((Incoming.accepts self).gets P) none (self.accept P).run
      (Gives (P.direct known) id) := by
  have gives : Obeys (Served P known) ((Incoming.accepts self).gets P) none (self.inner.accept P).run
      (Gives (P.direct known) self.stream) := by
    cases P with
    | unix target => exact Unix.Socket.gives_accept
    | windows w => exact Windows.Socket.gives_accept
  exact gives.run_bind (fun y n result => obeys_run_pure _ result) fun e n result => result

theorem Incoming.obeys (P : Platform) (known : Bool) (q : Incoming) :
    Obeys (Served P known) (q.gets P) q.start (q.program P).run (q.Ends (P.direct known)) := by
  cases q with
  | connects | leaves => exact obeys_run_pure _ ⟨rfl, rfl⟩
  | accepts self =>
    exact BtListener.gives_accept.run_bind (fun r n result => obeys_run_pure _ result)
      fun e n result => result

end Accept

/-! ### The queue -/

theorem Outcome.possible_nonempty (direct : Bool) (m : Outcome)
    (X : Set (Except Exit (Option (BtStream × BtAddr)))) (left : m.possible direct = some X) :
    X.Nonempty := by
  obtain ⟨x, _, rfl⟩ := Option.map_eq_some_iff.mp left
  exact ⟨.ok x, Or.inl rfl⟩

/-- Each connection is taken off the queue when the system gives it a descriptor. -/
theorem listening_foresees {ι : Type} [DecidableEq ι] (P : Platform) (known : Bool)
    (same : BtListener → Prop) :
    (listening P known same ι).Foresees (Served P known) (Incoming.gets P) Incoming.start
      (Incoming.Ends (P.direct known)) ⟨[], []⟩ (Accepting (P.direct known)) ⟨[], []⟩
      (Outcome.possible (P.direct known)) fun s _ σ => s = σ where
  starts := rfl
  allows s _ _ _ _ _ s' _ replied := ⟨s, s', replied⟩
  begins := by
    rintro s v _ i q s' rfl idle admitted
    cases q with
    | connects peer =>
      cases admitted
      refine Or.inr ⟨_, _, rfl, ?_, rfl⟩
      rintro _ (rfl | ⟨⟨⟩, _⟩)
      exact .connects
    | leaves place =>
      obtain ⟨inside, rfl⟩ := admitted
      refine Or.inr ⟨_, _, rfl, ?_, rfl⟩
      rintro _ (rfl | ⟨⟨⟩, _⟩)
      exact .leaves inside
    | accepts self => exact Or.inl ⟨rfl, admitted.2⟩
  calls := by
    rintro s v _ i q m e s' n rfl busy replied accepted
    cases replied with
    | @takes served peer rest w e fast len r call passed written addr =>
      obtain ⟨self, rfl, rfl, room, ⟨failed, _⟩ | ⟨_, rfl⟩⟩ := Incoming.of_gets accepted call
      · exact absurd failed passed
      · refine Or.inr ⟨rfl, _, _, rfl, ?_, rfl⟩
        rw [addr, written.origin room]
        -- it takes effect here, though `accept` alone may still fail to set close-on-exec
        rintro a (rfl | ⟨_, slow, e, rfl⟩)
        · exact .accepts
        · exact .lost slow
    | fails call failed =>
      -- interrupted, unknown to the kernel, or refused: the queue is as it was
      obtain ⟨self, rfl, rfl, _, ⟨_, rfl⟩ | ⟨passed, _⟩⟩ := Incoming.of_gets accepted call
      · exact Or.inl ⟨.none, rfl⟩
      · exact absurd failed passed
    | other none =>
      cases (Incoming.gets_other none m).symm.trans accepted
      refine Or.inl ⟨?_, rfl⟩
      cases m with
      | none => exact .none
      | some x => exact .some (Set.Subset.refl _)
  returns := by
    rintro s v _ i q m a s' rfl busy last ended
    cases ended
    match q, a with
    | .connects _, a | .leaves _, a =>
      obtain ⟨rfl, rfl⟩ := last
      exact Or.inl ⟨⟨_, rfl, Or.inl rfl⟩, rfl⟩
    | .accepts self, .ok o =>
      cases last
      exact Or.inl ⟨⟨_, rfl, Or.inl rfl⟩, rfl⟩
    | .accepts self, .error e =>
      rcases last with rfl | ⟨slow, r, rfl⟩
      · exact Or.inr ⟨rfl, _, .refused, rfl⟩
      · exact Or.inl ⟨⟨_, rfl, Or.inr ⟨rfl, slow, e, rfl⟩⟩, rfl⟩

end IoBluetooth
