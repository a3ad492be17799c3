import IoBluetooth.Interaction.AtMostOne
import IoBluetooth.Sys.Ownership

/-!
# One descriptor at a time

While a listener is bound or a stream connected, whether that comes to an end or not, there is
never more than one descriptor that was not there before.
-/
namespace IoBluetooth

open Interaction

variable {P : Platform} {α : Type}

theorem atMostOne_sys {g : Bool} (c : Call) (result : c.Reply → Except IoError Handle)
    (acquires : ∀ r, P.effect ⟨c, r⟩ = .ofResult g (result r)) {f : c.Reply → Sys α}
    (ok : ∀ r h, result r = .ok h → Keeps P.effect h (f r).run)
    (error : ∀ r e, result r = .error e → AtMostOne P.effect (f r).run) :
    AtMostOne P.effect (sys c >>= f).run :=
  @atMostOne_perform os _ _ _ _ P.effect g c result acquires (fun r => (f r).run) ok error

theorem atMostOne_after (c : Call) (quiet : ∀ r, P.effect ⟨c, r⟩ = .none) {f : c.Reply → Sys α}
    (rest : ∀ r, AtMostOne P.effect (f r).run) : AtMostOne P.effect (sys c >>= f).run := by
  have call := @emits_perform os (P.effect · = .none) c quiet
  exact call.atMostOne.bind call.neutral rest

/-- A descriptor from a call is kept by what follows the `?`. -/
theorem atMostOne_checked {g : Bool} (c : Call) (result : c.Reply → Except IoError Handle)
    (acquires : ∀ r, P.effect ⟨c, r⟩ = .ofResult g (result r)) {f : c.Reply → Handle → Sys α}
    (kept : ∀ r h, Keeps P.effect h (f r h).run) :
    AtMostOne P.effect (sys c >>= fun r => check (result r) >>= f r).run := by
  refine atMostOne_sys c result acquires (fun r h outcome => ?_) fun r e outcome => ?_
  · rw [outcome]
    exact kept r h
  · rw [outcome]
    exact (emits_run_throw (Exit.err e)).atMostOne

theorem Socket.keeps_drop (self : Socket) : Keeps P.effect self.raw (self.drop P) := by
  cases P with
  | unix target =>
    exact (@keeps_release os _ _ _ self.raw (.close self.raw) fun _ => rfl).bind_pure _
  | windows w =>
    exact (@keeps_release os _ _ _ self.raw (.closesocket self.raw) fun _ => rfl).bind_pure _

/-- A call whose return value is only checked, and which sets the guard at most. -/
theorem emits_guarding {β : Type} (h : Handle) (c : Call) (result : c.Reply → Except IoError β)
    (guarding : ∀ r, P.effect ⟨c, r⟩ = .none ∨ P.effect ⟨c, r⟩ = .guard h) :
    Emits (do let r ← sys c; let _ ← check (result r); pure () : Sys Unit).run
      fun e => P.effect e = .none ∨ P.effect e = .guard h :=
  Emits.run_bind (emits_sys c guarding) fun _ =>
    Emits.run_bind (emits_check _) fun _ => emits_run_pure _

namespace Unix

variable {target : Target}

theorem FileDesc.emits_effect (fd : FileDesc) :
    Emits (fd.setCloexec target).run fun e =>
      (Platform.unix target).effect e = .none ∨ (Platform.unix target).effect e = .guard fd.fd := by
  refine FileDesc.emits_cloexec target fd (fun r => ?_) (fun r => ?_) fun previous r => ?_
  all_goals
    simp only [Platform.effect]
    repeat' split
    all_goals first | exact Or.inl rfl | exact Or.inr rfl

theorem Socket.atMostOne_newFallback (protocol : BtProtocol) :
    AtMostOne (Platform.unix target).effect (Socket.newFallback target protocol).run := by
  refine atMostOne_checked (.socket false _) cvt (fun _ => rfl) fun _ fd => ?_
  refine keeps_owning ?_ (IoBluetooth.Socket.keeps_drop ⟨fd⟩)
  refine Emits.run_bind (FileDesc.emits_effect ⟨fd⟩) fun _ => ?_
  · refine Emits.run_bind ?_ fun _ => emits_run_pure _
    unfold Socket.setNosigpipe
    split
    · exact emits_setsockopt _ _ _ _ fun _ => Or.inl rfl
    · exact emits_run_pure _

/-- Where the fallback is taken, the first call has acquired nothing. -/
theorem Socket.atMostOne_new (protocol : BtProtocol) :
    AtMostOne (Platform.unix target).effect (Socket.new target protocol).run := by
  unfold Socket.new
  split
  · refine atMostOne_sys (.socket true _) cvt (fun _ => rfl) (fun r fd outcome => ?_)
      fun r e outcome => ?_
    · rw [outcome]
      exact keeps_pure _
    · rw [outcome]
      dsimp only
      split
      · -- the kernel does not know `SOCK_CLOEXEC`
        exact Socket.atMostOne_newFallback protocol
      · exact (emits_run_throw (Exit.err e)).atMostOne
  · exact Socket.atMostOne_newFallback protocol

end Unix

theorem Windows.Socket.atMostOne_new {w : Bthdef} (protocol : BtProtocol) :
    AtMostOne (Platform.windows w).effect (Windows.Socket.new protocol).run := by
  refine atMostOne_after .winsockInit (fun _ => rfl) fun _ => ?_
  cases protocol with
  | l2cap => exact (emits_run_throw _).atMostOne
  | rfcomm =>
    refine atMostOne_checked (.wsaSocketW _) Windows.checkSocket (fun _ => rfl) fun _ s => ?_
    refine keeps_owning ?_ (@IoBluetooth.Socket.keeps_drop (.windows w) ⟨s⟩)
    refine Emits.run_bind (emits_guarding s (.setHandleInformation s) Windows.sysCvt fun r => ?_)
      fun _ => emits_run_pure _
    simp only [Platform.effect]
    split
    · exact Or.inl rfl
    · exact Or.inr rfl

theorem Socket.atMostOne_new (protocol : BtProtocol) :
    AtMostOne P.effect (Socket.new P protocol).run := by
  cases P with
  | unix target => exact Unix.Socket.atMostOne_new protocol
  | windows w => exact Windows.Socket.atMostOne_new protocol

theorem UsesSocket.atMostOne {protocol : BtProtocol} {handle : α → Handle} {p : Sys α}
    (uses : UsesSocket P protocol handle (P.effect · = .none) p) : AtMostOne P.effect p.run := by
  cases uses with
  | @mk body calls _ =>
    refine (Socket.constructs_new protocol).atMostOne_bind (Socket.atMostOne_new protocol) ?_
    intro s
    exact keeps_owning ((calls s).mono fun _ => Or.inl) s.keeps_drop

end IoBluetooth
