import IoBluetooth.Sys.Sharing

/-!
# How `TRY_CLOEXEC` is used

`duplicate` is the only function that loads or stores it, or duplicates a descriptor. Every
attempt with `F_DUPFD_CLOEXEC` comes right after a load that gave `true`, and one that the kernel
does not understand is followed by a store of `false` before `F_DUPFD` is used instead.
-/
namespace IoBluetooth

open Interaction Memory Rust

/-- The calls that `duplicate` makes with `TRY_CLOEXEC`. -/
def Call.flags : Call → Bool
  | .tryCloexecLoad | .tryCloexecStore _ | .fcntlDupfd _ | .fcntlDupfdCloexec _ => true
  | _ => false

/-- A system call that failed with `EINVAL`. -/
def Refused (r : Ret) : Prop := r.value = -1 ∧ r.errno = EINVAL

instance (r : Ret) : Decidable (Refused r) := inferInstanceAs (Decidable (_ ∧ _))

/-- Where a thread is in `duplicate`. -/
inductive Phase where
  | resting
  | trying
  | refused
  | falling
  deriving DecidableEq

def flagging : Monitor os Phase
  | .resting, ⟨.tryCloexecLoad, value⟩ => some (if value then .trying else .falling)
  | .trying, ⟨.fcntlDupfdCloexec _, r⟩ => some (if Refused r then .refused else .resting)
  | .refused, ⟨.tryCloexecStore false, _⟩ => some .falling
  | .falling, ⟨.fcntlDupfd _, _⟩ => some .resting
  | phase, e => if e.call.flags then none else some phase

/-- What the monitor accepts. -/
inductive Flagging : Phase → Event os → Phase → Prop
  | load (value) : Flagging .resting ⟨.tryCloexecLoad, value⟩ (if value then .trying else .falling)
  | attempt (fd r) : Flagging .trying ⟨.fcntlDupfdCloexec fd, r⟩
      (if Refused r then .refused else .resting)
  | store (r) : Flagging .refused ⟨.tryCloexecStore false, r⟩ .falling
  | fall (fd r) : Flagging .falling ⟨.fcntlDupfd fd, r⟩ .resting
  | other (phase e) : e.call.flags = false → Flagging phase e phase

theorem flagging_eq_some (phase phase' : Phase) (e : Event os) :
    flagging phase e = some phase' ↔ Flagging phase e phase' := by
  constructor
  · intro accepted
    unfold flagging at accepted
    split at accepted
    · cases accepted
      exact .load _
    · cases accepted
      exact .attempt _ _
    · cases accepted
      exact .store _
    · cases accepted
      exact .fall _ _
    · split at accepted
      · cases accepted
      · next quiet =>
        cases accepted
        exact .other _ _ (Bool.eq_false_iff.mpr quiet)
  · intro accepted
    cases accepted with
    | load | attempt | store | fall => rfl
    | other _ _ quiet =>
      unfold flagging
      split
      · cases quiet
      · cases quiet
      · cases quiet
      · cases quiet
      · rw [quiet]
        rfl

/-! ### Functions that leave it alone -/

abbrev Inert (e : Event os) : Prop := e.call.flags = false

variable {A : Event os → Prop} {α : Type} {target : Target}

theorem inert_of_setsUp (e : Event os) (setsUp : SetsUp e) : Inert e := by
  obtain ⟨c, r⟩ := e
  cases c <;> first | rfl | cases setsUp

theorem inert_of_opens (e : Event os) (opens : e.call.opens = true) : Inert e := by
  obtain ⟨c, r⟩ := e
  cases c <;> first | rfl | cases opens

theorem Works.inert {h : Handle} {e : Event os} (works : Works h e) : Inert e := by
  obtain ⟨c, r⟩ := e
  cases c <;> first | rfl | cases works

/-- The calls with which a connection is accepted. -/
def Call.accepts (h : Handle) : Call → Bool
  | .accept s _ | .accept4 s _ => s == h
  | .fcntlGetfd _ | .fcntlSetfd .. | .ioctlFioclex _ | .close _ => true
  | _ => false

theorem inert_of_accepts {h : Handle} (e : Event os) (accepts : e.call.accepts h = true) :
    Inert e := by
  obtain ⟨c, r⟩ := e
  cases c <;> first | rfl | cases accepts

theorem flagging_inert {p : Prog os α} (inert : Emits p Inert) (phase : Phase) :
    Obeys A flagging phase p fun _ n => n = phase :=
  (inert.mono fun e quiet => (flagging_eq_some _ _ _).mpr (.other phase e quiet)).obeys

namespace Unix

theorem Socket.emits_acceptInto {Q : Event os → Prop} {call : Nat → Prog os AddrReply}
    (accepts : ∀ len, Emits (call len) Q) (s : Memory.Block sizeofSockaddrRc × Nat) :
    Emits (Socket.acceptInto call s) Q :=
  (accepts s.2).bind fun _ => emits_pure _

theorem Socket.emits_acceptFallback (self : IoBluetooth.Socket)
    (s : Memory.Block sizeofSockaddrRc × Nat) :
    Emits (Socket.acceptFallback target self s).run fun e => e.call.accepts self.raw = true := by
  have accepts (len : Nat) : Emits (@Prog.perform os (.accept self.raw len)) fun e =>
      e.call.accepts self.raw = true := emits_perform _ fun _ => beq_self_eq_true self.raw
  refine Emits.run_bind (emits_lift (emits_cvtR (Socket.emits_acceptInto accepts) s)) ?_
  rintro ⟨res, addr, len⟩
  refine Emits.run_bind (emits_check _) fun fd => emits_owning ?_ ?_
  · refine Emits.run_bind ?_ fun _ => emits_run_pure _
    exact FileDesc.emits_cloexec target ⟨fd⟩ (fun _ => rfl) (fun _ => rfl) fun _ _ => rfl
  · exact (emits_perform _ fun _ => rfl).bind fun _ => emits_pure _

theorem Socket.emits_accept (self : IoBluetooth.Socket) :
    Emits (Socket.accept target self).run fun e => e.call.accepts self.raw = true := by
  unfold Socket.accept
  split
  · have accepts (len : Nat) : Emits (@Prog.perform os (.accept4 self.raw len)) fun e =>
        e.call.accepts self.raw = true := emits_perform _ fun _ => beq_self_eq_true self.raw
    refine Emits.run_bind (emits_lift (emits_cvtR (Socket.emits_acceptInto accepts) _)) ?_
    rintro ⟨res, s⟩
    dsimp only
    split
    · exact emits_run_pure _
    · split
      · exact Socket.emits_acceptFallback self s
      · exact emits_run_throw _
  · exact Socket.emits_acceptFallback self _

end Unix

theorem inert_eachAddr {T : Type} {f : BtAddr → Sys T}
    (inert : ∀ addr, Emits (f addr).run Inert) :
    Emits (Bt.eachAddr (Bt.attempt f) ()).run Inert := by
  refine emits_repeating (fun s => ?_) _
  refine Emits.run_bind (emits_sys _ fun _ => rfl) fun addr => ?_
  split
  · exact emits_run_throw _
  · refine Emits.run_bind (emits_lift ((inert _).map _)) fun x => ?_
    split
    · exact emits_run_pure _
    · exact emits_run_pure _
    · exact emits_run_throw _

/-! ### Duplicating -/

theorem flagging_after {phase phase' : Phase} (c : Call) (moves : ∀ r, Flagging phase ⟨c, r⟩ phase')
    {f : c.Reply → Sys α} {Q : Except Exit α → Phase → Prop}
    (rest : ∀ r, Obeys A flagging phase' (f r).run Q) :
    Obeys A flagging phase (sys c >>= f).run Q := by
  refine Obeys.lift_bind (R := fun _ n => n = phase') (@obeys_perform os _ _ _ _ c _ fun r _ =>
    ⟨phase', (flagging_eq_some _ _ _).mpr (moves r), rfl⟩) ?_
  rintro r _ rfl
  exact rest r

namespace Unix

theorem FileDesc.flagging_makeFiledesc (fd : Handle) (phase : Phase) :
    Obeys A flagging phase (FileDesc.makeFiledesc target fd).run fun _ n => n = phase := by
  refine flagging_inert (emits_owning ?_ ((FileDesc.emits_drop ⟨fd⟩).mono inert_of_setsUp)) phase
  exact Emits.run_bind ((FileDesc.emits_setCloexec target ⟨fd⟩).mono inert_of_setsUp) fun _ =>
    emits_run_pure _

theorem FileDesc.flagging_duplicateFallback (self : FileDesc) :
    Obeys A flagging .falling (FileDesc.duplicateFallback target self).run fun _ n => n = .resting := by
  refine flagging_after (.fcntlDupfd self.fd) (fun r => .fall _ r) fun r => ?_
  cases cvt r with
  | ok fd => exact FileDesc.flagging_makeFiledesc fd .resting
  | error e => exact obeys_run_throw _ rfl

theorem FileDesc.flagging_duplicate (named : target ≠ .android ∧ target ≠ .haiku)
    (self : FileDesc) :
    Obeys A flagging .resting (FileDesc.duplicate target self).run fun _ n => n = .resting := by
  refine Obeys.lift_bind (R := fun value n => n = if value then .trying else .falling)
    (@obeys_perform os _ _ _ _ .tryCloexecLoad _ fun value _ =>
      ⟨_, (flagging_eq_some _ _ _).mpr (.load value), rfl⟩) ?_
  rintro value _ rfl
  cases value with
  | false => exact FileDesc.flagging_duplicateFallback self
  | true =>
    have own : FileDesc.fcntlDupfdCloexec target self.fd = sys (.fcntlDupfdCloexec self.fd) :=
      if_neg (not_or.mpr named)
    rw [own]
    refine Obeys.lift_bind (R := fun r n => n = if Refused r then .refused else .resting)
      (@obeys_perform os _ _ _ _ (.fcntlDupfdCloexec self.fd) _ fun r _ =>
        ⟨_, (flagging_eq_some _ _ _).mpr (.attempt _ r), rfl⟩) ?_
    rintro r _ rfl
    by_cases failed : r.value = -1
    · rw [(cvt_eq_error_iff r _).mpr ⟨failed, rfl⟩]
      have known : (IoError.os r.errno).rawOsError = some EINVAL ↔ Refused r := by
        simp only [IoError.rawOsError_eq_some, IoError.os.injEq, Refused, failed, true_and]
      dsimp only
      by_cases refused : Refused r
      · -- no other attempt will be made
        rw [if_pos refused, if_pos (known.mpr refused)]
        exact flagging_after (.tryCloexecStore false) .store fun _ =>
          FileDesc.flagging_duplicateFallback self
      · rw [if_neg refused, if_neg fun same => refused (known.mp same)]
        exact obeys_run_throw _ rfl
    · rw [(cvt_eq_ok_iff r _).mpr ⟨failed, rfl⟩, if_neg fun refused => failed refused.1]
      dsimp only
      split
      · exact FileDesc.flagging_makeFiledesc _ _
      · exact obeys_run_pure _ rfl

end Unix

/-! ### Requests -/

theorem Operation.inert (op : Operation) (other : ∀ self, op ≠ .duplicate self) :
    Emits (op.program (.unix target)).run Inert := by
  have setsUp (e : Event os) : SetsUp e → Inert e := inert_of_setsUp e
  cases op with
  | new protocol => exact (Socket.emits_new (.unix target) protocol).mono setsUp
  | accept self =>
    exact Emits.run_bind ((Unix.Socket.emits_accept self).mono inert_of_accepts) fun _ =>
      emits_run_pure _
  | duplicate self => exact absurd rfl (other self)
  | bind addr protocol =>
    have bind := (BtListener.uses_bind (P := .unix target) addr protocol).mono inert_of_opens
    exact Emits.run_bind (bind.emits setsUp) fun _ => emits_run_pure _
  | connect addr protocol =>
    have connect := (BtStream.uses_connect (P := .unix target) addr protocol).mono inert_of_opens
    exact Emits.run_bind (connect.emits setsUp) fun _ => emits_run_pure _
  | connectTimeout pad addr protocol timeout =>
    refine Emits.run_bind ?_ fun _ => emits_run_pure _
    refine Emits.run_bind ((Socket.emits_new _ protocol).mono setsUp) fun s => ?_
    refine emits_owning ?_ ((s.emits_drop _).mono setsUp)
    exact Emits.run_bind ((s.works_connectTimeout pad addr timeout).mono fun _ on => on.inert)
      fun _ => emits_run_pure _

/-- All requests but those that duplicate a socket. -/
theorem Request.inert (q : Request) (other : ∀ self, q ≠ .make (.duplicate self)) :
    Emits (q.program (.unix target)).run Inert := by
  have setsUp (e : Event os) : SetsUp e → Inert e := inert_of_setsUp e
  cases q with
  | make op =>
    have inert : Emits (op.program (.unix target)).run Inert :=
      op.inert fun self same => other self (congrArg Request.make same)
    exact Emits.run_bind inert fun _ => emits_run_pure _
  | bind protocol =>
    have bind (addr : BtAddr) :=
      ((BtListener.uses_bind (P := .unix target) addr protocol).mono inert_of_opens).emits setsUp
    refine Emits.run_bind ?_ fun _ => emits_run_pure _
    rw [Bt.BtListener.bind, ← bind_pure_comp]
    exact Emits.run_bind (inert_eachAddr bind) fun _ => emits_run_pure _
  | connect protocol =>
    have connect (addr : BtAddr) :=
      ((BtStream.uses_connect (P := .unix target) addr protocol).mono inert_of_opens).emits setsUp
    refine Emits.run_bind ?_ fun _ => emits_run_pure _
    rw [Bt.BtStream.connect, ← bind_pure_comp]
    exact Emits.run_bind (inert_eachAddr connect) fun _ => emits_run_pure _
  | stream self f =>
    exact Emits.run_bind ((f.works self).mono fun _ on => on.inert) fun _ => emits_run_pure _
  | listener self f =>
    exact Emits.run_bind ((f.works self).mono fun _ on => on.inert) fun _ => emits_run_pure _
  | drop self =>
    exact Emits.run_bind (emits_lift ((self.emits_drop _).mono setsUp)) fun _ => emits_run_pure _

theorem Request.flagging (named : target ≠ .android ∧ target ≠ .haiku) (q : Request) :
    Obeys A flagging .resting (q.program (.unix target)).run fun _ n => n = .resting := by
  by_cases duplicates : ∃ self, q = .make (.duplicate self)
  · obtain ⟨self, rfl⟩ := duplicates
    have duplicated : Obeys A IoBluetooth.flagging .resting
        ((Operation.duplicate self).program (.unix target)).run fun _ n => n = .resting := by
      refine ((Unix.FileDesc.flagging_duplicate named ⟨self.raw⟩).run_bind ?_ fun e n left => left)
      rintro fd _ rfl
      exact obeys_run_pure _ rfl
    refine duplicated.run_bind ?_ fun e n left => left
    rintro socket _ rfl
    exact obeys_run_pure _ rfl
  · exact flagging_inert (q.inert fun self same => duplicates ⟨self, same⟩) _

/-! ### The flag among the threads -/

section Threads

variable {ι : Type} [DecidableEq ι] {P : Platform} {K : Kernel}

/-- The calls that are made where `F_DUPFD_CLOEXEC` is not relied on. -/
def Call.fallsBack : Call → Bool
  | .tryCloexecStore _ | .fcntlDupfd _ => true
  | _ => false

/-- While no attempt is refused, every load gives the first value. -/
theorem Flagging.relied {i : ι} {c c' : Cell ι Bool} {e : Event os} {phase phase' : Phase}
    (understood : ∀ fd r, e = ⟨.fcntlDupfdCloexec fd, r⟩ → ¬Refused r)
    (values : c.values = [true]) (at_phase : phase = .resting ∨ phase = .trying)
    (accepted : Flagging phase e phase') (moved : Flagged i c e c') :
    c'.values = [true] ∧ e.call.fallsBack = false ∧ (phase' = .resting ∨ phase' = .trying) := by
  cases accepted with
  | load value =>
    obtain ⟨rfl, values'⟩ := moved.eq_of_values values
    exact ⟨values', rfl, Or.inr rfl⟩
  | attempt fd r =>
    cases moved
    exact ⟨values, rfl, Or.inl (if_neg (understood fd r rfl))⟩
  | store r => exact at_phase.elim nofun nofun
  | fall fd r => exact at_phase.elim nofun nofun
  | other phase e quiet =>
    obtain ⟨call, r⟩ := e
    refine ⟨?_, ?_, at_phase⟩
    · cases call <;> first | (cases quiet; done) | (cases moved; exact values)
    · cases call <;> first | rfl | cases quiet

end Threads

end IoBluetooth
