import IoBluetooth.Sys.Calls

/-!
# Who owns a descriptor

What each call does to the descriptors the crate holds, and what the functions that make a
socket make of it: one descriptor more, closed on exec, where they succeed, and otherwise none.
-/
namespace IoBluetooth

open Interaction Memory Rust

/-- A handle is guarded when close-on-exec is set, and on Windows when its inherit flag is
cleared. `F_DUPFD_CLOEXEC` is not trusted to set it. -/
def Platform.effect (P : Platform) (e : Event os) : Effect Handle :=
  match e with
  | ⟨.socket cloexec _, r⟩ => .ofResult cloexec (cvt r)
  | ⟨.accept4 .., r⟩ => .ofResult true (cvt r.ret)
  | ⟨.accept .., r⟩ =>
    match P with
    | .unix _ => .ofResult false (cvt r.ret)
    | .windows _ => .ofResult false (Windows.checkSocket r.ret)
  | ⟨.fcntlDupfd _, r⟩ => .ofResult false (cvt r)
  | ⟨.fcntlDupfdCloexec _, r⟩ => .ofResult false (cvt r)
  | ⟨.wsaSocketW _, r⟩ => .ofResult false (Windows.checkSocket r)
  | ⟨.ioctlFioclex fd, r⟩ => if r.value = -1 then .none else .guard fd
  -- a reply with the flag tells that it is set
  | ⟨.fcntlGetfd fd, r⟩ =>
    if r.value = -1 then .none
    else if Unix.FileDesc.withCloexec r.value = r.value then .guard fd else .none
  | ⟨.fcntlSetfd fd flags, r⟩ =>
    if r.value = -1 then .none
    else if Unix.FileDesc.withCloexec flags = flags then .guard fd else .none
  | ⟨.setHandleInformation s, r⟩ => if r.value = 0 then .none else .guard s
  | ⟨.close fd, _⟩ => .release fd
  | ⟨.closesocket s, _⟩ => .release s
  | _ => .none

/-- A call that sets the guard of `h` where it succeeds, and does nothing where it fails. -/
structure Guards {β : Type} (effect : Event os → Effect Handle) (h : Handle) (c : Call)
    (result : c.Reply → Except IoError β) : Prop where
  ok : ∀ r b, result r = .ok b → effect ⟨c, r⟩ = .guard h
  error : ∀ r e, result r = .error e → effect ⟨c, r⟩ = .none

section Calls

variable (P : Platform) {α : Type} {handle : α → Handle} {g : Bool}

/-- A descriptor from a call goes to what follows the `?`. -/
theorem constructs_checked (c : Call) (result : c.Reply → Except IoError Handle)
    (acquires : ∀ r, P.effect ⟨c, r⟩ = .ofResult g (result r))
    {f : c.Reply → Handle → Sys α} (owned : ∀ r h, Completes P.effect g h handle (f r h)) :
    Constructs P.effect handle (sys c >>= fun r => check (result r) >>= f r) := by
  refine (@acquires_perform os _ _ _ P.effect g c result acquires).constructs ?_ ?_
  · intro r h outcome
    rw [outcome]
    exact owned r h
  · intro r e outcome
    rw [outcome]
    exact constructs_throw (Exit.err e)

variable {P} in
/-- A call that sets the guard of the handle, and whose return value is only checked. -/
theorem Guards.secures {β : Type} {h : Handle} {c : Call} {result : c.Reply → Except IoError β}
    (guards : Guards P.effect h c result) :
    Secures P.effect g h (do let r ← sys c; let _ ← check (result r); pure () : Sys Unit) := by
  rintro L _ t y M rfl run steps
  obtain ⟨r, u, rfl, checked⟩ := (runs_sys_bind _ _ _ _).mp run
  rcases (runs_check_bind _ _ _ _).mp checked with ⟨e, failed, rfl, rfl⟩ | ⟨_, passed, rfl, rfl⟩
  · obtain ⟨_, rfl⟩ := (steps_singleton _ _ _ _).mp steps
    exact ⟨g, by rw [guards.error r e failed, Ledger.apply]⟩
  · obtain ⟨_, rfl⟩ := (steps_singleton _ _ _ _).mp steps
    dsimp only
    rw [guards.ok r _ passed, Ledger.apply, Ledger.guard_acquire]

theorem neutral_sys (c : Call) (quiet : ∀ r, P.effect ⟨c, r⟩ = .none) :
    Neutral P.effect (sys c).run :=
  (emits_sys c quiet).neutral

end Calls

/-! ### Unix -/

namespace Unix

section Loop

variable {effect : Event os → Effect Handle} {σ : Type} {g : Bool}

/-- An attempt that a signal interrupts acquires nothing, so that the last one decides. -/
theorem acquires_cvtR {f : σ → Prog os (Ret × σ)}
    (attempt : ∀ s, Acquires effect g (fun x => cvt x.1) (f s)) (s : σ) :
    Acquires effect g (fun x => x.1) (cvtR f s) := by
  intro L L₀ t y L' start run steps
  subst start
  revert L'
  refine runs_cvtR_induction ?_ ?_ s t y run
  · -- the last attempt
    intro s t r s' last _ L' steps
    exact attempt s L₀ L₀ t (r, s') L' rfl last steps
  · -- an interrupted one, which failed
    intro s t r s' u y first signal ih L' steps
    obtain ⟨M, before, after⟩ := (steps_append _ _ _ _ _).mp steps
    have kept := attempt s L₀ L₀ t (r, s') M rfl first before
    simp only [cvt, signal.1, if_true] at kept
    rw [kept] at after
    exact ih L' after

theorem acquires_acceptInto {call : Nat → Prog os AddrReply}
    (accepts : ∀ len, Acquires effect g (fun r => cvt r.ret) (call len))
    (s : Block sizeofSockaddrRc × Nat) :
    Acquires effect g (fun x => cvt x.1) (Socket.acceptInto call s) :=
  (accepts s.2).bind_pure _ fun _ => rfl

end Loop

variable {target : Target}

theorem FileDesc.releases_drop (fd : FileDesc) :
    Releases (Platform.unix target).effect fd.fd fd.drop := by
  rintro L _ t _ M rfl ⟨r, _, rfl, rfl, _⟩ steps
  exact ((steps_singleton _ _ _ _).mp steps).2

theorem guards_ioctlFioclex (P : Platform) (fd : Handle) :
    Guards P.effect fd (.ioctlFioclex fd) cvt where
  ok r n passed := if_neg ((cvt_eq_ok_iff r n).mp passed).1
  error r e failed := if_pos ((cvt_eq_error_iff r e).mp failed).1

theorem guards_fcntlSetfd (P : Platform) (fd : Handle) (previous : Int) :
    Guards P.effect fd (.fcntlSetfd fd (FileDesc.withCloexec previous)) cvt where
  ok r n passed := by
    have valid := ((cvt_eq_ok_iff r n).mp passed).1
    exact (if_neg valid).trans (if_pos (FileDesc.withCloexec_idem previous))
  error r e failed := if_pos ((cvt_eq_error_iff r e).mp failed).1

theorem effect_fcntlGetfd (P : Platform) (fd : Handle) {r : Ret} {previous : Int}
    (passed : cvt r = .ok previous) :
    P.effect ⟨.fcntlGetfd fd, r⟩ =
      if FileDesc.withCloexec previous = previous then .guard fd else .none := by
  obtain ⟨valid, rfl⟩ := (cvt_eq_ok_iff r previous).mp passed
  exact if_neg valid

theorem FileDesc.secures_setCloexec (fd : FileDesc) :
    Secures (Platform.unix target).effect false fd.fd (fd.setCloexec target) := by
  unfold setCloexec
  split
  · exact (guards_ioctlFioclex (.unix target) fd.fd).secures
  · rintro L _ t y M rfl run steps
    obtain ⟨r, u, rfl, checked⟩ := (runs_sys_bind _ _ _ _).mp run
    obtain ⟨N, ⟨_, rfl⟩, later⟩ := (steps_cons _ _ _ _ _).mp steps
    rcases (runs_check_bind _ _ _ _).mp checked with ⟨e, failed, rfl, rfl⟩ | ⟨n, passed, rest⟩
    · obtain rfl := (steps_nil _ _ _).mp later
      obtain ⟨failed, _⟩ := (cvt_eq_error_iff r e).mp failed
      have quiet : (Platform.unix target).effect ⟨.fcntlGetfd fd.fd, r⟩ = .none := if_pos failed
      exact ⟨false, by rw [quiet, Ledger.apply]⟩
    · rw [effect_fcntlGetfd _ _ passed] at later
      by_cases set : withCloexec n = n
      · rw [if_pos set] at later rest
        obtain ⟨rfl, rfl⟩ := rest
        obtain rfl := (steps_nil _ _ _).mp later
        exact Ledger.guard_acquire _ _ _
      · rw [if_neg set] at later rest
        exact (guards_fcntlSetfd (.unix target) fd.fd n).secures L _ u y M rfl rest later

/-- Setting the flag is all there is to do with a new descriptor. -/
theorem completes_setCloexec {α : Type} (fd : Handle) (handle : α → Handle) {rest : Sys α}
    (quiet : Neutral (Platform.unix target).effect rest.run) (same : Yields rest (handle · = fd)) :
    Completes (Platform.unix target).effect false fd handle
      (owning (FileDesc.drop ⟨fd⟩) (FileDesc.setCloexec target ⟨fd⟩ >>= fun _ => rest)) := by
  refine completes_owning ?_ (FileDesc.releases_drop ⟨fd⟩) (yields_bind fun _ => same)
  exact (FileDesc.secures_setCloexec ⟨fd⟩).bind fun _ => quiet

theorem neutral_run_pure {α : Type} (a : α) :
    Neutral (Platform.unix target).effect (pure a : Sys α).run :=
  (emits_run_pure a).neutral

theorem Socket.constructs_newFallback (protocol : BtProtocol) :
    Constructs (Platform.unix target).effect Socket.raw (Socket.newFallback target protocol) := by
  refine constructs_checked _ (.socket false _) cvt (fun _ => rfl) fun _ fd => ?_
  refine completes_setCloexec fd _ (Emits.neutral ?_) (yields_bind fun _ => yields_pure _ rfl)
  refine Emits.run_bind ?_ fun _ => emits_run_pure _
  unfold Socket.setNosigpipe
  split
  · exact emits_setsockopt _ _ _ _ fun _ => rfl
  · exact emits_run_pure _

theorem Socket.constructs_new (protocol : BtProtocol) :
    Constructs (Platform.unix target).effect Socket.raw (Socket.new target protocol) := by
  unfold Socket.new
  split
  · refine (@acquires_perform os _ _ _ _ true (.socket true _) cvt fun _ => rfl).constructs ?_ ?_
    · intro r fd outcome
      rw [outcome]
      exact completes_pure _ rfl
    · intro r e outcome
      rw [outcome]
      dsimp only
      split
      · -- the kernel does not know `SOCK_CLOEXEC`
        exact Socket.constructs_newFallback protocol
      · exact constructs_throw (Exit.err e)
  · exact Socket.constructs_newFallback protocol

theorem Socket.constructs_acceptFallback (self : IoBluetooth.Socket)
    (s : Block sizeofSockaddrRc × Nat) :
    Constructs (Platform.unix target).effect (·.1.raw) (Socket.acceptFallback target self s) := by
  have accepts (len : Nat) := @acquires_perform os _ _ _ (Platform.unix target).effect false
    (.accept self.raw len) (fun r => cvt r.ret) fun _ => rfl
  refine (acquires_cvtR (acquires_acceptInto accepts) s).constructs ?_ ?_
  · rintro ⟨res, addr, len⟩ fd rfl
    exact completes_setCloexec fd _ (neutral_run_pure _) (yields_pure _ rfl)
  · rintro ⟨res, addr, len⟩ e rfl
    exact constructs_throw (Exit.err e)

theorem Socket.constructs_accept (self : IoBluetooth.Socket) :
    Constructs (Platform.unix target).effect (·.1.raw) (Socket.accept target self) := by
  unfold Socket.accept
  split
  · have accepts (len : Nat) := @acquires_perform os _ _ _ (Platform.unix target).effect true
      (.accept4 self.raw len) (fun r => cvt r.ret) fun _ => rfl
    refine (acquires_cvtR (acquires_acceptInto accepts) _).constructs ?_ ?_
    · rintro ⟨res, s⟩ fd rfl
      exact completes_pure _ rfl
    · rintro ⟨res, s⟩ e rfl
      dsimp only
      split
      · -- the kernel does not know `accept4`
        exact Socket.constructs_acceptFallback self s
      · exact constructs_throw (Exit.err e)
  · exact Socket.constructs_acceptFallback self _

theorem FileDesc.completes_makeFiledesc (fd : Handle) :
    Completes (Platform.unix target).effect false fd FileDesc.fd
      (FileDesc.makeFiledesc target fd) :=
  completes_setCloexec fd _ (neutral_run_pure _) (yields_pure _ rfl)

theorem FileDesc.constructs_duplicateFallback (self : FileDesc) :
    Constructs (Platform.unix target).effect FileDesc.fd
      (FileDesc.duplicateFallback target self) :=
  constructs_checked _ (.fcntlDupfd self.fd) cvt (fun _ => rfl) fun _ =>
    FileDesc.completes_makeFiledesc

/-- On Linux the flag is set whatever `TRY_CLOEXEC` says. -/
theorem FileDesc.constructs_duplicate (self : FileDesc) :
    Constructs (Platform.unix .linux).effect FileDesc.fd (FileDesc.duplicate .linux self) := by
  refine (neutral_sys _ .tryCloexecLoad fun _ => rfl).constructs fun tryCloexec => ?_
  split
  · refine (@acquires_perform os _ _ _ _ false (.fcntlDupfdCloexec self.fd) cvt
      fun _ => rfl).constructs ?_ ?_
    · intro r fd outcome
      rw [outcome]
      -- the flag is set once more
      exact FileDesc.completes_makeFiledesc fd
    · intro r e outcome
      rw [outcome]
      dsimp only
      split
      · -- the kernel does not know `F_DUPFD_CLOEXEC`
        exact (neutral_sys _ (.tryCloexecStore false) fun _ => rfl).constructs fun _ =>
          FileDesc.constructs_duplicateFallback self
      · exact constructs_throw (Exit.err e)
  · exact FileDesc.constructs_duplicateFallback self

theorem Socket.constructs_duplicate (self : IoBluetooth.Socket) :
    Constructs (Platform.unix .linux).effect Socket.raw (Socket.duplicate .linux self) :=
  (FileDesc.constructs_duplicate ⟨self.raw⟩).bind_pure _ fun _ => rfl

end Unix

/-! ### Windows -/

namespace Windows

variable {w : Bthdef}

theorem Socket.releases_drop (self : IoBluetooth.Socket) :
    Releases (Platform.windows w).effect self.raw (Socket.drop self) := by
  rintro L _ t _ M rfl ⟨r, _, rfl, rfl, _⟩ steps
  exact ((steps_singleton _ _ _ _).mp steps).2

theorem guards_setHandleInformation (w : Bthdef) (s : Handle) :
    Guards (Platform.windows w).effect s (.setHandleInformation s) sysCvt where
  ok r n passed := by
    refine if_neg fun failed => ?_
    rw [sysCvt, if_pos failed] at passed
    cases passed
  error r e failed := by
    by_contra other
    have passed : r.value ≠ 0 := fun zero => other (if_pos zero)
    rw [sysCvt, if_neg passed] at failed
    cases failed

theorem Socket.secures_setNoInherit (self : IoBluetooth.Socket) :
    Secures (Platform.windows w).effect false self.raw (Socket.setNoInherit self) := by
  exact (guards_setHandleInformation w self.raw).secures

theorem Socket.completes_withNoInherit (s : Handle) :
    Completes (Platform.windows w).effect false s Socket.raw (Socket.withNoInherit s) := by
  refine completes_owning ?_ (Socket.releases_drop ⟨s⟩) (yields_bind fun _ => yields_pure _ rfl)
  exact (Socket.secures_setNoInherit ⟨s⟩).bind fun _ => (emits_run_pure _).neutral

theorem Socket.constructs_new (protocol : BtProtocol) :
    Constructs (Platform.windows w).effect Socket.raw (Socket.new protocol) := by
  refine (neutral_sys _ .winsockInit fun _ => rfl).constructs fun _ => ?_
  cases protocol with
  | l2cap => exact constructs_throw _
  | rfcomm =>
    exact constructs_checked _ (.wsaSocketW _) checkSocket (fun _ => rfl) fun _ =>
      Socket.completes_withNoInherit

theorem Socket.constructs_accept (self : IoBluetooth.Socket) :
    Constructs (Platform.windows w).effect (·.1.raw) (Socket.accept w self) := by
  refine constructs_checked (.windows w) (.accept self.raw _) (fun r => checkSocket r.ret)
    (fun _ => rfl) fun reply s => ?_
  exact (Socket.completes_withNoInherit s).bind_pure _ fun _ => rfl

theorem Socket.constructs_duplicate (self : IoBluetooth.Socket) :
    Constructs (Platform.windows w).effect Socket.raw (Socket.duplicate self) := by
  refine (neutral_sys _ (.wsaDuplicateSocketW self.raw) fun _ => rfl).constructs fun reply => ?_
  refine (emits_check _).neutral.constructs fun _ => ?_
  exact constructs_checked _ (.wsaSocketW reply.info) checkSocket (fun _ => rfl) fun _ =>
    Socket.completes_withNoInherit

end Windows

/-! ### Both platforms -/

variable {P : Platform}

theorem Socket.constructs_new (protocol : BtProtocol) :
    Constructs P.effect Socket.raw (Socket.new P protocol) := by
  cases P with
  | unix target => exact Unix.Socket.constructs_new protocol
  | windows w => exact Windows.Socket.constructs_new protocol

theorem Socket.constructs_accept (self : Socket) :
    Constructs P.effect (·.1.raw) (self.accept P) := by
  cases P with
  | unix target => exact Unix.Socket.constructs_accept self
  | windows w => exact Windows.Socket.constructs_accept self

theorem Socket.releases_drop (self : Socket) : Releases P.effect self.raw (self.drop P) := by
  cases P with
  | unix target => exact Unix.FileDesc.releases_drop ⟨self.raw⟩
  | windows w => exact Windows.Socket.releases_drop self

/-- A function that makes a socket and works with it: the calls of the work satisfy `Q`, and the
socket is the one in its result. -/
inductive UsesSocket {α : Type} (P : Platform) (protocol : BtProtocol) (handle : α → Handle)
    (Q : Event os → Prop) : Sys α → Prop
  | mk {body : Socket → Sys α} : (∀ s, Emits (body s).run Q) →
      (∀ s, Yields (body s) (handle · = s.raw)) →
      UsesSocket P protocol handle Q (Socket.new P protocol >>= fun s => owning (s.drop P) (body s))

section Uses

variable {α : Type} {protocol : BtProtocol} {handle : α → Handle} {Q R : Event os → Prop}
  {p : Sys α}

theorem UsesSocket.mono (uses : UsesSocket P protocol handle Q p) (h : ∀ e, Q e → R e) :
    UsesSocket P protocol handle R p := by
  cases uses with
  | mk calls same => exact .mk (fun s => (calls s).mono h) same

theorem UsesSocket.emits (uses : UsesSocket P protocol handle Q p) (setsUp : ∀ e, SetsUp e → Q e) :
    Emits p.run Q := by
  cases uses with
  | mk calls same =>
    refine Emits.run_bind ((Socket.emits_new P protocol).mono setsUp) fun s => ?_
    exact emits_owning (calls s) ((s.emits_drop P).mono setsUp)

/-- What is done with the socket neither takes nor gives up a descriptor. -/
theorem UsesSocket.constructs (uses : UsesSocket P protocol handle (P.effect · = .none) p) :
    Constructs P.effect handle p := by
  cases uses with
  | mk calls same =>
    exact (Socket.constructs_new protocol).bind fun s =>
      completes_owning (calls s).neutral.secures s.releases_drop (same s)

end Uses

/-- The calls that put a new socket to use. -/
def Call.opens : Call → Bool
  | .setsockopt .. | .bind .. | .listen .. | .connect .. => true
  | _ => false

theorem effect_of_opens (e : Event os) (opens : e.call.opens = true) : P.effect e = .none := by
  obtain ⟨c, r⟩ := e
  cases c <;> first | rfl | cases opens

theorem BtListener.uses_bind (addr : BtAddr) (protocol : BtProtocol) :
    UsesSocket P protocol (·.inner.raw) (·.call.opens = true)
      (BtListener.bind P addr protocol) := by
  refine .mk (fun s => ?_) fun s => ?_
  · refine Emits.run_bind ?_ fun _ => ?_
    · cases P with
      | unix target => exact emits_setsockopt _ _ _ _ fun _ => rfl
      | windows w => exact emits_run_pure _
    · refine Emits.run_bind (emits_sys _ fun _ => rfl) fun r => ?_
      refine Emits.run_bind (emits_check _) fun _ => ?_
      refine Emits.run_bind (emits_sys _ fun _ => rfl) fun r => ?_
      exact Emits.run_bind (emits_check _) fun _ => emits_run_pure _
  · refine yields_bind fun _ => yields_bind fun _ => yields_bind fun _ => ?_
    exact yields_bind fun _ => yields_bind fun _ => yields_pure _ rfl

theorem BtListener.constructs_bind (addr : BtAddr) (protocol : BtProtocol) :
    Constructs P.effect (·.inner.raw) (BtListener.bind P addr protocol) :=
  ((BtListener.uses_bind addr protocol).mono effect_of_opens).constructs

theorem BtStream.uses_connect (addr : BtAddr) (protocol : BtProtocol) :
    UsesSocket P protocol (·.inner.raw) (·.call.opens = true)
      (BtStream.connect P addr protocol) := by
  refine .mk (fun s => ?_) fun s => ?_
  · refine Emits.run_bind (emits_lift (P.emits_cvtR ?_)) fun _ => ?_
    · exact @emits_perform os _ (.connect s.raw _ _) fun _ => rfl
    · exact Emits.run_bind (emits_check _) fun _ => emits_run_pure _
  · exact yields_bind fun _ => yields_bind fun _ => yields_pure _ rfl

theorem BtStream.constructs_connect (addr : BtAddr) (protocol : BtProtocol) :
    Constructs P.effect (·.inner.raw) (BtStream.connect P addr protocol) :=
  ((BtStream.uses_connect addr protocol).mono effect_of_opens).constructs

theorem Socket.quiet_connectTimeout (self : Socket) (pad : UInt8) (addr : BtAddr)
    (timeout : Duration) :
    Emits (self.connectTimeout P pad addr timeout).run (P.effect · = .none) := by
  cases P with
  | unix target =>
    refine (Unix.Socket.emits_connectTimeout self pad addr timeout).mono fun ⟨c, r⟩ call => ?_
    cases call <;> rfl
  | windows w =>
    refine (Windows.Socket.emits_connectTimeout w self addr timeout).mono fun ⟨c, r⟩ call => ?_
    cases call <;> rfl

theorem BtStream.constructs_connectTimeout (pad : UInt8) (addr : BtAddr) (protocol : BtProtocol)
    (timeout : Duration) :
    Constructs P.effect (·.inner.raw) (BtStream.connectTimeout P pad addr protocol timeout) := by
  refine UsesSocket.constructs (.mk (fun s => ?_) fun s => ?_)
  · exact Emits.run_bind (s.quiet_connectTimeout pad addr timeout) fun _ => emits_run_pure _
  · exact yields_bind fun _ => yields_pure _ rfl

end IoBluetooth
