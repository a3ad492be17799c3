import IoBluetooth.Interaction.Custody
import IoBluetooth.Sys.Brief

/-!
# What the crate's functions do with descriptors

Every function keeps to the sockets that it has borrowed and to one descriptor of its own, which
it hands over, closes, or never gets. On a Linux kernel that knows the flags for it, that
descriptor is closed on exec from the moment it exists.
-/
namespace IoBluetooth

open Interaction Memory Rust

variable {P : Platform} {K : Kernel} {A : Event os → Prop} {strict : Bool} {borrowed : List Handle}
  {α : Type} {handle : α → Handle} {sure : Prop}

/-- The monitor of a function that has borrowed the sockets with these descriptors. -/
abbrev Kernel.custody (K : Kernel) (P : Platform) (strict : Bool) (borrowed : List Handle) :
    Monitor os (Own Handle) :=
  Interaction.custody (K.effect P) Call.target strict borrowed

/-- A kernel that knows every flag the crate tries, and that sets them. -/
structure Modern (P : Platform) (K : Kernel) (A : Event os → Prop) : Prop where
  linux : P = .unix .linux
  guards : K.dupfdGuards = true
  socket : ∀ protocol r, A ⟨.socket true protocol, r⟩ → cvt r ≠ .error (.os EINVAL)
  accept4 : ∀ s len r, A ⟨.accept4 s len, r⟩ → cvt r.ret ≠ .error (.os ENOSYS)
  dupfd : ∀ fd r, A ⟨.fcntlDupfdCloexec fd, r⟩ → cvt r ≠ .error (.os EINVAL)
  load : ∀ b, A ⟨.tryCloexecLoad, b⟩ → b = true

/-! ### Rules -/

theorem custody_sys {g : Bool} (c : Call) (result : c.Reply → Except IoError Handle)
    (acquires : ∀ r, K.effect P ⟨c, r⟩ = .ofResult g (result r)) (secure : strict = true → g = true)
    (targets : ∀ h ∈ c.target, h ∈ borrowed) {f : c.Reply → Sys α}
    {Q : Except Exit α → Own Handle → Prop}
    (ok : ∀ r h, A ⟨c, r⟩ → result r = .ok h →
      Obeys A (K.custody P strict borrowed) (some (h, g)) (f r).run Q)
    (error : ∀ r e, A ⟨c, r⟩ → result r = .error e →
      Obeys A (K.custody P strict borrowed) none (f r).run Q) :
    Obeys A (K.custody P strict borrowed) none (sys c >>= f).run Q := by
  refine Obeys.lift_bind (@custody_acquire os _ _ _ A (K.effect P) Call.target strict borrowed g c
    result acquires secure targets) fun r o => ?_
  rintro ⟨allowed, left⟩
  cases outcome : result r with
  | ok h =>
    rw [outcome] at left
    exact left ▸ ok r h allowed outcome
  | error e =>
    rw [outcome] at left
    exact left ▸ error r e allowed outcome

/-- A call that neither gives nor takes a descriptor. -/
theorem custody_after {o : Own Handle} (c : Call) (quiet : ∀ r, K.effect P ⟨c, r⟩ = .none)
    (targets : ∀ h ∈ c.target, h ∈ borrowed) {f : c.Reply → Sys α}
    {Q : Except Exit α → Own Handle → Prop}
    (rest : ∀ r, A ⟨c, r⟩ → Obeys A (K.custody P strict borrowed) o (f r).run Q) :
    Obeys A (K.custody P strict borrowed) o (sys c >>= f).run Q := by
  refine Obeys.lift_bind (R := fun r n => n = o ∧ A ⟨c, r⟩)
    (@obeys_perform os _ _ _ _ c _ fun r allowed => ⟨o, ?_, rfl, allowed⟩) ?_
  · refine (custody_eq_some _ _).mpr ⟨fun h member => Or.inl (targets h member), ?_⟩
    rw [quiet r]
    exact .none o
  · rintro r _ ⟨rfl, allowed⟩
    exact rest r allowed

/-- A descriptor from a call goes to what follows the `?`. -/
theorem custody_checked {g : Bool} (c : Call) (result : c.Reply → Except IoError Handle)
    (acquires : ∀ r, K.effect P ⟨c, r⟩ = .ofResult g (result r)) (secure : strict = true → g = true)
    (targets : ∀ h ∈ c.target, h ∈ borrowed) {f : c.Reply → Handle → Sys α}
    (owned : ∀ r h, Obeys A (K.custody P strict borrowed) (some (h, g)) (f r h).run
      (Makes sure handle)) :
    Obeys A (K.custody P strict borrowed) none (sys c >>= fun r => check (result r) >>= f r).run
      (Makes sure handle) := by
  refine custody_sys c result acquires secure targets ?_ ?_
  · intro r h _ outcome
    rw [outcome]
    exact owned r h
  · intro r e _ outcome
    rw [outcome]
    exact custody_throw (Exit.err e)

/-- A call that sets the guard of the descriptor, and whose return value is only checked. -/
theorem custody_guarding {β : Type} {h : Handle} {g : Bool} (c : Call)
    (result : c.Reply → Except IoError β) (target : c.target = some h)
    (guards : Guards (K.effect P) h c result) :
    Obeys A (K.custody P strict borrowed) (some (h, g))
      (do let r ← sys c; let _ ← check (result r); pure () : Sys Unit).run fun x o =>
        ∃ g', o = some (h, g') ∧ (x = .ok () → g' = true) := by
  have mine : ∀ h' ∈ c.target, h' ∈ borrowed ∨ h' ∈ (some (h, g)).map Prod.fst := by
    rw [target]
    rintro h' ⟨⟩
    exact Or.inr rfl
  refine Obeys.lift_bind (R := fun r o => (∀ b, result r = .ok b → o = some (h, true)) ∧
    ∀ e, result r = .error e → o = some (h, g)) (@obeys_perform os _ _ _ _ c _ fun r _ => ?_)
    fun r o left => ?_
  · cases outcome : result r with
    | ok b =>
      have done := guards.ok r b outcome
      exact ⟨_, (custody_eq_some _ _).mpr ⟨mine, done ▸ .guard h g⟩, fun _ _ => rfl, nofun⟩
    | error e =>
      have done := guards.error r e outcome
      exact ⟨_, (custody_eq_some _ _).mpr ⟨mine, done ▸ .none _⟩, nofun, fun _ _ => rfl⟩
  · cases outcome : result r with
    | ok b => exact obeys_run_pure () ⟨true, left.1 b outcome, fun _ => rfl⟩
    | error e => exact obeys_run_throw _ ⟨g, left.2 e outcome, nofun⟩

theorem Works.effect {h : Handle} {e : Event os} (works : Works h e) : K.effect P e = .none := by
  obtain ⟨c, r⟩ := e
  cases c <;> first | rfl | cases works

theorem Works.target {h : Handle} {e : Event os} (works : Works h e) :
    ∀ h' ∈ e.call.target, h' = h := by
  obtain ⟨c, r⟩ := e
  rintro h' member
  cases c <;> first
    | exact (Option.some.inj member).symm.trans (eq_of_beq works)
    | (cases works; done)
    | cases member

theorem Works.obeys_borrowed {h : Handle} {p : Sys α} (works : Emits p.run (Works h))
    (member : h ∈ borrowed) (o : Own Handle) :
    Obeys A (K.custody P strict borrowed) o p.run fun _ n => n = o := by
  refine Emits.custody (works.mono fun e on => ⟨on.effect, fun h' target => Or.inl ?_⟩)
  exact on.target h' target ▸ member

theorem Works.obeys_own {h : Handle} {g : Bool} {p : Sys α} (works : Emits p.run (Works h)) :
    Obeys A (K.custody P strict borrowed) (some (h, g)) p.run fun _ n => n = some (h, g) := by
  refine Emits.custody (works.mono fun e on => ⟨on.effect, fun h' target => Or.inr ?_⟩)
  rw [on.target h' target]
  rfl

/-- Work with a socket of one's own leaves it as it was. -/
theorem custody_work {h : Handle} {g : Bool} {body : Sys α} (works : Emits body.run (Works h))
    (same : Yields body (handle · = h)) (safe : sure → g = true) :
    Obeys A (K.custody P strict borrowed) (some (h, g)) body.run fun r o =>
      ∃ g', o = some (h, g') ∧ ∀ a, r = .ok a → handle a = h ∧ (sure → g' = true) := by
  have kept := @Works.obeys_own P K A strict borrowed α h g body works
  refine ⟨kept.accepts, fun t r run allowed => ?_⟩
  obtain ⟨n, read, rfl⟩ := kept.ends t r run allowed
  refine ⟨_, read, g, rfl, ?_⟩
  rintro a rfl
  exact ⟨same t a run, safe⟩

theorem Socket.custody_drop (self : Socket) (g : Bool) :
    Obeys A (K.custody P strict borrowed) (some (self.raw, g)) (self.drop P) fun _ o => o = none := by
  cases P with
  | unix target =>
    refine Obeys.bind (@custody_release os _ _ _ _ _ _ _ _ _ (.close self.raw) (fun _ => rfl) ?_)
      fun _ o left => obeys_pure _ left
    rintro h ⟨⟩
    rfl
  | windows w =>
    refine Obeys.bind (@custody_release os _ _ _ _ _ _ _ _ _ (.closesocket self.raw)
      (fun _ => rfl) ?_) fun _ o left => obeys_pure _ left
    rintro h ⟨⟩
    rfl

/-! ### Unix -/

theorem IoError.rawOsError_eq_some (e : IoError) (code : Int) :
    e.rawOsError = some code ↔ e = .os code := by
  cases e with
  | os c => simp [rawOsError]
  | custom kind message => simp [rawOsError]

namespace Unix

variable {target : Target}

/-- The rule for `cvt_r`: an attempt that was interrupted leaves the monitor and what was captured
fit for another. -/
theorem obeys_cvtR {σ M : Type} {δ : Monitor os M} {m : M} {f : σ → Prog os (Ret × σ)}
    {Q : Except IoError Int → σ → M → Prop} (fit : σ → M → Prop)
    (attempt : ∀ s m, fit s m → Obeys A δ m (f s) fun x n => Q (cvt x.1) x.2 n)
    (back : ∀ e s n, Q (.error e) s n → e.unixKind = .interrupted → fit s n) (s : σ)
    (start : fit s m) : Obeys A δ m (cvtR f s) fun x n => Q x.1 x.2 n := by
  refine obeys_loop fit (fun s m fits => ?_) s start
  refine (attempt s m fits).bind fun x n holds => ?_
  obtain ⟨ret, s'⟩ := x
  dsimp only at holds ⊢
  cases outcome : cvt ret with
  | ok fd =>
    rw [outcome] at holds
    exact obeys_pure _ holds
  | error e =>
    rw [outcome] at holds
    dsimp only
    split
    · next interrupted => exact obeys_pure _ (back e s' n holds interrupted)
    · exact obeys_pure _ holds

/-- Asking for the flags tells whether the descriptor is guarded already. -/
theorem FileDesc.custody_fcntlGetfd (fd : Handle) (g : Bool) :
    Obeys A (K.custody (.unix target) strict borrowed) (some (fd, g))
      (@Prog.perform os (.fcntlGetfd fd)) fun r o => ∃ g', o = some (fd, g') ∧
        ∀ n, cvt r = .ok n → FileDesc.withCloexec n = n → g' = true := by
  refine @obeys_perform os _ _ _ _ (.fcntlGetfd fd) _ fun r _ => ?_
  have mine : ∀ h ∈ (Call.fcntlGetfd fd).target, h ∈ borrowed ∨ h ∈ (some (fd, g)).map Prod.fst := by
    rintro h ⟨⟩
    exact Or.inr rfl
  cases outcome : cvt r with
  | error e =>
    have quiet : K.effect (.unix target) ⟨.fcntlGetfd fd, r⟩ = .none :=
      if_pos ((cvt_eq_error_iff r e).mp outcome).1
    exact ⟨_, (custody_eq_some _ _).mpr ⟨mine, quiet ▸ .none _⟩, g, rfl, nofun⟩
  | ok n =>
    have effect : K.effect (.unix target) ⟨.fcntlGetfd fd, r⟩ = _ :=
      effect_fcntlGetfd (.unix target) fd outcome
    by_cases set : FileDesc.withCloexec n = n
    · rw [if_pos set] at effect
      exact ⟨_, (custody_eq_some _ _).mpr ⟨mine, effect ▸ .guard fd g⟩, true, rfl, fun _ _ _ => rfl⟩
    · rw [if_neg set] at effect
      refine ⟨_, (custody_eq_some _ _).mpr ⟨mine, effect ▸ .none _⟩, g, rfl, ?_⟩
      rintro _ ⟨⟩ same
      exact absurd same set

theorem FileDesc.custody_setCloexec (fd : Handle) (g : Bool) :
    Obeys A (K.custody (.unix target) strict borrowed) (some (fd, g))
      (FileDesc.setCloexec target ⟨fd⟩).run
      fun x o => ∃ g', o = some (fd, g') ∧ (x = .ok () → g' = true) := by
  unfold FileDesc.setCloexec
  split
  · have guards := guards_ioctlFioclex (.unix target) fd
    exact custody_guarding (.ioctlFioclex fd) cvt rfl ⟨guards.ok, guards.error⟩
  · refine Obeys.lift_bind (FileDesc.custody_fcntlGetfd fd g) ?_
    rintro r _ ⟨g', rfl, known⟩
    cases outcome : cvt r with
    | error e => exact obeys_run_throw _ ⟨g', rfl, nofun⟩
    | ok n =>
      change Obeys _ _ _ (if FileDesc.withCloexec n = n then pure () else _ : Sys Unit).run _
      by_cases set : FileDesc.withCloexec n = n
      · rw [if_pos set]
        exact obeys_run_pure () ⟨g', rfl, fun _ => known n outcome set⟩
      · rw [if_neg set]
        have guards := guards_fcntlSetfd (.unix target) fd n
        exact custody_guarding (.fcntlSetfd fd (FileDesc.withCloexec n)) cvt rfl
          ⟨guards.ok, guards.error⟩

/-- A descriptor is closed again where the flag cannot be set. -/
theorem custody_closing (fd : Handle) (g : Bool) {rest : Sys α}
    (works : Emits rest.run (Works fd)) (same : Yields rest (handle · = fd)) :
    Obeys A (K.custody (.unix target) strict borrowed) (some (fd, g))
      (owning (FileDesc.drop ⟨fd⟩) (FileDesc.setCloexec target ⟨fd⟩ >>= fun _ => rest)).run
      (Makes sure handle) := by
  refine custody_owning ?_ (IoBluetooth.Socket.custody_drop ⟨fd⟩)
  refine Obeys.run_bind (FileDesc.custody_setCloexec fd g) ?_ ?_
  · rintro _ _ ⟨g', rfl, set⟩
    cases set rfl
    exact custody_work works same fun _ => rfl
  · rintro e _ ⟨g', rfl, _⟩
    exact ⟨g', rfl, nofun⟩

theorem Socket.custody_newFallback (lax : strict = false) (protocol : BtProtocol) :
    Obeys A (K.custody (.unix target) strict borrowed) none
      (Socket.newFallback target protocol).run (Makes sure Socket.raw) := by
  refine custody_checked (.socket false _) cvt (fun _ => rfl) (by simp [lax]) (by simp [Call.target])
    fun _ fd => custody_closing fd false ?_ (yields_bind fun _ => yields_pure _ rfl)
  refine Emits.run_bind ?_ fun _ => emits_run_pure _
  unfold Socket.setNosigpipe
  split
  · exact emits_setsockopt _ _ _ _ fun _ => beq_self_eq_true fd
  · exact emits_run_pure _

theorem Socket.custody_new (modern : strict = true → Modern (.unix target) K A)
    (protocol : BtProtocol) :
    Obeys A (K.custody (.unix target) strict borrowed) none
      (Socket.new target protocol).run (Makes sure Socket.raw) := by
  unfold Socket.new
  split
  · refine custody_sys (.socket true _) cvt (fun _ => rfl) (fun _ => rfl) (by simp [Call.target])
      (fun r fd _ outcome => ?_) fun r e allowed outcome => ?_
    · rw [outcome]
      exact obeys_run_pure _ ⟨true, rfl, fun _ => rfl⟩
    · rw [outcome]
      dsimp only
      split
      · next unknown =>
        -- the kernel does not know `SOCK_CLOEXEC`
        rw [IoError.rawOsError_eq_some] at unknown
        refine Socket.custody_newFallback (Bool.eq_false_iff.mpr fun strict => ?_) protocol
        exact (modern strict).socket _ r allowed (unknown ▸ outcome)
      · exact custody_throw (Exit.err e)
  · next other =>
    refine Socket.custody_newFallback (Bool.eq_false_iff.mpr fun strict => other ?_) protocol
    exact Platform.unix.inj (modern strict).linux

/-- What an attempt to accept leaves: the new descriptor, or nothing. -/
def Accepted (strict g : Bool) (res : Except IoError Int) (o : Own Handle) : Prop :=
  (strict = true → res ≠ .error (.os ENOSYS)) ∧ Acquired g res o

theorem custody_accepted {g : Bool} {call : Nat → Prog os AddrReply}
    (accepts : ∀ len, Obeys A (K.custody (.unix target) strict borrowed) none (call len)
      fun r n => Accepted strict g (cvt r.ret) n)
    (s : Block sizeofSockaddrRc × Nat) :
    Obeys A (K.custody (.unix target) strict borrowed) none (cvtR (Socket.acceptInto call) s)
      fun x n => Accepted strict g x.1 n := by
  refine obeys_cvtR (Q := fun res _ n => Accepted strict g res n) (fun _ n => n = none) ?_ ?_ s rfl
  · rintro s _ rfl
    exact (accepts s.2).bind fun r n left => obeys_pure _ left
  · rintro e s n ⟨_, left⟩ _
    exact left

theorem Socket.custody_acceptFallback (self : IoBluetooth.Socket) (member : self.raw ∈ borrowed)
    (lax : strict = false) (s : Block sizeofSockaddrRc × Nat) :
    Obeys A (K.custody (.unix target) strict borrowed) none
      (Socket.acceptFallback target self s).run (Makes sure (·.1.raw)) := by
  have accepts (len : Nat) : Obeys A (K.custody (.unix target) strict borrowed) none
      (@Prog.perform os (.accept self.raw len)) fun r n => Accepted strict false (cvt r.ret) n := by
    refine (@custody_acquire os _ _ _ _ _ _ _ _ false (.accept self.raw len) (fun r => cvt r.ret)
      (fun _ => rfl) (by simp [lax]) ?_).mono fun r n left => ⟨by simp [lax], left.2⟩
    rintro h ⟨⟩
    exact member
  refine (custody_accepted accepts s).lift_bind ?_
  rintro ⟨res, addr, len⟩ n ⟨_, left⟩
  cases res with
  | ok fd =>
    cases left
    exact custody_closing fd false (emits_run_pure _) (yields_pure _ rfl)
  | error e =>
    cases left
    exact custody_throw (Exit.err e)

theorem Socket.custody_accept (modern : strict = true → Modern (.unix target) K A)
    (self : IoBluetooth.Socket) (member : self.raw ∈ borrowed) :
    Obeys A (K.custody (.unix target) strict borrowed) none
      (Socket.accept target self).run (Makes sure (·.1.raw)) := by
  unfold Socket.accept
  split
  · have accepts (len : Nat) : Obeys A (K.custody (.unix target) strict borrowed) none
        (@Prog.perform os (.accept4 self.raw len)) fun r n => Accepted strict true (cvt r.ret) n := by
      refine (@custody_acquire os _ _ _ _ _ _ _ _ true (.accept4 self.raw len) (fun r => cvt r.ret)
        (fun _ => rfl) (fun _ => rfl) ?_).mono
        fun r n left => ⟨fun strict => (modern strict).accept4 _ _ r left.1, left.2⟩
      rintro h ⟨⟩
      exact member
    refine (custody_accepted accepts _).lift_bind ?_
    rintro ⟨res, s⟩ n ⟨known, left⟩
    cases res with
    | ok fd =>
      cases left
      exact obeys_run_pure _ ⟨true, rfl, fun _ => rfl⟩
    | error e =>
      cases left
      dsimp only
      split
      · next unknown =>
        -- the kernel does not know `accept4`
        rw [IoError.rawOsError_eq_some] at unknown
        refine Socket.custody_acceptFallback self member (Bool.eq_false_iff.mpr fun strict => ?_) s
        exact known strict (congrArg Except.error unknown)
      · exact custody_throw (Exit.err e)
  · next other =>
    refine Socket.custody_acceptFallback self member
      (Bool.eq_false_iff.mpr fun strict => other ?_) _
    exact Platform.unix.inj (modern strict).linux

theorem FileDesc.custody_makeFiledesc (fd : Handle) (g : Bool) :
    Obeys A (K.custody (.unix target) strict borrowed) (some (fd, g))
      (FileDesc.makeFiledesc target fd).run (Makes sure FileDesc.fd) :=
  custody_closing fd g (emits_run_pure _) (yields_pure _ rfl)

theorem FileDesc.custody_duplicateFallback (self : FileDesc) (member : self.fd ∈ borrowed)
    (lax : strict = false) :
    Obeys A (K.custody (.unix target) strict borrowed) none
      (FileDesc.duplicateFallback target self).run (Makes sure FileDesc.fd) := by
  refine custody_checked (.fcntlDupfd self.fd) cvt (fun _ => rfl) (by simp [lax]) ?_ fun _ fd =>
    FileDesc.custody_makeFiledesc fd false
  rintro h ⟨⟩
  exact member

theorem FileDesc.custody_fcntlDupfdCloexec (modern : strict = true → Modern (.unix target) K A)
    (fd : Handle) (member : fd ∈ borrowed) :
    Obeys A (K.custody (.unix target) strict borrowed) none
      (FileDesc.fcntlDupfdCloexec target fd).run fun x n =>
        ∃ r g, x = .ok r ∧ Acquired g (cvt r) n ∧
          (strict = true → cvt r ≠ .error (.os EINVAL)) := by
  have targets : ∀ h ∈ some fd, h ∈ borrowed := by
    rintro h ⟨⟩
    exact member
  unfold FileDesc.fcntlDupfdCloexec
  split
  · next other =>
    have lax : strict = false := by
      refine Bool.eq_false_iff.mpr fun strict => ?_
      cases (Platform.unix.inj (modern strict).linux)
      revert other
      decide
    refine obeys_lift ((@custody_acquire os _ _ _ _ _ _ _ _ false (.fcntlDupfd fd) cvt
      (fun _ => rfl) (by simp [lax]) targets).mono fun r n left => ?_)
    exact ⟨r, false, rfl, left.2, by simp [lax]⟩
  · refine obeys_lift ((@custody_acquire os _ _ _ _ _ _ _ _ K.dupfdGuards (.fcntlDupfdCloexec fd)
      cvt (fun _ => rfl) (fun strict => (modern strict).guards) targets).mono fun r n left => ?_)
    exact ⟨r, _, rfl, left.2, fun strict => (modern strict).dupfd _ _ left.1⟩

/-- Only on Linux is the flag set where `F_DUPFD_CLOEXEC` may not have set it. -/
theorem FileDesc.custody_duplicate (modern : strict = true → Modern (.unix target) K A)
    (covered : sure → target = .linux) (self : FileDesc) (member : self.fd ∈ borrowed) :
    Obeys A (K.custody (.unix target) strict borrowed) none (FileDesc.duplicate target self).run
      (Makes sure FileDesc.fd) := by
  refine custody_after .tryCloexecLoad (fun _ => rfl) (by simp [Call.target])
    fun tryCloexec allowed => ?_
  split
  · refine (FileDesc.custody_fcntlDupfdCloexec modern self.fd member).run_bind ?_ ?_
    · rintro r n ⟨_, g, ⟨⟩, left, known⟩
      cases outcome : cvt r with
      | ok fd =>
        rw [outcome] at left
        cases left
        dsimp only
        split
        · exact FileDesc.custody_makeFiledesc fd g
        · next other => exact obeys_run_pure _ ⟨g, rfl, fun all => absurd (covered all) other⟩
      | error e =>
        rw [outcome] at left
        cases left
        dsimp only
        split
        · next unknown =>
          -- the kernel does not know `F_DUPFD_CLOEXEC`
          rw [IoError.rawOsError_eq_some] at unknown
          have lax : strict = false := Bool.eq_false_iff.mpr fun strict =>
            known strict (unknown ▸ outcome)
          exact custody_after (.tryCloexecStore false) (fun _ => rfl) (by simp [Call.target])
            fun _ _ => FileDesc.custody_duplicateFallback self member lax
        · exact custody_throw (Exit.err e)
    · rintro e n ⟨_, g, ⟨⟩, _⟩
  · next cleared =>
    refine FileDesc.custody_duplicateFallback self member (Bool.eq_false_iff.mpr fun strict => ?_)
    exact cleared ((modern strict).load _ allowed)

theorem Socket.custody_duplicate (modern : strict = true → Modern (.unix target) K A)
    (covered : sure → target = .linux) (self : IoBluetooth.Socket)
    (member : self.raw ∈ borrowed) :
    Obeys A (K.custody (.unix target) strict borrowed) none (Socket.duplicate target self).run
      (Makes sure Socket.raw) := by
  refine (FileDesc.custody_duplicate modern covered ⟨self.raw⟩ member).run_bind ?_ ?_
  · rintro fd _ ⟨g, rfl, safe⟩
    exact obeys_run_pure _ ⟨g, rfl, safe⟩
  · rintro e n left
    exact left

end Unix

/-! ### Windows -/

namespace Windows

variable {w : Bthdef}

theorem Socket.custody_setNoInherit (s : Handle) (g : Bool) :
    Obeys A (K.custody (.windows w) strict borrowed) (some (s, g)) (Socket.setNoInherit ⟨s⟩).run
      fun x o => ∃ g', o = some (s, g') ∧ (x = .ok () → g' = true) := by
  have guards := guards_setHandleInformation w s
  exact custody_guarding (.setHandleInformation s) sysCvt rfl ⟨guards.ok, guards.error⟩

theorem Socket.custody_withNoInherit (s : Handle) :
    Obeys A (K.custody (.windows w) strict borrowed) (some (s, false)) (Socket.withNoInherit s).run
      (Makes sure Socket.raw) := by
  refine custody_owning ?_ (@IoBluetooth.Socket.custody_drop (.windows w) K A strict borrowed ⟨s⟩)
  refine Obeys.run_bind (Socket.custody_setNoInherit s false) ?_ ?_
  · rintro _ _ ⟨g', rfl, set⟩
    refine obeys_run_pure _ ⟨g', rfl, ?_⟩
    rintro _ ⟨⟩
    exact ⟨rfl, fun _ => set rfl⟩
  · rintro e _ ⟨g', rfl, _⟩
    exact ⟨g', rfl, nofun⟩

theorem lax (modern : strict = true → Modern (.windows w) K A) : strict = false :=
  Bool.eq_false_iff.mpr fun strict => nomatch (modern strict).linux

variable (modern : strict = true → Modern (.windows w) K A)
include modern

theorem Socket.custody_new (protocol : BtProtocol) :
    Obeys A (K.custody (.windows w) strict borrowed) none (Socket.new protocol).run
      (Makes sure Socket.raw) := by
  refine custody_after .winsockInit (fun _ => rfl) (by simp [Call.target]) fun _ _ => ?_
  cases protocol with
  | l2cap => exact custody_throw _
  | rfcomm =>
    exact custody_checked (.wsaSocketW _) checkSocket (fun _ => rfl) (by simp [lax modern])
      (by simp [Call.target]) fun _ s => Socket.custody_withNoInherit s

theorem Socket.custody_accept (self : IoBluetooth.Socket) (member : self.raw ∈ borrowed) :
    Obeys A (K.custody (.windows w) strict borrowed) none (Socket.accept w self).run
      (Makes sure (·.1.raw)) := by
  refine custody_checked (.accept self.raw _) (fun r => checkSocket r.ret) (fun _ => rfl)
    (by simp [lax modern]) ?_ fun reply s => ?_
  · rintro h ⟨⟩
    exact member
  · refine (Socket.custody_withNoInherit s).run_bind (R := Makes sure Socket.raw) ?_ ?_
    · rintro socket _ ⟨g, rfl, safe⟩
      exact obeys_run_pure _ ⟨g, rfl, safe⟩
    · rintro e n left
      exact left

theorem Socket.custody_duplicate (self : IoBluetooth.Socket) (member : self.raw ∈ borrowed) :
    Obeys A (K.custody (.windows w) strict borrowed) none (Socket.duplicate self).run
      (Makes sure Socket.raw) := by
  refine custody_after (.wsaDuplicateSocketW self.raw) (fun _ => rfl) ?_ fun reply _ => ?_
  · rintro h ⟨⟩
    exact member
  · cases outcome : cvt reply.ret with
    | ok _ =>
      exact custody_checked (.wsaSocketW _) checkSocket (fun _ => rfl) (by simp [lax modern])
        (by simp [Call.target]) fun _ s => Socket.custody_withNoInherit s
    | error e => exact custody_throw _

end Windows

/-! ### Working with a socket -/

/-- A call on the socket, whose return value is only checked. -/
theorem works_checked {h : Handle} (c : Call) (on : c.works h = true) {β : Type}
    (result : c.Reply → Except IoError β) {f : c.Reply → β → Sys α}
    (rest : ∀ r b, Emits (f r b).run (Works h)) :
    Emits (sys c >>= fun r => check (result r) >>= f r).run (Works h) :=
  Emits.run_bind (emits_sys c fun _ => on) fun r => Emits.run_bind (emits_check _) (rest r)

theorem Socket.works_connectTimeout (self : Socket) (pad : UInt8) (addr : BtAddr) (timeout : Duration) :
    Emits (self.connectTimeout P pad addr timeout).run (Works self.raw) := by
  cases P with
  | unix target =>
    refine (Unix.Socket.emits_connectTimeout self pad addr timeout).mono fun ⟨c, r⟩ call => ?_
    cases call with
    | start | elapsed => rfl
    | mode | connect | poll | error =>
      exact beq_self_eq_true self.raw
  | windows w =>
    refine (Windows.Socket.emits_connectTimeout w self addr timeout).mono fun ⟨c, r⟩ call => ?_
    cases call with
    | mode | connect | select | error =>
      exact beq_self_eq_true self.raw

theorem StreamFn.works (self : BtStream) (f : StreamFn) :
    Emits (f.program P self).run (Works self.inner.raw) :=
  (f.brief self).emits

theorem ListenerFn.works (self : BtListener) (f : ListenerFn) :
    Emits (f.program P self).run (Works self.inner.raw) :=
  (f.brief self).emits

/-! ### Both platforms -/

section Sockets

variable (modern : strict = true → Modern P K A)
include modern

theorem Socket.custody_new (protocol : BtProtocol) :
    Obeys A (K.custody P strict borrowed) none (Socket.new P protocol).run
      (Makes sure Socket.raw) := by
  cases P with
  | unix target => exact Unix.Socket.custody_new modern protocol
  | windows w => exact Windows.Socket.custody_new modern protocol

theorem Socket.custody_accept (self : Socket) (member : self.raw ∈ borrowed) :
    Obeys A (K.custody P strict borrowed) none (self.accept P).run (Makes sure (·.1.raw)) := by
  cases P with
  | unix target => exact Unix.Socket.custody_accept modern self member
  | windows w => exact Windows.Socket.custody_accept modern self member

theorem Socket.custody_duplicate (self : Socket) (member : self.raw ∈ borrowed) :
    Obeys A (K.custody P strict borrowed) none (self.duplicate P).run
      (Makes P.Covered Socket.raw) := by
  cases P with
  | unix target =>
    refine Unix.Socket.custody_duplicate modern (fun covered => ?_) self member
    cases covered
    rfl
  | windows w => exact Windows.Socket.custody_duplicate modern self member

/-- A new socket is worked with, and closed again where the work fails. -/
theorem custody_working {protocol : BtProtocol} {body : Socket → Sys α}
    (works : ∀ s, Emits (body s).run (Works s.raw))
    (same : ∀ s, Yields (body s) (handle · = s.raw)) :
    Obeys A (K.custody P strict borrowed) none
      (Socket.new P protocol >>= fun s => owning (s.drop P) (body s)).run (Makes sure handle) := by
  refine Obeys.run_bind (R := Makes sure Socket.raw) (Socket.custody_new modern protocol) ?_
    fun e n left => left
  rintro s _ ⟨g, rfl, safe⟩
  refine custody_owning ?_ s.custody_drop
  exact custody_work (works s) (same s) safe

theorem BtListener.custody_bind (addr : BtAddr) (protocol : BtProtocol) :
    Obeys A (K.custody P strict borrowed) none (BtListener.bind P addr protocol).run
      (Makes sure (·.inner.raw)) := by
  refine custody_working modern (fun s => ?_) fun s => ?_
  · refine Emits.run_bind ?_ fun _ => ?_
    · cases P with
      | unix target =>
        exact emits_setsockopt _ _ _ _ fun _ => beq_self_eq_true _
      | windows w => exact emits_run_pure _
    · refine works_checked (.bind s.raw _ _) (beq_self_eq_true _) cvt fun _ _ => ?_
      exact works_checked (.listen s.raw 128) (beq_self_eq_true _) cvt fun _ _ => emits_run_pure _
  · refine yields_bind fun _ => yields_bind fun _ => yields_bind fun _ => ?_
    exact yields_bind fun _ => yields_bind fun _ => yields_pure _ rfl

theorem BtStream.custody_connect (addr : BtAddr) (protocol : BtProtocol) :
    Obeys A (K.custody P strict borrowed) none (BtStream.connect P addr protocol).run
      (Makes sure (·.inner.raw)) := by
  refine custody_working modern (fun s => ?_) fun s => ?_
  · refine Emits.run_bind (emits_lift (P.emits_cvtR ?_)) fun _ => ?_
    · exact @emits_perform os _ (.connect s.raw _ _) fun _ =>
        beq_self_eq_true s.raw
    · exact Emits.run_bind (emits_check _) fun _ => emits_run_pure _
  · exact yields_bind fun _ => yields_bind fun _ => yields_pure _ rfl

theorem BtStream.custody_connectTimeout (pad : UInt8) (addr : BtAddr) (protocol : BtProtocol)
    (timeout : Duration) :
    Obeys A (K.custody P strict borrowed) none
      (BtStream.connectTimeout P pad addr protocol timeout).run (Makes sure (·.inner.raw)) := by
  refine custody_working modern (fun s => ?_) fun s => ?_
  · exact Emits.run_bind (s.works_connectTimeout pad addr timeout) fun _ => emits_run_pure _
  · exact yields_bind fun _ => yields_pure _ rfl

end Sockets

/-! ### Requests -/

/-- The rule for `each_addr`: an attempt that failed leaves the monitor fit for another. -/
theorem obeys_eachAddr {T M : Type} {δ : Monitor os M} {m : M} {f : BtAddr → Sys T}
    {Q : Except Exit T → M → Prop} (fit : M → Prop)
    (draw : ∀ m r, fit m → δ m ⟨.next, r⟩ = some m)
    (attempt : ∀ addr m, fit m → Obeys A δ m (f addr).run Q)
    (back : ∀ e n, Q (.error e) n → fit n) (last : ∀ e n, fit n → Q (.error e) n)
    (start : fit m) : Obeys A δ m (Bt.eachAddr (Bt.attempt f) ()).run Q := by
  refine obeys_repeating (fun _ m => fit m) ?_ _ start
  rintro ⟨lastErr, _⟩ m fits
  refine Obeys.lift_bind (R := fun _ n => n = m)
    (@obeys_perform os _ _ _ _ .next _ fun r _ => ⟨m, draw m r fits, rfl⟩) ?_
  rintro addr _ rfl
  cases addr with
  | none => exact obeys_run_throw _ (last _ _ fits)
  | some addr =>
    refine Obeys.lift_bind (R := fun x n => Q x.1 n) (Obeys.map _ (attempt addr _ fits)) ?_
    rintro ⟨res, _⟩ n holds
    match res with
    | .ok l => exact obeys_run_pure _ holds
    | .error (.err e) => exact obeys_run_pure _ (back _ n holds)
    | .error (.panic message) => exact obeys_run_throw _ holds

theorem custody_eachAddr {T : Type} {f : BtAddr → Sys T} {handle : T → Handle}
    (made : ∀ addr, Obeys A (K.custody P strict borrowed) none (f addr).run (Makes sure handle)) :
    Obeys A (K.custody P strict borrowed) none (Bt.eachAddr (Bt.attempt f) ()).run
      (Makes sure handle) := by
  refine obeys_eachAddr (· = none) ?_ ?_ (fun _ _ left => left) (fun _ _ left => left) rfl
  · rintro _ r rfl
    exact (custody_eq_some _ _).mpr ⟨nofun, .none none⟩
  · rintro addr _ rfl
    exact made addr

/-- What a request leaves: the descriptor of the socket in its result. -/
def Leaves (sure : Prop) (r : Except Exit (Option Socket)) (o : Own Handle) : Prop :=
  match r with
  | .ok (some socket) => ∃ g, o = some (socket.raw, g) ∧ (sure → g = true)
  | _ => o = none

theorem leaves_some {p : Sys α} {o : Own Handle} {socket : α → Socket}
    (made : Obeys A (K.custody P strict borrowed) o p.run (Makes sure fun a => (socket a).raw)) :
    Obeys A (K.custody P strict borrowed) o (do let a ← p; pure (some (socket a))).run
      (Leaves sure) := by
  refine made.run_bind ?_ fun e n left => left
  rintro a _ ⟨g, rfl, safe⟩
  exact obeys_run_pure _ ⟨g, rfl, safe⟩

theorem leaves_none {h : Handle} {p : Sys Unit} (works : Emits p.run (Works h)) :
    Obeys A (K.custody P strict [h]) none (do p; pure none : Sys (Option Socket)).run
      (Leaves sure) := by
  refine (Works.obeys_borrowed works List.mem_cons_self none).run_bind ?_ fun e n left => left
  rintro _ _ rfl
  exact obeys_run_pure _ rfl

theorem Operation.custody (modern : strict = true → Modern P K A) (op : Operation) :
    Obeys A (K.custody P strict (op.borrows.map Socket.raw)) none (op.program P).run
      (Makes P.Covered Socket.raw) := by
  cases op with
  | new protocol => exact Socket.custody_new modern protocol
  | accept self =>
    exact custody_bind_pure (Socket.custody_accept modern self List.mem_cons_self) _ fun _ => rfl
  | duplicate self => exact Socket.custody_duplicate modern self List.mem_cons_self
  | bind addr protocol =>
    exact custody_bind_pure (BtListener.custody_bind modern addr protocol) _ fun _ => rfl
  | connect addr protocol =>
    exact custody_bind_pure (BtStream.custody_connect modern addr protocol) _ fun _ => rfl
  | connectTimeout pad addr protocol timeout =>
    exact custody_bind_pure (BtStream.custody_connectTimeout modern pad addr protocol timeout) _
      fun _ => rfl

/-- Every request keeps to what it has borrowed and to one descriptor of its own. -/
theorem Request.custody (modern : strict = true → Modern P K A) (q : Request) :
    Obeys A (K.custody P strict (q.borrows.map Socket.raw))
      (q.moves.map fun socket => (socket.raw, false)) (q.program P).run (Leaves P.Covered) := by
  cases q with
  | make op => exact leaves_some (op.custody modern)
  | bind protocol =>
    refine @leaves_some _ _ _ _ _ _ _ _ _ (fun l : Bt.BtListener => l.imp.inner) ?_
    rw [Bt.BtListener.bind, ← bind_pure_comp]
    exact custody_bind_pure (custody_eachAddr fun addr =>
      BtListener.custody_bind modern addr protocol) _ fun _ => rfl
  | connect protocol =>
    refine @leaves_some _ _ _ _ _ _ _ _ _ (fun s : Bt.BtStream => s.imp.inner) ?_
    rw [Bt.BtStream.connect, ← bind_pure_comp]
    exact custody_bind_pure (custody_eachAddr fun addr =>
      BtStream.custody_connect modern addr protocol) _ fun _ => rfl
  | stream self f => exact leaves_none (f.works self)
  | listener self f => exact leaves_none (f.works self)
  | drop self =>
    refine (self.custody_drop false).lift_bind ?_
    rintro _ _ rfl
    exact obeys_run_pure _ rfl

end IoBluetooth
