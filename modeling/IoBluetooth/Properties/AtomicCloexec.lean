import IoBluetooth.Sys.TryCloexec

/-!
# Descriptors are never without close-on-exec

On a Linux kernel that knows the flags for it, every descriptor of a socket of the crate is closed
on exec from the moment it exists. Another thread may `exec` between any two calls of any of the
others, and its new program gets none of them. What discovery opens is another matter.
-/
namespace IoBluetooth

open Interaction Memory

variable {ι : Type} {K : Kernel}

/-- A kernel that knows `SOCK_CLOEXEC`, `accept4` and `F_DUPFD_CLOEXEC`. -/
structure Kernel.Knows (K : Kernel) : Prop where
  guards : K.dupfdGuards = true
  socket : ∀ protocol r, K.replies ⟨.socket true protocol, r⟩ → ¬Refused r
  accept4 : ∀ s len r, K.replies ⟨.accept4 s len, r⟩ → ¬(r.ret.value = -1 ∧ r.ret.errno = ENOSYS)
  dupfd : ∀ fd r, K.replies ⟨.fcntlDupfdCloexec fd, r⟩ → ¬Refused r

/-- What such a kernel gives while `TRY_CLOEXEC` is set. -/
private def Given (K : Kernel) (e : Event os) : Prop :=
  K.replies e ∧ ∀ value, e = ⟨.tryCloexecLoad, value⟩ → value = true

private theorem given_modern (knows : K.Knows) : Modern (.unix .linux) K (Given K) where
  linux := rfl
  guards := knows.guards
  socket protocol r given failed := by
    obtain ⟨value, errno⟩ := (cvt_eq_error_iff _ _).mp failed
    exact knows.socket protocol r given.1 ⟨value, (IoError.os.inj errno).symm⟩
  accept4 s len r given failed := by
    obtain ⟨value, errno⟩ := (cvt_eq_error_iff _ _).mp failed
    exact knows.accept4 s len r given.1 ⟨value, (IoError.os.inj errno).symm⟩
  dupfd fd r given failed := by
    obtain ⟨value, errno⟩ := (cvt_eq_error_iff _ _).mp failed
    exact knows.dupfd fd r given.1 ⟨value, (IoError.os.inj errno).symm⟩
  load b given := given.2 b rfl

/-- Everything that is open is guarded, and every duplicate is made with the flag. -/
private structure Closing (s : Shared ι) (v : View ι Request (Own Handle × Phase)) : Prop where
  guarded : s.ledger.guarded = s.ledger.held
  values : s.tryCloexec.values = [true]
  places : ∀ i q m, v i = some (q, m) → m.2 = .resting ∨ m.2 = .trying

variable [DecidableEq ι]

/-- A step of thread `i` leaves the others where they are. -/
private theorem Closing.step {s s' : Shared ι} {v : View ι Request (Own Handle × Phase)} {i : ι}
    {x : Option (Request × Own Handle × Phase)} (before : Closing s v)
    (guarded : s'.ledger.guarded = s'.ledger.held) (values : s'.tryCloexec.values = [true])
    (here : ∀ q m, x = some (q, m) → m.2 = .resting ∨ m.2 = .trying) :
    Closing s' (Function.update v i x) where
  guarded := guarded
  values := values
  places := by
    intro j q m seen
    by_cases same : j = i
    · subst same
      exact here q m ((Function.update_self j x v).symm.trans seen)
    · exact before.places j q m ((Function.update_of_ne same x v).symm.trans seen)

private theorem closing (knows : K.Knows) :
    (crate (.unix .linux) K : System ι _ _ _ _).Invariant (Given K)
      (fun q => (K.custody (.unix .linux) true (q.borrows.map Socket.raw)).both flagging)
      (fun q => (q.moves.map fun socket => (socket.raw, false), .resting))
      (fun _ a m => Leaves (Platform.Covered (.unix .linux)) a m.1 ∧ m.2 = .resting)
      (Shared.start (.unix .linux)) fun _ => Closing where
  starts := ⟨rfl, rfl, by rintro _ _ _ ⟨⟩⟩
  allows h s v i q e s' before replied := by
    refine ⟨replied.1, ?_⟩
    rintro value rfl
    exact (Cell.Loads.eq_of_values replied.2.2.2 before.values).1
  begins h s v i q s' before idle admitted := by
    obtain ⟨ledger, cell⟩ := same_of_begins admitted
    refine before.step (ledger ▸ before.guarded) ?_ ?_
    · rw [cell]
      exact before.values
    · rintro _ _ ⟨⟩
      exact Or.inl rfl
  calls h s v i q m e s' n before seen replied accepted := by
    obtain ⟨taken, flagged⟩ := (Monitor.both_eq_some _ _ _ _ _).mp accepted
    rw [flagging_eq_some] at flagged
    obtain ⟨values, _, next⟩ := flagged.relied
      (fun fd r same => knows.dupfd fd r (same ▸ replied.1)) before.values
      (before.places i q m seen) replied.2.2.2
    refine before.step ?_ values ?_
    · rw [replied.2.1.2]
      exact ((custody_eq_some _ _).mp taken).2.guarded before.guarded
    · rintro _ _ ⟨⟩
      exact next
  returns h s v i q m a s' before seen left ended := by
    obtain ⟨ledger, cell⟩ := same_of_returns ended
    refine before.step (ledger ▸ before.guarded) ?_ ?_
    · rw [cell]
      exact before.values
    · rintro _ _ ⟨⟩

theorem always_closed_on_exec (K : Kernel) (knows : K.Knows)
    (h : List (Label ι Request os (Except Exit (Option Socket))))
    (c : Threads ι Request os (Shared ι))
    (reached : (crate (.unix .linux) K).Reached (Shared.start (.unix .linux)) h c) :
    c.shared.ledger.guarded = c.shared.ledger.held := by
  have strict : true = true → Modern (.unix .linux) K (Given K) := fun _ => given_modern knows
  have named : Target.linux ≠ .android ∧ Target.linux ≠ .haiku := by decide
  obtain ⟨_, v, _, kept⟩ := reached.watched (closing knows) fun q =>
    @Obeys.both _ _ _ _ _ _ _ (_, _) _ _ _ (q.custody strict) (q.flagging named)
  exact kept.guarded

/-! One thread clones a socket while another makes one. -/

private def newKernel : Kernel where
  replies e := match e with
    | ⟨.socket true _, r⟩ | ⟨.fcntlDupfdCloexec _, r⟩ => ¬Refused r
    | ⟨.accept4 _ _, r⟩ => ¬(r.ret.value = -1 ∧ r.ret.errno = ENOSYS)
    | _ => True
  dupfdGuards := true

private theorem newKernel_knows : newKernel.Knows where
  guards := rfl
  socket _ _ replied := replied
  accept4 _ _ _ replied := replied
  dupfd _ _ replied := replied

private def opens (fd : Handle) : Event os := ⟨.socket true 3, ⟨fd, 0⟩⟩

private def copies : Event os := ⟨.fcntlDupfdCloexec 3, ⟨4, 0⟩⟩

private def wanted : Request := .make (.new .rfcomm)

private def copying : Request := .make (.duplicate ⟨3⟩)

private def busy : List (Label Bool Request os (Except Exit (Option Socket))) :=
  [.begins false wanted, .calls false (opens 3), .returns false wanted (.ok (some ⟨3⟩)),
    .begins false copying, .begins true wanted, .calls false ⟨.tryCloexecLoad, true⟩,
    .calls true (opens 5), .calls false copies]

private theorem reached_busy :
    ∃ c, (crate (.unix .linux) newKernel).Reached (Shared.start (.unix .linux)) busy c ∧
      c.shared.ledger.held = {3, 4, 5} := by
  have made (fd : Handle) (valid : fd ≠ -1) :
      Runs (wanted.program (.unix .linux)).run [opens fd] (.ok (some ⟨fd⟩)) :=
    Request.runs_new .rfcomm fd valid
  have loaded : Begins (copying.program (.unix .linux)).run [⟨.tryCloexecLoad, true⟩] :=
    Or.inr ⟨true, [], rfl, Or.inl rfl⟩
  have copied : Begins (copying.program (.unix .linux)).run [⟨.tryCloexecLoad, true⟩, copies] :=
    Or.inr ⟨true, [copies], rfl, Or.inr ⟨⟨4, 0⟩, [], rfl, Or.inl rfl⟩⟩
  have valid (fd : Handle) (at_fd : fd = 3 ∨ fd = 4 ∨ fd = 5) : ¬Refused ⟨fd, 0⟩ := by
    rcases at_fd with rfl | rfl | rfl <;> decide
  have load : (Cell.new true : Cell Bool Bool).Loads false true
      ⟨[true], Function.update (fun _ => 0) false 0⟩ := .mk (Nat.le_refl _) rfl
  have first := (@System.Reached.start _ _ _ _ _ _ (crate (.unix .linux) newKernel) _).begins
    false wanted (Shared.start (.unix .linux)) rfl ⟨List.nil_subset _, rfl⟩
  have second := first.calls false (opens 3) ⟨Ledger.empty.acquire 3 true, [], .new true⟩ rfl
    (made 3 (by decide)).begins
    ⟨valid 3 (by simp), ⟨fun _ _ _ => Finset.notMem_empty _, rfl⟩, rfl, rfl⟩
  have third := second.returns false wanted (.ok (some ⟨3⟩))
    ⟨Ledger.empty.acquire 3 true, [⟨3⟩], .new true⟩ rfl (made 3 (by decide)) rfl
  have fourth := third.begins false copying _ rfl ⟨List.Subset.refl _, rfl⟩
  have fifth := fourth.begins true wanted _ rfl ⟨List.nil_subset _, rfl⟩
  have sixth := fifth.calls false ⟨.tryCloexecLoad, true⟩
    ⟨Ledger.empty.acquire 3 true, [⟨3⟩], ⟨[true], Function.update (fun _ => 0) false 0⟩⟩ rfl loaded
    ⟨trivial, ⟨nofun, rfl⟩, rfl, load⟩
  have seventh := sixth.calls true (opens 5) ⟨(Ledger.empty.acquire 3 true).acquire 5 true, [⟨3⟩],
      ⟨[true], Function.update (fun _ => 0) false 0⟩⟩ rfl (made 5 (by decide)).begins
    ⟨valid 5 (by simp), ⟨by rintro _ _ ⟨⟩; decide, rfl⟩, rfl, rfl⟩
  have eighth := seventh.calls false copies
    ⟨((Ledger.empty.acquire 3 true).acquire 5 true).acquire 4 true, [⟨3⟩],
      ⟨[true], Function.update (fun _ => 0) false 0⟩⟩ rfl copied
    ⟨valid 4 (by simp), ⟨by rintro _ _ ⟨⟩; decide, rfl⟩, rfl, rfl⟩
  exact ⟨_, eighth, by decide⟩

theorem two_busy_closed_on_exec :
    ∃ c, (crate (.unix .linux) newKernel).Reached (Shared.start (.unix .linux)) busy c ∧
      c.shared.ledger.guarded = {3, 4, 5} := by
  obtain ⟨c, reached, held⟩ := reached_busy
  exact ⟨c, reached, (always_closed_on_exec _ newKernel_knows _ c reached).trans held⟩

end IoBluetooth
