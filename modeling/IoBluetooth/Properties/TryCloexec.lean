import IoBluetooth.Sys.TryCloexec

/-!
# `TRY_CLOEXEC` among threads

Threads that duplicate sockets load and store the flag with relaxed ordering. No thread tries
`F_DUPFD_CLOEXEC` again once it was refused, whatever the others do; and where it is never
refused, the flag stays set and `F_DUPFD` is never used.
-/
namespace IoBluetooth

open Interaction Memory

variable {ι : Type} {target : Target} {K : Kernel}

/-- What the threads have done. -/
abbrev History (ι : Type) := List (Label ι Request os (Except Exit (Option Socket)))

/-- After a refused attempt, there is none by the same thread. -/
def NoMore (l l' : Label ι Request os (Except Exit (Option Socket))) : Prop :=
  ∀ i fd r fd' r', l = .calls i ⟨.fcntlDupfdCloexec fd, r⟩ → Refused r →
    l' ≠ .calls i ⟨.fcntlDupfdCloexec fd', r'⟩

private def RefusedTo (i : ι) (h : History ι) : Prop :=
  ∃ fd r, .calls i ⟨.fcntlDupfdCloexec fd, r⟩ ∈ h ∧ Refused r

private def place (v : View ι Request Phase) (i : ι) : Option Phase := (v i).map Prod.snd

/-- A thread that was refused is about to clear the flag, or will not see it set again. -/
private structure Settled (h : History ι) (s : Shared ι) (v : View ι Request Phase) : Prop where
  latched : s.tryCloexec.Latched true false
  apart : h.Pairwise NoMore
  refused : ∀ i, RefusedTo i h →
    place v i = some .refused ∨ place v i ≠ some .trying ∧ 0 < s.tryCloexec.seen i

variable [DecidableEq ι]

omit [DecidableEq ι] in
private theorem place_update [DecidableEq ι] (v : View ι Request Phase) (i j : ι)
    (x : Option (Request × Phase)) :
    place (Function.update v i x) j = if j = i then x.map Prod.snd else place v j := by
  by_cases same : j = i
  · subst same
    simp [place]
  · simp [place, same]

/-- A step of thread `i` leaves the others where they are. -/
private theorem Settled.step {h : History ι} {s s' : Shared ι} {v : View ι Request Phase} {i : ι}
    {x : Option (Request × Phase)} (kept : Settled h s v)
    (l : Label ι Request os (Except Exit (Option Socket)))
    (latched : s'.tryCloexec.Latched true false)
    (seen : ∀ j, s.tryCloexec.seen j ≤ s'.tryCloexec.seen j)
    (fits : ∀ y ∈ h, NoMore y l) (own : ∀ j, RefusedTo j [l] → j = i)
    (here : RefusedTo i (h ++ [l]) → x.map Prod.snd = some .refused ∨
      x.map Prod.snd ≠ some .trying ∧ 0 < s'.tryCloexec.seen i) :
    Settled (h ++ [l]) s' (Function.update v i x) where
  latched := latched
  apart := by
    rw [List.pairwise_append]
    refine ⟨kept.apart, List.pairwise_singleton _ _, fun y member z last => ?_⟩
    exact List.mem_singleton.mp last ▸ fits y member
  refused := by
    intro j refusedTo
    rw [place_update]
    by_cases same : j = i
    · subst same
      rw [if_pos rfl]
      exact here refusedTo
    · rw [if_neg same]
      obtain ⟨fd, r, member, refused⟩ := refusedTo
      rcases List.mem_append.mp member with before | now
      · refine (kept.refused j ⟨fd, r, before, refused⟩).imp id fun ⟨away, past⟩ => ⟨away, ?_⟩
        exact Nat.lt_of_lt_of_le past (seen j)
      · exact absurd (own j ⟨fd, r, now, refused⟩) same

omit [DecidableEq ι] in
private theorem refusedTo_append {i : ι} {h : History ι}
    {l : Label ι Request os (Except Exit (Option Socket))} (refusedTo : RefusedTo i (h ++ [l]))
    (other : ∀ fd r, Refused r → l ≠ .calls i ⟨.fcntlDupfdCloexec fd, r⟩) : RefusedTo i h := by
  obtain ⟨fd, r, member, refused⟩ := refusedTo
  rcases List.mem_append.mp member with before | now
  · exact ⟨fd, r, before, refused⟩
  · exact absurd (List.mem_singleton.mp now).symm (other fd r refused)

/-- What a call does to the flag. -/
private theorem flagged {i : ι} {c c' : Cell ι Bool} {e : Event os} {phase phase' : Phase}
    (latched : c.Latched true false) (accepted : Flagging phase e phase')
    (moved : Flagged i c e c') :
    c'.Latched true false ∧ (∀ j, c.seen j ≤ c'.seen j) ∧
      (phase = .refused → phase' ≠ .refused → phase' ≠ .trying ∧ 0 < c'.seen i) ∧
      (phase' = .trying → phase ≠ .trying → c.seen i = 0) := by
  cases accepted with
  | load value =>
    refine ⟨latched.loads moved, moved.seen_le, nofun, fun now _ => ?_⟩
    rcases latched.loads_eq moved with ⟨_, unseen⟩ | ⟨rfl, _⟩
    · exact unseen
    · cases now
  | attempt fd r =>
    cases moved
    refine ⟨latched, fun _ => Nat.le_refl _, nofun, fun _ again => absurd rfl again⟩
  | store r =>
    obtain ⟨latched', passed⟩ := latched.stores moved
    exact ⟨latched', moved.seen_le, fun _ _ => ⟨nofun, passed⟩, nofun⟩
  | fall fd r =>
    cases moved
    exact ⟨latched, fun _ => Nat.le_refl _, nofun, nofun⟩
  | other phase e quiet =>
    have same : c' = c := by
      obtain ⟨call, r⟩ := e
      cases call <;> first | exact moved | cases quiet
    subst same
    exact ⟨latched, fun _ => Nat.le_refl _, fun was now => absurd was now,
      fun now was => absurd now was⟩

private theorem settled (named : target ≠ .android ∧ target ≠ .haiku) :
    (crate (.unix target) K : System ι _ _ _ _).Invariant (fun _ => True) (fun _ => flagging)
      (fun _ => .resting) (fun _ _ n => n = .resting) (Shared.start (.unix target)) Settled where
  starts := by
    refine ⟨?_, .nil, ?_⟩
    · cases target with
      | android => exact absurd rfl named.1
      | _ => exact Cell.latched_new true false
    · rintro i ⟨_, _, member, _⟩
      cases member
  allows _ _ _ _ _ _ _ _ _ := trivial
  begins h s v i q s' kept idle admitted := by
    have cell := (same_of_begins admitted).2
    refine kept.step _ (cell ▸ kept.latched) (fun _ => by rw [cell]) ?_ ?_ fun refusedTo => ?_
    · rintro _ _ _ _ _ _ _ _ _ ⟨⟩
    · rintro j ⟨fd, r, member, _⟩
      cases List.mem_singleton.mp member
    · rcases kept.refused i (refusedTo_append refusedTo nofun) with now | ⟨_, past⟩
      · rw [place, idle] at now
        cases now
      · exact Or.inr ⟨nofun, cell.symm ▸ past⟩
  calls h s v i q phase e s' phase' kept seen replied accepted := by
    rw [flagging_eq_some] at accepted
    obtain ⟨latched, later, stored, loaded⟩ := flagged kept.latched accepted replied.2.2.2
    have here : place v i = some phase := by rw [place, seen, Option.map_some]
    have trying (fd r) (attempt : e = ⟨.fcntlDupfdCloexec fd, r⟩) :
        phase = .trying ∧ phase' = if Refused r then .refused else .resting := by
      subst attempt
      cases accepted with
      | attempt => exact ⟨rfl, rfl⟩
      | other _ _ quiet => cases quiet
    have unrefused (phase_eq : phase = .trying) : ¬RefusedTo i h := by
      intro refusedTo
      subst phase_eq
      rcases kept.refused i refusedTo with now | ⟨away, _⟩
      · cases here.symm.trans now
      · exact away here
    refine kept.step (.calls i e) latched later ?_ ?_ fun refusedTo => ?_
    · rintro _ member j fd r fd' r' rfl refused ⟨⟩
      exact unrefused (trying fd' r' rfl).1 ⟨fd, r, member, refused⟩
    · rintro j ⟨fd, r, member, _⟩
      cases List.mem_singleton.mp member
      rfl
    · by_cases attempt : ∃ fd r, e = ⟨.fcntlDupfdCloexec fd, r⟩ ∧ Refused r
      · obtain ⟨fd, r, rfl, refused⟩ := attempt
        rw [(trying fd r rfl).2, if_pos refused]
        exact Or.inl rfl
      · -- it was refused before
        have before : RefusedTo i h := by
          refine refusedTo_append refusedTo fun fd r refused eq => attempt ⟨fd, r, ?_, refused⟩
          cases eq
          rfl
        rcases kept.refused i before with now | ⟨away, past⟩
        · cases here.symm.trans now
          by_cases still : phase' = .refused
          · exact Or.inl (congrArg some still)
          · obtain ⟨away, past⟩ := stored rfl still
            exact Or.inr ⟨fun again => away (Option.some.inj again), past⟩
        · rw [here] at away
          refine Or.inr ⟨fun again => ?_, Nat.lt_of_lt_of_le past (later i)⟩
          have unseen := loaded (Option.some.inj again) fun was => away (congrArg some was)
          exact absurd past (by rw [unseen]; exact Nat.lt_irrefl 0)
  returns h s v i q phase a s' kept seen left ended := by
    have cell := (same_of_returns ended).2
    refine kept.step _ (cell ▸ kept.latched) (fun _ => by rw [cell]) ?_ ?_ fun refusedTo => ?_
    · rintro _ _ _ _ _ _ _ _ _ ⟨⟩
    · rintro j ⟨fd, r, member, _⟩
      cases List.mem_singleton.mp member
    · rcases kept.refused i (refusedTo_append refusedTo nofun) with now | ⟨_, past⟩
      · rw [place, seen, left] at now
        cases now
      · exact Or.inr ⟨nofun, cell.symm ▸ past⟩

/-! ### Where it is never refused -/

/-- Every duplicate was made with `F_DUPFD_CLOEXEC`, or is about to be. -/
private structure Relied (h : History ι) (s : Shared ι) (v : View ι Request Phase) : Prop where
  values : s.tryCloexec.values = [true]
  direct : ∀ i e, .calls i e ∈ h → e.call.fallsBack = false
  places : ∀ i phase, place v i = some phase → phase = .resting ∨ phase = .trying

omit [DecidableEq ι] in
private theorem direct_append {h : History ι} {l : Label ι Request os (Except Exit (Option Socket))}
    (direct : ∀ i e, .calls i e ∈ h → e.call.fallsBack = false)
    (last : ∀ i e, l = .calls i e → e.call.fallsBack = false) (i : ι) (e : Event os)
    (member : .calls i e ∈ h ++ [l]) : e.call.fallsBack = false := by
  rcases List.mem_append.mp member with before | now
  · exact direct i e before
  · exact last i e (List.mem_singleton.mp now).symm

private theorem relied (named : target ≠ .android ∧ target ≠ .haiku)
    (understood : ∀ fd r, K.replies ⟨.fcntlDupfdCloexec fd, r⟩ → ¬Refused r) :
    (crate (.unix target) K : System ι _ _ _ _).Invariant (fun _ => True) (fun _ => flagging)
      (fun _ => .resting) (fun _ _ n => n = .resting) (Shared.start (.unix target)) Relied where
  starts := by
    refine ⟨?_, fun _ _ => nofun, fun _ _ => nofun⟩
    cases target with
    | android => exact absurd rfl named.1
    | _ => rfl
  allows _ _ _ _ _ _ _ _ _ := trivial
  begins h s v i q s' kept idle admitted := by
    refine ⟨(congrArg Cell.values (same_of_begins admitted).2).trans kept.values,
      direct_append kept.direct fun _ _ => nofun, fun j phase now => ?_⟩
    rw [place_update] at now
    split at now
    · cases now
      exact Or.inl rfl
    · exact kept.places j phase now
  calls h s v i q phase e s' phase' kept seen replied accepted := by
    rw [flagging_eq_some] at accepted
    have at_phase := kept.places i phase (by rw [place, seen, Option.map_some])
    obtain ⟨values, direct, next⟩ := accepted.relied
      (fun fd r same => understood fd r (same ▸ replied.1)) kept.values at_phase replied.2.2.2
    refine ⟨values, direct_append kept.direct ?_, fun j phase now => ?_⟩
    · rintro _ _ ⟨⟩
      exact direct
    · rw [place_update] at now
      split at now
      · cases now
        exact next
      · exact kept.places j phase now
  returns h s v i q phase a s' kept seen left ended := by
    refine ⟨(congrArg Cell.values (same_of_returns ended).2).trans kept.values,
      direct_append kept.direct fun _ _ => nofun, fun j phase now => ?_⟩
    rw [place_update] at now
    split at now
    · cases now
    · exact kept.places j phase now

theorem try_cloexec_settles (target : Target) (named : target ≠ .android ∧ target ≠ .haiku)
    (K : Kernel) (h : History ι) (c : Threads ι Request os (Shared ι))
    (reached : (crate (.unix target) K).Reached (Shared.start (.unix target)) h c) :
    h.Pairwise NoMore ∧
    ((∀ fd r, K.replies ⟨.fcntlDupfdCloexec fd, r⟩ → ¬Refused r) →
      c.shared.tryCloexec.values = [true] ∧
      ∀ i e, .calls i e ∈ h → e.call.fallsBack = false) := by
  constructor
  · obtain ⟨_, v, _, kept⟩ := reached.watched (settled named) fun q => q.flagging named
    exact kept.apart
  · intro understood
    obtain ⟨_, v, _, kept⟩ := reached.watched (relied named understood) fun q => q.flagging named
    exact ⟨kept.values, kept.direct⟩

/-! Two threads clone one socket on an old kernel, and each is refused once. -/

private def opened : Event os := ⟨.socket true 3, ⟨3, 0⟩⟩

private def stale : Event os := ⟨.tryCloexecLoad, true⟩

private def rejected : Event os := ⟨.fcntlDupfdCloexec 3, ⟨-1, EINVAL⟩⟩

private def making : Request := .make (.new .rfcomm)

private def cloning : Request := .make (.duplicate ⟨3⟩)

private def twoRefusals : History Bool :=
  [.begins false making, .calls false opened, .returns false making (.ok (some ⟨3⟩)),
    .begins false cloning, .begins true cloning, .calls false stale, .calls true stale,
    .calls false rejected, .calls true rejected]

private theorem reached_twoRefusals :
    ∃ c, (crate (.unix .linux) (.any false)).Reached (Shared.start (.unix .linux)) twoRefusals c := by
  have made : Runs (making.program (.unix .linux)).run [opened] (.ok (some ⟨3⟩)) :=
    Request.runs_new .rfcomm 3 (by decide)
  have loaded : Begins (cloning.program (.unix .linux)).run [stale] :=
    Or.inr ⟨true, [], rfl, Or.inl rfl⟩
  have tried : Begins (cloning.program (.unix .linux)).run [stale, rejected] :=
    Or.inr ⟨true, [rejected], rfl, Or.inr ⟨⟨-1, EINVAL⟩, [], rfl, Or.inl rfl⟩⟩
  have first := (@System.Reached.start _ _ _ _ _ _ (crate (.unix .linux) (.any false)) _).begins
    false making (Shared.start (.unix .linux)) rfl ⟨List.nil_subset _, rfl⟩
  have second := first.calls false opened ⟨Ledger.empty.acquire 3 true, [], .new true⟩ rfl
    made.begins ⟨trivial, ⟨fun _ _ _ => Finset.notMem_empty _, rfl⟩, rfl, rfl⟩
  have third := second.returns false making (.ok (some ⟨3⟩))
    ⟨Ledger.empty.acquire 3 true, [⟨3⟩], .new true⟩ rfl made rfl
  have fourth := third.begins false cloning _ rfl ⟨List.Subset.refl _, rfl⟩
  have fifth := fourth.begins true cloning _ rfl ⟨List.Subset.refl _, rfl⟩
  -- each still loads the value at the start
  have load (i : Bool) (seen : Bool → Nat) (unseen : seen i = 0) :
      (⟨[true], seen⟩ : Cell Bool Bool).Loads i true ⟨[true], Function.update seen i 0⟩ :=
    .mk (Nat.le_of_eq unseen) rfl
  have sixth := fifth.calls false stale
    ⟨Ledger.empty.acquire 3 true, [⟨3⟩], ⟨[true], Function.update (fun _ => 0) false 0⟩⟩ rfl loaded
    ⟨trivial, ⟨nofun, rfl⟩, rfl, load false (fun _ => 0) rfl⟩
  have seventh := sixth.calls true stale ⟨Ledger.empty.acquire 3 true, [⟨3⟩],
      ⟨[true], Function.update (Function.update (fun _ => 0) false 0) true 0⟩⟩ rfl loaded
    ⟨trivial, ⟨nofun, rfl⟩, rfl, load true _ rfl⟩
  have eighth := seventh.calls false rejected _ rfl tried ⟨trivial, ⟨nofun, rfl⟩, rfl, rfl⟩
  have ninth := eighth.calls true rejected _ rfl tried ⟨trivial, ⟨nofun, rfl⟩, rfl, rfl⟩
  exact ⟨_, ninth⟩

theorem refused_once_each :
    ∃ c, (crate (.unix .linux) (.any false)).Reached (Shared.start (.unix .linux)) twoRefusals c ∧
      twoRefusals.Pairwise NoMore := by
  obtain ⟨c, reached⟩ := reached_twoRefusals
  exact ⟨c, reached, (try_cloexec_settles .linux (by decide) _ _ c reached).1⟩

end IoBluetooth
