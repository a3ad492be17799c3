import IoBluetooth.Interaction.Events

/-!
# Programs that hold one handle at a time

A ledger says what is held once a program has returned. What follows is about every moment of
a run, whether it returns or not: there is never more than one handle that was not there
before.
-/
namespace Interaction

variable {I : Interface} {H α β γ σ ε δ : Type} [DecidableEq H]

/-- At any moment of a run of `p` the ledger is what it was, or holds one handle more. -/
def AtMostOne (effect : Event I → Effect H) (p : Prog I α) : Prop :=
  ∀ L t M, Begins p t → Steps (ledgerOf effect) L t M →
    M = L ∨ ∃ h g, h ∉ L.held ∧ M = L.acquire h g

/-- Once `h` is acquired, at any moment of a run of `p` the ledger holds it, or it is released
again. -/
def Keeps (effect : Event I → Effect H) (h : H) (p : Prog I α) : Prop :=
  ∀ L g t M, h ∉ L.held → Begins p t → Steps (ledgerOf effect) (L.acquire h g) t M →
    M = L ∨ ∃ g', M = L.acquire h g'

section Rules

variable {effect : Event I → Effect H} {h : H} {handle : α → H}

/-! ### With a handle -/

/-- Setting the guard of a handle is the most that is done to it. -/
theorem steps_of_guarding (t : Trace I) (guarding : ∀ e ∈ t, effect e = .none ∨ effect e = .guard h)
    (L M : Ledger H) (g : Bool) (steps : Steps (ledgerOf effect) (L.acquire h g) t M) :
    ∃ g', M = L.acquire h g' := by
  induction t generalizing g with
  | nil => exact ⟨g, (steps_nil _ _ _).mp steps⟩
  | cons e t ih =>
    obtain ⟨N, ⟨_, rfl⟩, rest⟩ := (steps_cons _ _ _ _ _).mp steps
    have later := fun e' member => guarding e' (List.mem_cons_of_mem e member)
    rcases guarding e List.mem_cons_self with none | guard
    · rw [none] at rest
      exact ih later g rest
    · rw [guard, Ledger.apply, Ledger.guard_acquire] at rest
      exact ih later true rest

theorem keeps_pure (a : α) : Keeps effect h (pure a : Prog I α) := by
  rintro L g t M _ rfl steps
  exact Or.inr ⟨g, (steps_nil _ _ _).mp steps⟩

theorem keeps_release (c : I.Call) (releases : ∀ r, effect ⟨c, r⟩ = .release h) :
    Keeps effect h (Prog.perform c) := by
  intro L g t M fresh begun steps
  rcases begun with rfl | ⟨r, _, rfl, rfl⟩
  · exact Or.inr ⟨g, (steps_nil _ _ _).mp steps⟩
  · obtain ⟨_, rfl⟩ := (steps_singleton _ _ _ _).mp steps
    rw [releases, Ledger.apply, Ledger.release_acquire L h g fresh]
    exact Or.inl rfl

theorem Keeps.bind_pure {p : Prog I α} (hp : Keeps effect h p) (f : α → β) :
    Keeps effect h (p >>= fun a => pure (f a)) := by
  rw [bind_pure_comp]
  intro L g t M fresh begun steps
  exact hp L g t M fresh (begins_map begun) steps

theorem Emits.keeps_bind {p : Prog I α} {f : α → Prog I β}
    (hp : Emits p fun e => effect e = .none ∨ effect e = .guard h)
    (hf : ∀ a, Keeps effect h (f a)) : Keeps effect h (p >>= f) := by
  intro L g t M fresh begun steps
  rcases begins_bind p f t begun with first | ⟨u, v, a, rfl, run, rest⟩
  · -- within the first part the handle is held
    exact Or.inr (steps_of_guarding t (hp t first) L M g steps)
  · obtain ⟨N, before, after⟩ := (steps_append _ _ _ _ _).mp steps
    obtain ⟨g', rfl⟩ := steps_of_guarding u (hp.runs u a run) L N g before
    exact hf a L g' v M fresh rest after

/-- The owner of a handle releases it where its body fails. -/
theorem keeps_owning {release : Prog I Unit} {body : ExceptT ε (Prog I) α}
    (hb : Emits body.run fun e => effect e = .none ∨ effect e = .guard h)
    (hr : Keeps effect h release) : Keeps effect h (owning release body).run := by
  refine hb.keeps_bind fun x => ?_
  cases x with
  | ok a => exact keeps_pure _
  | error e => exact hr.bind_pure _

/-! ### Without one -/

theorem Emits.atMostOne {p : Prog I α} (quiet : Emits p (effect · = .none)) :
    AtMostOne effect p := by
  intro L t M begun steps
  exact Or.inl (steps_of_quiet effect t (quiet t begun) L M steps)

/-- What follows an acquisition holds the handle, or goes on without one. -/
theorem atMostOne_perform {g : Bool} (c : I.Call) (result : I.Reply c → Except δ H)
    (acquires : ∀ r, effect ⟨c, r⟩ = .ofResult g (result r)) {f : I.Reply c → Prog I α}
    (ok : ∀ r h, result r = .ok h → Keeps effect h (f r))
    (error : ∀ r e, result r = .error e → AtMostOne effect (f r)) :
    AtMostOne effect (Prog.perform c >>= f) := by
  rintro L _ M (rfl | ⟨r, u, rfl, rest⟩) steps
  · exact Or.inl ((steps_nil _ _ _).mp steps)
  · obtain ⟨N, ⟨fresh, rfl⟩, later⟩ := (steps_cons _ _ _ _ _).mp steps
    have done := acquires r
    cases outcome : result r with
    | ok h =>
      rw [outcome] at done
      have unheld : h ∉ L.held := fresh h g done
      rw [done] at later
      rcases ok r h outcome L g u M unheld rest later with same | ⟨g', more⟩
      · exact Or.inl same
      · exact Or.inr ⟨h, g', unheld, more⟩
    | error e =>
      rw [outcome] at done
      rw [done] at later
      exact error r e outcome L u M rest later

theorem AtMostOne.bind {p : Prog I α} {f : α → Prog I β} (hp : AtMostOne effect p)
    (neutral : Neutral effect p) (hf : ∀ a, AtMostOne effect (f a)) :
    AtMostOne effect (p >>= f) := by
  intro L t M begun steps
  rcases begins_bind p f t begun with first | ⟨u, v, a, rfl, run, rest⟩
  · exact hp L t M first steps
  · obtain ⟨N, before, after⟩ := (steps_append _ _ _ _ _).mp steps
    obtain rfl := neutral L L u a N rfl run before
    exact hf a N v M rest after

/-- What is made is handed on to what keeps it. -/
theorem Constructs.atMostOne_bind {p : ExceptT ε (Prog I) α} {f : α → ExceptT ε (Prog I) β}
    (constructs : Constructs effect handle p) (hp : AtMostOne effect p.run)
    (hf : ∀ a, Keeps effect (handle a) (f a).run) : AtMostOne effect (p >>= f).run := by
  rw [ExceptT.run_bind]
  intro L t M begun steps
  rcases begins_bind _ _ t begun with first | ⟨u, v, x, rfl, run, rest⟩
  · exact hp L t M first steps
  · obtain ⟨N, before, after⟩ := (steps_append _ _ _ _ _).mp steps
    have made := constructs L L u x N rfl run before
    cases x with
    | ok a =>
      -- the handle of the result is the one handle more
      obtain ⟨fresh, rfl⟩ := made
      rcases hf a L true v M fresh rest after with same | ⟨g, more⟩
      · exact Or.inl same
      · exact Or.inr ⟨handle a, g, fresh, more⟩
    | error e =>
      -- nothing was made, and nothing follows
      cases rest
      rw [steps_nil] at after
      exact Or.inl (after.trans made)

theorem AtMostOne.map {p : Prog I α} (hp : AtMostOne effect p) (f : α → β) :
    AtMostOne effect (f <$> p) :=
  fun L t M begun steps => hp L t M (begins_map begun) steps

/-- A loop whose rounds leave nothing held before the next one. -/
theorem atMostOne_repeating {body : σ → ExceptT ε (Prog I) (σ ⊕ β)}
    (hb : ∀ s, AtMostOne effect (body s).run)
    (neutral : ∀ s L t s' M, Runs (body s).run t (.ok (.inl s')) →
      Steps (ledgerOf effect) L t M → M = L) (s : σ) :
    AtMostOne effect (repeating body s).run := by
  intro L t M begun steps
  -- induction over the rounds, each of which starts from the same ledger
  revert L M
  refine begins_repeating_induction ?_ ?_ s t begun
  · intro s t first L M steps
    exact hb s L t M first steps
  · intro s s' t u round ih L M steps
    obtain ⟨N, before, after⟩ := (steps_append _ _ _ _ _).mp steps
    obtain rfl := neutral s L t s' N round before
    exact ih N M after

end Rules
end Interaction
