import IoBluetooth.Interaction.Program

/-!
# Environments and program logic

An environment says which replies it may give in which of its states. A triple
speaks of the runs of a program that an environment allows: started where the
precondition holds, every one that returns does so where the postcondition holds.
-/
namespace Interaction

variable {I : Interface} {α β σ ε W : Type}

/-- The replies an environment may give in each state, and the state after each. -/
abbrev Environment (I : Interface) (W : Type) := W → Event I → W → Prop

inductive Steps (E : Environment I W) : W → Trace I → W → Prop
  | nil (w) : Steps E w [] w
  | cons {w e v t u} : E w e v → Steps E v t u → Steps E w (e :: t) u

theorem steps_nil (E : Environment I W) (w u : W) : Steps E w [] u ↔ u = w := by
  constructor
  · rintro ⟨⟩
    rfl
  · rintro rfl
    exact .nil u

theorem steps_cons (E : Environment I W) (w u : W) (e : Event I) (t : Trace I) :
    Steps E w (e :: t) u ↔ ∃ v, E w e v ∧ Steps E v t u := by
  constructor
  · rintro ⟨⟩
    exact ⟨_, ‹_›, ‹_›⟩
  · rintro ⟨v, he, ht⟩
    exact .cons he ht

theorem steps_singleton (E : Environment I W) (w u : W) (e : Event I) :
    Steps E w [e] u ↔ E w e u := by
  simp only [steps_cons, steps_nil]
  exact ⟨fun ⟨v, he, hv⟩ => hv ▸ he, fun he => ⟨u, he, rfl⟩⟩

theorem steps_append (E : Environment I W) (w u : W) (s t : Trace I) :
    Steps E w (s ++ t) u ↔ ∃ v, Steps E w s v ∧ Steps E v t u := by
  induction s generalizing w with
  | nil => simp only [List.nil_append, steps_nil, exists_eq_left]
  | cons e s ih =>
    simp only [List.cons_append, steps_cons, ih]
    constructor
    · rintro ⟨v, he, x, hs, ht⟩
      exact ⟨x, ⟨v, he, hs⟩, ht⟩
    · rintro ⟨x, ⟨v, he, hs⟩, ht⟩
      exact ⟨v, he, x, hs, ht⟩

/-- Partial correctness of `p` in the environment `E`. -/
def Triple (E : Environment I W) (P : W → Prop) (p : Prog I α) (Q : α → W → Prop) : Prop :=
  ∀ w t a u, P w → Runs p t a → Steps E w t u → Q a u

section Rules

variable {E : Environment I W} {P P' : W → Prop}

theorem Triple.consequence {p : Prog I α} {Q Q' : α → W → Prop} (h : Triple E P p Q)
    (pre : ∀ w, P' w → P w) (post : ∀ a w, Q a w → Q' a w) : Triple E P' p Q' :=
  fun w t a u hw hr hs => post a u (h w t a u (pre w hw) hr hs)

theorem triple_pure (a : α) {Q : α → W → Prop} (h : ∀ w, P w → Q a w) :
    Triple E P (pure a) Q := by
  rintro w t x u hw ⟨rfl, rfl⟩ hs
  rw [steps_nil] at hs
  exact hs ▸ h w hw

theorem triple_perform (c : I.Call) {Q : I.Reply c → W → Prop}
    (h : ∀ w r u, P w → E w ⟨c, r⟩ u → Q r u) : Triple E P (Prog.perform c) Q := by
  intro w t r u hw hr hs
  rw [runs_perform] at hr
  subst hr
  exact h w r u hw ((steps_singleton E w u _).mp hs)

theorem Triple.bind {p : Prog I α} {f : α → Prog I β} {R : α → W → Prop} {Q : β → W → Prop}
    (hp : Triple E P p R) (hf : ∀ a, Triple E (R a) (f a) Q) : Triple E P (p >>= f) Q := by
  intro w t y u hw hr hs
  obtain ⟨s, v, a, rfl, hrp, hrf⟩ := (runs_bind p f t y).mp hr
  obtain ⟨x, hsp, hsf⟩ := (steps_append E w u s v).mp hs
  exact hf a x v y u (hp w s a x hw hrp hsp) hrf hsf

theorem Triple.run_bind {p : ExceptT ε (Prog I) α} {f : α → ExceptT ε (Prog I) β}
    {R : Except ε α → W → Prop} {Q : Except ε β → W → Prop} (hp : Triple E P p.run R)
    (ok : ∀ a, Triple E (R (.ok a)) (f a).run Q)
    (error : ∀ e w, R (.error e) w → Q (.error e) w) : Triple E P (p >>= f).run Q := by
  intro w t y u hw hr hs
  rcases (runs_run_bind p f t y).mp hr with ⟨e, hrp, rfl⟩ | ⟨s, v, a, rfl, hrp, hrf⟩
  · exact error e u (hp w t _ u hw hrp hs)
  · obtain ⟨x, hsp, hsf⟩ := (steps_append E w u s v).mp hs
    exact ok a x v y u (hp w s _ x hw hrp hsp) hrf hsf

end Rules

/-! ### Termination -/

/-- From `w` the environment lets `p` return. Where each call has one reply, `p` terminates. -/
def Ends (E : Environment I W) (w : W) (p : Prog I α) : Prop :=
  ∃ t a u, Runs p t a ∧ Steps E w t u

/-- The variant rule: a loop returns if its rounds do, and each that is not the last lowers
`measure`. -/
theorem ends_repeating {E : Environment I W} {body : σ → ExceptT ε (Prog I) (σ ⊕ β)}
    (measure : σ → W → Nat)
    (round : ∀ s w, ∃ t x u, Runs (body s).run t x ∧ Steps E w t u ∧
      ∀ s', x = .ok (.inl s') → measure s' u < measure s w) (s : σ) (w : W) :
    Ends E w (repeating body s).run := by
  induction bound : measure s w using Nat.strongRecOn generalizing s w with
  | ind n ih =>
    obtain ⟨t, x, u, run, steps, less⟩ := round s w
    match x with
    | .error e => exact ⟨t, .error e, u, (runs_repeating_iff body s t _).mpr
        (Or.inl ⟨e, run, rfl⟩), steps⟩
    | .ok (.inr b) => exact ⟨t, .ok b, u, (runs_repeating_iff body s t _).mpr
        (Or.inr (Or.inl ⟨b, run, rfl⟩)), steps⟩
    | .ok (.inl s') =>
      obtain ⟨v, y, z, rest, later⟩ := ih _ (bound ▸ less s' rfl) s' u rfl
      exact ⟨t ++ v, y, z, (runs_repeating_iff body s _ y).mpr
        (Or.inr (Or.inr ⟨s', t, v, rfl, run, rest⟩)),
        (steps_append E w z t v).mpr ⟨u, steps, later⟩⟩

end Interaction
