import IoBluetooth.Interaction.Environment

/-!
# Total correctness

What a program does in an environment that may choose among several replies: it is never
left without a reply, it returns whatever the choices are, and then the postcondition
holds. A loop does so by going round finitely often.
-/
namespace Interaction

variable {I : Interface} {α β σ ε W : Type}

/-- Round after round, each ending in one of finitely many more or in `Q`. `B s w R` says that
a round from `s` and `w` ends in `R`. -/
inductive LoopEnds (B : σ → W → (σ ⊕ β → W → Prop) → Prop) (Q : β → W → Prop) : σ → W → Prop
  | round {s w} (R : σ ⊕ β → W → Prop) : B s w R →
      (∀ s' u, R (.inl s') u → LoopEnds B Q s' u) → (∀ b u, R (.inr b) u → Q b u) →
      LoopEnds B Q s w

/-- Started in `w`, `p` returns whatever the environment replies, and then `Q` holds. -/
def Ensures (E : Environment I W) {α : Type} : Prog I α → W → (α → W → Prop) → Prop
  | .ret a, w, Q => Q a w
  | .call c k, w, Q => (∃ r u, E w ⟨c, r⟩ u) ∧ ∀ r u, E w ⟨c, r⟩ u → Ensures E (k r) u Q
  | .iter body s k, w, Q =>
    LoopEnds (fun s w R => Ensures E (body s) w R) (fun b u => Ensures E (k b) u Q) s w

section Rules

variable {E : Environment I W} {w : W}

theorem LoopEnds.mono {B : σ → W → (σ ⊕ β → W → Prop) → Prop} {Q Q' : β → W → Prop} {s : σ}
    (h : LoopEnds B Q s w) (post : ∀ b u, Q b u → Q' b u) : LoopEnds B Q' s w := by
  induction h with
  | round R first _ last ih => exact .round R first ih fun b u holds => post b u (last b u holds)

theorem Ensures.mono {p : Prog I α} {Q Q' : α → W → Prop} (h : Ensures E p w Q)
    (post : ∀ a u, Q a u → Q' a u) : Ensures E p w Q' := by
  induction p generalizing w with
  | ret a => exact post a w h
  | call c k ih => exact ⟨h.1, fun r u reply => ih r (h.2 r u reply) post⟩
  | iter body s k _ ih => exact LoopEnds.mono h fun b u holds => ih b holds post

/-- What a sequence ensures, its first part ensures that the second does. -/
theorem ensures_bind (p : Prog I α) (f : α → Prog I β) (Q : β → W → Prop) :
    Ensures E (p >>= f) w Q ↔ Ensures E p w fun a u => Ensures E (f a) u Q := by
  change Ensures E (p.bind f) w Q ↔ _
  induction p generalizing w with
  | ret a => exact Iff.rfl
  | call c k ih =>
    simp only [Prog.bind, Ensures, ih]
  | iter body s k _ ih =>
    simp only [Prog.bind, Ensures]
    constructor
    · intro h
      exact LoopEnds.mono h fun b u holds => (ih b f).mp holds
    · intro h
      exact LoopEnds.mono h fun b u holds => (ih b f).mpr holds

theorem ensures_map (f : α → β) (p : Prog I α) (Q : β → W → Prop) :
    Ensures E (f <$> p) w Q ↔ Ensures E p w fun a u => Q (f a) u := by
  rw [← bind_pure_comp, ensures_bind]
  exact Iff.rfl

/-- The loop rule: every round keeps the invariant and lowers the measure, or is the last. -/
theorem ensures_loop {body : σ → Prog I (σ ⊕ β)} {Q : β → W → Prop} (inv : σ → W → Prop)
    (measure : σ → W → Nat)
    (round : ∀ s w, inv s w → Ensures E (body s) w fun x u => match x with
      | .inl s' => inv s' u ∧ measure s' u < measure s w
      | .inr b => Q b u)
    (s : σ) (w : W) (start : inv s w) : Ensures E (Prog.loop body s) w Q := by
  change LoopEnds _ _ s w
  induction bound : measure s w using Nat.strongRecOn generalizing s w with
  | ind n ih =>
    refine .round _ (round s w start) ?_ fun b u holds => holds
    rintro s' u ⟨kept, less⟩
    exact ih _ (bound ▸ less) s' u kept rfl

/-! ### Programs that may fail -/

theorem ensures_run_pure (a : α) (Q : Except ε α → W → Prop) :
    Ensures E (pure a : ExceptT ε (Prog I) α).run w Q ↔ Q (.ok a) w := Iff.rfl

/-- Where the first part of a sequence fails, the sequence has ended. -/
theorem ensures_run_bind (p : ExceptT ε (Prog I) α) (f : α → ExceptT ε (Prog I) β)
    (Q : Except ε β → W → Prop) :
    Ensures E (p >>= f).run w Q ↔ Ensures E p.run w fun x u => match x with
      | .ok a => Ensures E (f a).run u Q
      | .error e => Q (.error e) u := by
  rw [ExceptT.run_bind, ensures_bind]
  constructor
  all_goals
    intro h
    refine h.mono fun x u holds => ?_
    cases x with
    | ok a => exact holds
    | error e => exact holds

theorem ensures_run_lift (p : Prog I α) (Q : Except ε α → W → Prop) :
    Ensures E (ExceptT.lift p : ExceptT ε (Prog I) α).run w Q ↔
      Ensures E p w fun a u => Q (.ok a) u := by
  rw [ExceptT.run_lift, ensures_map]

/-- The loop rule for a loop whose rounds may fail. -/
theorem ensures_repeating {body : σ → ExceptT ε (Prog I) (σ ⊕ β)} {Q : Except ε β → W → Prop}
    (inv : σ → W → Prop) (measure : σ → W → Nat)
    (round : ∀ s w, inv s w → Ensures E (body s).run w fun x u => match x with
      | .ok (.inl s') => inv s' u ∧ measure s' u < measure s w
      | .ok (.inr b) => Q (.ok b) u
      | .error e => Q (.error e) u)
    (s : σ) (w : W) (start : inv s w) : Ensures E (repeating body s).run w Q := by
  refine ensures_loop inv measure (fun s w kept => ?_) s w start
  rw [ensures_map]
  refine (round s w kept).mono fun x u holds => ?_
  match x with
  | .ok (.inl s') => exact holds
  | .ok (.inr b) => exact holds
  | .error e => exact holds

end Rules

/-! ### Programs that return -/

/-- The environment has a reply to every call. -/
def Responds (E : Environment I W) : Prop := ∀ w c, ∃ r u, E w ⟨c, r⟩ u

/-- Wherever `p` is started, it returns. -/
def Returns (E : Environment I W) {α : Type} (p : Prog I α) : Prop :=
  ∀ w, Ensures E p w fun _ _ => True

section Returns

variable {E : Environment I W} {p : ExceptT ε (Prog I) α} {f : α → ExceptT ε (Prog I) β}

theorem returns_perform (responds : Responds E) (c : I.Call) : Returns E (Prog.perform c) :=
  fun w => ⟨responds w c, fun _ _ _ => trivial⟩

theorem returns_pure (a : α) : Returns E (pure a : Prog I α) := fun _ => trivial

theorem Returns.bind {p : Prog I α} {f : α → Prog I β} (hp : Returns E p)
    (hf : ∀ a, Returns E (f a)) : Returns E (p >>= f) :=
  fun w => (ensures_bind _ _ _).mpr ((hp w).mono fun a u _ => hf a u)

theorem returns_run_pure (a : α) : Returns E (pure a : ExceptT ε (Prog I) α).run :=
  fun _ => trivial

theorem returns_run_throw (e : ε) : Returns E (throw e : ExceptT ε (Prog I) α).run :=
  fun _ => trivial

theorem Returns.run_lift {p : Prog I α} (hp : Returns E p) :
    Returns E (ExceptT.lift p : ExceptT ε (Prog I) α).run :=
  fun w => (ensures_run_lift _ _).mpr (hp w)

theorem Returns.run_bind (hp : Returns E p.run) (hf : ∀ a, Returns E (f a).run) :
    Returns E (p >>= f).run := by
  refine fun w => (ensures_run_bind _ _ _).mpr ((hp w).mono fun x u _ => ?_)
  cases x with
  | ok a => exact hf a u
  | error e => exact trivial

theorem Returns.owning {release : Prog I Unit} (hp : Returns E p.run) (hr : Returns E release) :
    Returns E (owning release p).run := by
  refine Returns.bind hp fun x => ?_
  cases x with
  | ok a => exact returns_pure _
  | error e => exact hr.bind fun _ => returns_pure _

end Returns

/-! ### Runs of such programs -/

/-- Every run that returns does so where the postcondition holds. -/
theorem Ensures.holds {E : Environment I W} {w u : W} {p : Prog I α} {Q : α → W → Prop}
    {t : Trace I} {a : α} (h : Ensures E p w Q) (run : Runs p t a) (steps : Steps E w t u) :
    Q a u := by
  induction p generalizing w t u with
  | ret b =>
    obtain ⟨rfl, rfl⟩ := run
    rw [steps_nil] at steps
    exact steps ▸ h
  | call c k ih =>
    obtain ⟨r, v, rfl, rest⟩ := run
    obtain ⟨x, reply, later⟩ := (steps_cons _ _ _ _ _).mp steps
    exact ih r (h.2 r x reply) rest later
  | iter body s k ihb ihk =>
    obtain ⟨v, x, b, rfl, rounds, rest⟩ := run
    obtain ⟨y, before, after⟩ := (steps_append _ _ _ _ _).mp steps
    refine ihk b ?_ rest after
    -- the rounds that were made, one by one
    clear rest after steps
    induction rounds generalizing w with
    | done last =>
      cases h with
      | round R first _ final => exact final _ y (ihb _ first last before)
    | again round _ ih =>
      cases h with
      | round R first next _ =>
        obtain ⟨z, now, later⟩ := (steps_append _ _ _ _ _).mp before
        exact ih (next _ z (ihb _ first round now)) later

/-- The postcondition may speak of the run that led to it. -/
theorem Ensures.traced {E : Environment I W} {w : W} {p : Prog I α} {Q : α → W → Prop}
    (h : Ensures E p w Q) :
    Ensures E p w fun a u => Q a u ∧ ∃ t, Runs p t a ∧ Steps E w t u := by
  induction p generalizing w with
  | ret a => exact ⟨h, [], ⟨rfl, rfl⟩, .nil w⟩
  | call c k ih =>
    refine ⟨h.1, fun r u reply => (ih r (h.2 r u reply)).mono ?_⟩
    rintro a v ⟨holds, t, run, steps⟩
    exact ⟨holds, ⟨c, r⟩ :: t, ⟨r, t, rfl, run⟩, .cons reply steps⟩
  | iter body s k ihb ihk =>
    suffices LoopEnds (fun s w R => Ensures E (body s) w R)
        (fun b u => Ensures E (k b) u Q ∧
          ∃ t, Rounds (fun s => Runs (body s)) s t b ∧ Steps E w t u) s w by
      refine LoopEnds.mono this ?_
      rintro b u ⟨rest, t, rounds, before⟩
      refine (ihk b rest).mono ?_
      rintro a x ⟨holds, v, run, after⟩
      exact ⟨holds, t ++ v, ⟨t, v, b, rfl, rounds, run⟩,
        (steps_append _ _ _ _ _).mpr ⟨u, before, after⟩⟩
    induction h with
    | @round s w R first _ last ih =>
      refine .round _ (ihb s first) ?_ ?_
      · rintro s' u ⟨reached, t, run, steps⟩
        refine (ih s' u reached).mono ?_
        rintro b x ⟨rest, v, rounds, later⟩
        exact ⟨rest, t ++ v, .again run rounds,
          (steps_append _ _ _ _ _).mpr ⟨u, steps, later⟩⟩
      · rintro b u ⟨reached, t, run, steps⟩
        exact ⟨last b u reached, t, .done run, steps⟩

/-! ### The states of a loop -/

/-- Started from `s` in `w`, the loop gets to begin a round from `s'` in `w'`. -/
inductive Visits (E : Environment I W) (body : σ → ExceptT ε (Prog I) (σ ⊕ β)) (s : σ) (w : W) :
    σ → W → Prop
  | start : Visits E body s w s w
  | round {s' w' t s'' w''} : Visits E body s w s' w' → Runs (body s').run t (.ok (.inl s'')) →
      Steps E w' t w'' → Visits E body s w s'' w''

/-- What every round keeps holds whenever a round begins. -/
theorem Visits.invariant {E : Environment I W} {body : σ → ExceptT ε (Prog I) (σ ⊕ β)}
    (inv : σ → W → Prop)
    (round : ∀ s w, inv s w → ∀ t s' u, Runs (body s).run t (.ok (.inl s')) → Steps E w t u →
      inv s' u)
    {s s' : σ} {w w' : W} (start : inv s w) (visits : Visits E body s w s' w') : inv s' w' := by
  induction visits with
  | start => exact start
  | round _ run steps ih => exact round _ _ ih _ _ _ run steps

end Interaction
