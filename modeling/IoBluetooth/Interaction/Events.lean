import IoBluetooth.Interaction.Ledger

/-!
# Events of a program

What every call of a program has in common, whatever the replies were.
-/
namespace Interaction

variable {I : Interface} {α β σ ε : Type} {Q : Event I → Prop}

/-- Every event of every run of `p` satisfies `Q`, whether the run has returned or not. -/
def Emits (p : Prog I α) (Q : Event I → Prop) : Prop :=
  ∀ t, Begins p t → ∀ e ∈ t, Q e

theorem Emits.runs {p : Prog I α} (h : Emits p Q) (t : Trace I) (a : α) (run : Runs p t a) :
    ∀ e ∈ t, Q e :=
  h t run.begins

theorem emits_pure (a : α) : Emits (pure a : Prog I α) Q := by
  intro t h e member
  cases h
  cases member

theorem emits_perform (c : I.Call) (h : ∀ r, Q ⟨c, r⟩) : Emits (Prog.perform c) Q := by
  intro t begun e member
  rcases begun with rfl | ⟨r, _, rfl, rfl⟩
  · cases member
  · obtain rfl := List.mem_singleton.mp member
    exact h r

theorem Emits.bind {p : Prog I α} {f : α → Prog I β} (hp : Emits p Q)
    (hf : ∀ a, Emits (f a) Q) : Emits (p >>= f) Q := by
  intro t begun e member
  rcases begins_bind p f t begun with first | ⟨u, v, a, rfl, first, rest⟩
  · exact hp t first e member
  · rcases List.mem_append.mp member with before | after
    · exact hp.runs u a first e before
    · exact hf a v rest e after

theorem Emits.map {p : Prog I α} (hp : Emits p Q) (f : α → β) : Emits (f <$> p) Q := by
  rw [← bind_pure_comp]
  exact hp.bind fun a => emits_pure (f a)

theorem emits_loop {body : σ → Prog I (σ ⊕ β)} (h : ∀ s, Emits (body s) Q) (s : σ) :
    Emits (Prog.loop body s) Q := by
  intro t begun
  refine begins_loop_induction ?_ ?_ s t begun
  · intro s t first
    exact h s t first
  · intro s s' t u round ih e member
    rcases List.mem_append.mp member with before | after
    · exact (h s).runs t _ round e before
    · exact ih e after

/-! ### Programs that may fail -/

theorem emits_run_pure (a : α) : Emits (pure a : ExceptT ε (Prog I) α).run Q := emits_pure _

theorem emits_run_throw (e : ε) : Emits (throw e : ExceptT ε (Prog I) α).run Q := emits_pure _

theorem Emits.run_bind {p : ExceptT ε (Prog I) α} {f : α → ExceptT ε (Prog I) β}
    (hp : Emits p.run Q) (hf : ∀ a, Emits (f a).run Q) : Emits (p >>= f).run Q := by
  rw [ExceptT.run_bind]
  refine hp.bind fun x => ?_
  cases x with
  | error e => exact emits_pure _
  | ok a => exact hf a

theorem emits_lift {p : Prog I α} (hp : Emits p Q) :
    Emits (ExceptT.lift p : ExceptT ε (Prog I) α).run Q := by
  rw [ExceptT.run_lift]
  exact hp.map _

theorem emits_owning {release : Prog I Unit} {body : ExceptT ε (Prog I) α}
    (hb : Emits body.run Q) (hr : Emits release Q) : Emits (owning release body).run Q := by
  refine Emits.bind hb fun x => ?_
  cases x with
  | ok a => exact emits_pure _
  | error e => exact hr.bind fun _ => emits_pure _

theorem emits_repeating {body : σ → ExceptT ε (Prog I) (σ ⊕ β)} (h : ∀ s, Emits (body s).run Q)
    (s : σ) : Emits (repeating body s).run Q :=
  emits_loop (fun s => (h s).map _) s

theorem Emits.mono {p : Prog I α} {R : Event I → Prop} (hp : Emits p Q) (h : ∀ e, Q e → R e) :
    Emits p R :=
  fun t begun e member => h e (hp t begun e member)

/-- A program none of whose calls touches a handle is neutral. -/
theorem Emits.neutral {H : Type} [DecidableEq H] {effect : Event I → Effect H} {p : Prog I α}
    (quiet : Emits p (effect · = .none)) : Neutral effect p := by
  intro L M t a N start run steps
  subst start
  exact steps_of_quiet effect t (quiet.runs t a run) M N steps

/-! ### Events that some run has -/

/-- Some run of `p` has an event that satisfies `Q`. -/
def MayEmit (p : Prog I α) (Q : Event I → Prop) : Prop := ∃ t a, Runs p t a ∧ ∃ e ∈ t, Q e

theorem MayEmit.after {p : ExceptT ε (Prog I) α} {f : α → ExceptT ε (Prog I) β} {u : Trace I}
    {a : α} (first : Runs p.run u (.ok a)) (rest : MayEmit (f a).run Q) :
    MayEmit (p >>= f).run Q := by
  obtain ⟨v, y, run, e, member, holds⟩ := rest
  exact ⟨u ++ v, y, first.run_bind run, e, List.mem_append_right u member, holds⟩

theorem MayEmit.owning {release : Prog I Unit} {body : ExceptT ε (Prog I) α} {u : Trace I}
    (ends : Runs release u ()) (inner : MayEmit body.run Q) :
    MayEmit (owning release body).run Q := by
  obtain ⟨t, y, run, e, member, holds⟩ := inner
  cases y with
  | ok a => exact ⟨t, _, run.owning release, e, member, holds⟩
  | error x => exact ⟨t ++ u, _, run.owning_error ends, e, List.mem_append_left u member, holds⟩

end Interaction
