import IoBluetooth.Interaction.Events

/-!
# Monitors

A monitor reads the events of a program one by one and keeps a state of its own. A program
obeys it if the monitor accepts every event of every run, finished or not, as long as the
replies are ones that the environment may give. The rules follow the program.
-/
namespace Interaction

variable {I : Interface} {M N α β σ ε : Type}

/-- The state after an event, or nothing where the event is not accepted. -/
abbrev Monitor (I : Interface) (M : Type) := M → Event I → Option M

def Monitor.read (δ : Monitor I M) (m : M) (t : Trace I) : Option M := t.foldlM δ m

section Read

variable (δ : Monitor I M) (m n : M)

theorem Monitor.read_nil : δ.read m [] = some n ↔ n = m := by
  change some m = some n ↔ n = m
  rw [Option.some.injEq, eq_comm]

theorem Monitor.read_cons (e : Event I) (t : Trace I) :
    δ.read m (e :: t) = some n ↔ ∃ o, δ m e = some o ∧ δ.read o t = some n := by
  rw [read, List.foldlM_cons]
  exact Option.bind_eq_some_iff

theorem Monitor.read_append (t u : Trace I) :
    δ.read m (t ++ u) = some n ↔ ∃ o, δ.read m t = some o ∧ δ.read o u = some n := by
  rw [read, List.foldlM_append]
  exact Option.bind_eq_some_iff

theorem Monitor.read_singleton (e : Event I) : δ.read m [e] = some n ↔ δ m e = some n := by
  simp only [read_cons, read_nil]
  exact ⟨fun ⟨o, he, same⟩ => same ▸ he, fun he => ⟨n, he, rfl⟩⟩

end Read

/-- Begun at `m` in an environment whose replies satisfy `A`, `p` makes no event that the monitor
does not accept, and where it returns the monitor is at a state that satisfies `Q`. -/
structure Obeys (A : Event I → Prop) (δ : Monitor I M) (m : M) (p : Prog I α)
    (Q : α → M → Prop) : Prop where
  accepts : ∀ t, Begins p t → (∀ e ∈ t, A e) → ∃ n, δ.read m t = some n
  ends : ∀ t a, Runs p t a → (∀ e ∈ t, A e) → ∃ n, δ.read m t = some n ∧ Q a n

section Rules

variable {A : Event I → Prop} {δ : Monitor I M} {m : M}

theorem Obeys.mono {p : Prog I α} {Q R : α → M → Prop} (h : Obeys A δ m p Q)
    (post : ∀ a n, Q a n → R a n) : Obeys A δ m p R where
  accepts := h.accepts
  ends t a run allowed := by
    obtain ⟨n, read, holds⟩ := h.ends t a run allowed
    exact ⟨n, read, post a n holds⟩

theorem obeys_pure (a : α) {Q : α → M → Prop} (holds : Q a m) :
    Obeys A δ m (pure a : Prog I α) Q where
  accepts := by
    rintro _ rfl _
    exact ⟨m, rfl⟩
  ends := by
    rintro _ _ ⟨rfl, rfl⟩ _
    exact ⟨m, rfl, holds⟩

theorem obeys_perform (c : I.Call) {Q : I.Reply c → M → Prop}
    (accepted : ∀ r, A ⟨c, r⟩ → ∃ n, δ m ⟨c, r⟩ = some n ∧ Q r n) :
    Obeys A δ m (Prog.perform c) Q where
  accepts := by
    rintro _ (rfl | ⟨r, _, rfl, rfl⟩) allowed
    · exact ⟨m, rfl⟩
    · obtain ⟨n, next, _⟩ := accepted r (allowed _ List.mem_cons_self)
      exact ⟨n, (δ.read_singleton m n _).mpr next⟩
  ends t r run allowed := by
    rw [runs_perform] at run
    subst run
    obtain ⟨n, next, holds⟩ := accepted r (allowed _ List.mem_cons_self)
    exact ⟨n, (δ.read_singleton m n _).mpr next, holds⟩

theorem Obeys.bind {p : Prog I α} {f : α → Prog I β} {R : α → M → Prop} {Q : β → M → Prop}
    (hp : Obeys A δ m p R) (hf : ∀ a n, R a n → Obeys A δ n (f a) Q) :
    Obeys A δ m (p >>= f) Q where
  accepts t begun allowed := by
    rcases begins_bind p f t begun with first | ⟨u, v, a, rfl, run, rest⟩
    · exact hp.accepts t first allowed
    · rw [List.forall_mem_append] at allowed
      obtain ⟨n, before, holds⟩ := hp.ends u a run allowed.1
      obtain ⟨o, after⟩ := (hf a n holds).accepts v rest allowed.2
      exact ⟨o, (δ.read_append m o u v).mpr ⟨n, before, after⟩⟩
  ends t b run allowed := by
    obtain ⟨u, v, a, rfl, first, rest⟩ := (runs_bind p f t b).mp run
    rw [List.forall_mem_append] at allowed
    obtain ⟨n, before, holds⟩ := hp.ends u a first allowed.1
    obtain ⟨o, after, last⟩ := (hf a n holds).ends v b rest allowed.2
    exact ⟨o, (δ.read_append m o u v).mpr ⟨n, before, after⟩, last⟩

theorem Obeys.map {p : Prog I α} {Q : β → M → Prop} (f : α → β)
    (h : Obeys A δ m p fun a n => Q (f a) n) : Obeys A δ m (f <$> p) Q := by
  rw [← bind_pure_comp]
  exact h.bind fun a n holds => obeys_pure (f a) holds

/-- The loop rule: every round keeps the invariant, or is the last. -/
theorem obeys_loop {body : σ → Prog I (σ ⊕ β)} {Q : β → M → Prop} (inv : σ → M → Prop)
    (round : ∀ s m, inv s m → Obeys A δ m (body s) fun x n => match x with
      | .inl s' => inv s' n
      | .inr b => Q b n)
    (s : σ) (start : inv s m) : Obeys A δ m (Prog.loop body s) Q where
  accepts t begun := by
    suffices ∀ m, inv s m → (∀ e ∈ t, A e) → ∃ n, δ.read m t = some n from this m start
    refine begins_loop_induction ?_ ?_ s t begun
    · intro s t first m start
      exact (round s m start).accepts t first
    · intro s s' t u run ih m start allowed
      rw [List.forall_mem_append] at allowed
      obtain ⟨n, before, kept⟩ := (round s m start).ends t _ run allowed.1
      obtain ⟨o, after⟩ := ih n kept allowed.2
      exact ⟨o, (δ.read_append m o t u).mpr ⟨n, before, after⟩⟩
  ends t b run := by
    suffices ∀ m, inv s m → (∀ e ∈ t, A e) → ∃ n, δ.read m t = some n ∧ Q b n from this m start
    refine runs_loop_induction ?_ ?_ s t b run
    · intro s t b last m start
      exact (round s m start).ends t _ last
    · intro s s' t u b run _ ih m start allowed
      rw [List.forall_mem_append] at allowed
      obtain ⟨n, before, kept⟩ := (round s m start).ends t _ run allowed.1
      obtain ⟨o, after, holds⟩ := ih n kept allowed.2
      exact ⟨o, (δ.read_append m o t u).mpr ⟨n, before, after⟩, holds⟩

/-- A program none of whose events moves the monitor. -/
theorem Emits.obeys {p : Prog I α} (still : Emits p fun e => δ m e = some m) :
    Obeys A δ m p fun _ n => n = m := by
  have reads (t : Trace I) (events : ∀ e ∈ t, δ m e = some m) : δ.read m t = some m := by
    induction t with
    | nil => rfl
    | cons e t ih =>
      rw [List.forall_mem_cons] at events
      exact (δ.read_cons m m e t).mpr ⟨m, events.1, ih events.2⟩
  exact ⟨fun t begun _ => ⟨m, reads t (still t begun)⟩,
    fun t a run _ => ⟨m, reads t (still.runs t a run), rfl⟩⟩

/-! ### Programs that may fail -/

theorem obeys_run_pure (a : α) {Q : Except ε α → M → Prop} (holds : Q (.ok a) m) :
    Obeys A δ m (pure a : ExceptT ε (Prog I) α).run Q := obeys_pure (Except.ok a) holds

theorem obeys_run_throw (e : ε) {Q : Except ε α → M → Prop} (holds : Q (.error e) m) :
    Obeys A δ m (throw e : ExceptT ε (Prog I) α).run Q := obeys_pure (Except.error e) holds

theorem Obeys.run_bind {p : ExceptT ε (Prog I) α} {f : α → ExceptT ε (Prog I) β}
    {R : Except ε α → M → Prop} {Q : Except ε β → M → Prop} (hp : Obeys A δ m p.run R)
    (ok : ∀ a n, R (.ok a) n → Obeys A δ n (f a).run Q)
    (error : ∀ e n, R (.error e) n → Q (.error e) n) : Obeys A δ m (p >>= f).run Q := by
  rw [ExceptT.run_bind]
  refine hp.bind fun x n holds => ?_
  cases x with
  | ok a => exact ok a n holds
  | error e => exact obeys_pure _ (error e n holds)

theorem obeys_lift {p : Prog I α} {Q : Except ε α → M → Prop}
    (h : Obeys A δ m p fun a n => Q (.ok a) n) :
    Obeys A δ m (ExceptT.lift p : ExceptT ε (Prog I) α).run Q := by
  rw [ExceptT.run_lift]
  exact h.map _

theorem Obeys.lift_bind {p : Prog I α} {f : α → ExceptT ε (Prog I) β} {R : α → M → Prop}
    {Q : Except ε β → M → Prop} (hp : Obeys A δ m p R)
    (hf : ∀ a n, R a n → Obeys A δ n (f a).run Q) :
    Obeys A δ m (ExceptT.lift p >>= f).run Q := by
  refine Obeys.run_bind (@obeys_lift _ _ _ _ _ _ _ _ (fun x n => ∃ a, x = .ok a ∧ R a n) ?_) ?_ ?_
  · exact hp.mono fun a n holds => ⟨a, rfl, holds⟩
  · rintro a n ⟨_, eq, holds⟩
    cases eq
    exact hf a n holds
  · rintro e n ⟨_, eq, _⟩
    cases eq

/-- What is released where the body fails is released from where the failure left it. -/
theorem obeys_owning {release : Prog I Unit} {body : ExceptT ε (Prog I) α}
    {R Q : Except ε α → M → Prop} (hb : Obeys A δ m body.run R)
    (ok : ∀ a n, R (.ok a) n → Q (.ok a) n)
    (error : ∀ e n, R (.error e) n → Obeys A δ n release fun _ o => Q (.error e) o) :
    Obeys A δ m (owning release body).run Q := by
  refine Obeys.bind hb fun x n holds => ?_
  cases x with
  | ok a => exact obeys_pure _ (ok a n holds)
  | error e => exact (error e n holds).bind fun _ o last => obeys_pure _ last

theorem obeys_repeating {body : σ → ExceptT ε (Prog I) (σ ⊕ β)} {Q : Except ε β → M → Prop}
    (inv : σ → M → Prop)
    (round : ∀ s m, inv s m → Obeys A δ m (body s).run fun x n => match x with
      | .ok (.inl s') => inv s' n
      | .ok (.inr b) => Q (.ok b) n
      | .error e => Q (.error e) n)
    (s : σ) (start : inv s m) : Obeys A δ m (repeating body s).run Q := by
  refine obeys_loop inv (fun s m kept => ?_) s start
  refine Obeys.map _ ((round s m kept).mono fun x n holds => ?_)
  match x with
  | .ok (.inl s') => exact holds
  | .ok (.inr b) => exact holds
  | .error e => exact holds

end Rules

/-- What is returned is what a run returns. -/
theorem Obeys.ran {A : Event I → Prop} {δ : Monitor I M} {m : M} {p : Prog I α}
    {Q : α → M → Prop} (h : Obeys A δ m p Q) :
    Obeys A δ m p fun a n => Q a n ∧ ∃ t, Runs p t a where
  accepts := h.accepts
  ends t a run allowed := by
    obtain ⟨n, read, holds⟩ := h.ends t a run allowed
    exact ⟨n, read, holds, t, run⟩

/-- The monitor that lets calls of one kind through. -/
def only (kind : I.Call → Bool) : Monitor I M := fun m e => if kind e.call then some m else none

theorem only_eq_some {kind : I.Call → Bool} {m n : M} {e : Event I} :
    only kind m e = some n ↔ kind e.call = true ∧ m = n := by
  rw [only, Option.ite_none_right_eq_some, Option.some.injEq]

theorem Emits.only {A : Event I → Prop} {kind : I.Call → Bool} {p : Prog I α}
    (emits : Emits p fun e => kind e.call = true) (m : M) :
    Obeys A (Interaction.only kind) m p fun _ n => n = m :=
  (emits.mono fun _ on => only_eq_some.mpr ⟨on, rfl⟩).obeys

/-! ### Two monitors at once -/

def Monitor.both (δ : Monitor I M) (δ' : Monitor I N) : Monitor I (M × N) := fun s e =>
  (δ s.1 e).bind fun m => (δ' s.2 e).map (m, ·)

theorem Monitor.both_eq_some (δ : Monitor I M) (δ' : Monitor I N) (s s' : M × N) (e : Event I) :
    δ.both δ' s e = some s' ↔ δ s.1 e = some s'.1 ∧ δ' s.2 e = some s'.2 := by
  simp only [both, Option.bind_eq_some_iff, Option.map_eq_some_iff]
  constructor
  · rintro ⟨m, first, n, second, rfl⟩
    exact ⟨first, second⟩
  · rintro ⟨first, second⟩
    exact ⟨s'.1, first, s'.2, second, rfl⟩

theorem Monitor.read_both (δ : Monitor I M) (δ' : Monitor I N) (t : Trace I) (s s' : M × N) :
    (δ.both δ').read s t = some s' ↔ δ.read s.1 t = some s'.1 ∧ δ'.read s.2 t = some s'.2 := by
  induction t generalizing s with
  | nil => simp only [read_nil, Prod.ext_iff]
  | cons e t ih =>
    simp only [read_cons, ih, both_eq_some]
    constructor
    · rintro ⟨o, ⟨first, first'⟩, rest, rest'⟩
      exact ⟨⟨o.1, first, rest⟩, o.2, first', rest'⟩
    · rintro ⟨⟨o, first, rest⟩, o', first', rest'⟩
      exact ⟨(o, o'), ⟨first, first'⟩, rest, rest'⟩

theorem Obeys.both {A : Event I → Prop} {δ : Monitor I M} {δ' : Monitor I N} {s : M × N}
    {p : Prog I α} {Q : α → M → Prop} {Q' : α → N → Prop} (h : Obeys A δ s.1 p Q)
    (h' : Obeys A δ' s.2 p Q') : Obeys A (δ.both δ') s p fun a n => Q a n.1 ∧ Q' a n.2 where
  accepts t begun allowed := by
    obtain ⟨n, read⟩ := h.accepts t begun allowed
    obtain ⟨n', read'⟩ := h'.accepts t begun allowed
    exact ⟨(n, n'), (δ.read_both δ' t s _).mpr ⟨read, read'⟩⟩
  ends t a run allowed := by
    obtain ⟨n, read, holds⟩ := h.ends t a run allowed
    obtain ⟨n', read', holds'⟩ := h'.ends t a run allowed
    exact ⟨(n, n'), (δ.read_both δ' t s _).mpr ⟨read, read'⟩, holds, holds'⟩

end Interaction
