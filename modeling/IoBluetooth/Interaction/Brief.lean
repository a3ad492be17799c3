import IoBluetooth.Interaction.Events

/-!
# Programs of at most one call

Such a program goes by the one reply that it gets, or makes no call at all. What it returns is
known as soon as the call is replied to.
-/
namespace Interaction

variable {I : Interface} {α β ε : Type}

/-- Nothing is left to be done. -/
def Still (p : Prog I α) : Prop := ∃ a, p = pure a

/-- A program that makes a call of a kind `on` and goes by the reply, or makes none. -/
inductive Brief (on : I.Call → Prop) : Prog I α → Prop
  | still {p} : Still p → Brief on p
  | call (c : I.Call) {k : I.Reply c → Prog I α} : on c → (∀ r, Still (k r)) →
      Brief on (Prog.perform c >>= k)

theorem runs_perform_bind (c : I.Call) (k : I.Reply c → Prog I α) (t : Trace I) (a : α) :
    Runs (Prog.perform c >>= k) t a ↔ ∃ r u, t = ⟨c, r⟩ :: u ∧ Runs (k r) u a := Iff.rfl

namespace Brief

variable {on : I.Call → Prop} {p : Prog I α} {t : Trace I} {a b : α}

theorem unique (brief : Brief on p) (run : Runs p t a) (run' : Runs p t b) : a = b := by
  cases brief with
  | still still =>
    obtain ⟨x, rfl⟩ := still
    exact run.2.trans run'.2.symm
  | call c _ still =>
    obtain ⟨r, u, rfl, rest⟩ := (runs_perform_bind _ _ _ _).mp run
    obtain ⟨r', u', same, rest'⟩ := (runs_perform_bind _ _ _ _).mp run'
    cases same
    obtain ⟨x, eq⟩ := still r
    rw [eq] at rest rest'
    exact rest.2.trans rest'.2.symm

theorem begins (brief : Brief on p) (begun : Begins p t) :
    t = [] ∨ ∃ e a, t = [e] ∧ on e.call ∧ Runs p [e] a := by
  cases brief with
  | still still =>
    obtain ⟨x, rfl⟩ := still
    exact Or.inl begun
  | @call c k kind still =>
    rcases begun with rfl | ⟨r, u, rfl, rest⟩
    · exact Or.inl rfl
    · obtain ⟨x, eq⟩ := still r
      have ended : Begins (k r) u := rest
      rw [eq] at ended
      cases ended
      have done : Runs (k r) [] x := by
        rw [eq]
        exact ⟨rfl, rfl⟩
      exact Or.inr ⟨_, x, rfl, kind, r, [], rfl, done⟩

theorem mono {on' : I.Call → Prop} (brief : Brief on p) (sub : ∀ c, on c → on' c) : Brief on' p := by
  cases brief with
  | still still => exact .still still
  | call c kind still => exact .call c (sub c kind) still

theorem emits (brief : Brief on p) : Emits p fun e => on e.call := by
  intro t begun e member
  rcases brief.begins begun with rfl | ⟨e', a, rfl, kind, _⟩
  · cases member
  · cases List.mem_singleton.mp member
    exact kind

end Brief

/-! ### Programs that may fail -/

variable {on : I.Call → Prop}

theorem still_run_pure (a : α) : Still (pure a : ExceptT ε (Prog I) α).run := ⟨.ok a, rfl⟩

theorem still_run_throw (e : ε) : Still (throw e : ExceptT ε (Prog I) α).run := ⟨.error e, rfl⟩

theorem Still.run_bind {p : ExceptT ε (Prog I) α} {f : α → ExceptT ε (Prog I) β}
    (hp : Still p.run) (hf : ∀ a, Still (f a).run) : Still (p >>= f).run := by
  obtain ⟨x, eq⟩ := hp
  rw [ExceptT.run_bind, eq, pure_bind]
  cases x with
  | ok a => exact hf a
  | error e => exact ⟨.error e, rfl⟩

theorem Brief.run_bind {p : ExceptT ε (Prog I) α} {f : α → ExceptT ε (Prog I) β}
    (hp : Brief on p.run) (hf : ∀ a, Still (f a).run) : Brief on (p >>= f).run := by
  rw [ExceptT.run_bind]
  generalize p.run = p at hp
  cases hp with
  | still hp => exact .still (Still.run_bind hp hf)
  | call c kind hk =>
    rw [bind_assoc]
    exact .call c kind fun r => Still.run_bind (hk r) hf

/-- What comes before the call makes none. -/
theorem Still.run_bind_brief {p : ExceptT ε (Prog I) α} {f : α → ExceptT ε (Prog I) β}
    (hp : Still p.run) (hf : ∀ a, Brief on (f a).run) : Brief on (p >>= f).run := by
  obtain ⟨x, eq⟩ := hp
  rw [ExceptT.run_bind, eq, pure_bind]
  cases x with
  | ok a => exact hf a
  | error e => exact .still ⟨.error e, rfl⟩

end Interaction
