import Mathlib.Control.Basic

/-!
# Programs that talk to an environment

A program issues calls and continues with the reply it gets to each. Loops are a
constructor of their own, so a program needs no fuel. A run of a program is the
list of calls and replies it made together with the value it returned; a loop
that has not returned has no run.
-/
namespace Interaction

/-- The calls a program may make and the type of the reply to each. -/
structure Interface where
  Call : Type
  Reply : Call → Type

/-- One call together with the reply it got. -/
structure Event (I : Interface) where
  call : I.Call
  reply : I.Reply call

abbrev Trace (I : Interface) := List (Event I)

inductive Prog (I : Interface) : Type → Type 1 where
  | ret {α : Type} (a : α) : Prog I α
  | call {α : Type} (c : I.Call) (k : I.Reply c → Prog I α) : Prog I α
  | iter {σ β α : Type} (body : σ → Prog I (σ ⊕ β)) (s : σ) (k : β → Prog I α) : Prog I α

variable {I : Interface} {α β γ σ : Type}

namespace Prog

def bind {α β : Type} : Prog I α → (α → Prog I β) → Prog I β
  | .ret a, f => f a
  | .call c k, f => .call c fun r => (k r).bind f
  | .iter body s k, f => .iter body s fun b => (k b).bind f

instance : Monad (Prog I) where
  pure := .ret
  bind := bind

theorem bind_ret (p : Prog I α) : p.bind .ret = p := by
  induction p with
  | ret a => rfl
  | call c k ih => simp only [bind, ih]
  | iter body s k _ ih => simp only [bind, ih]

theorem bind_assoc (p : Prog I α) (f : α → Prog I β) (g : β → Prog I γ) :
    (p.bind f).bind g = p.bind fun a => (f a).bind g := by
  induction p with
  | ret a => rfl
  | call c k ih => simp only [bind, ih]
  | iter body s k _ ih => simp only [bind, ih]

instance : LawfulMonad (Prog I) :=
  LawfulMonad.mk' (Prog I) bind_ret (fun _ _ => rfl) bind_assoc

/-- Issue one call and return its reply. -/
def perform (c : I.Call) : Prog I (I.Reply c) := .call c .ret

/-- Repeat `body` until it returns a final value. -/
def loop (body : σ → Prog I (σ ⊕ β)) (s : σ) : Prog I β := .iter body s .ret

end Prog

/-! ### Runs -/

/-- Finitely many rounds of a loop whose single round is related by `R`. -/
inductive Rounds (R : σ → Trace I → σ ⊕ β → Prop) : σ → Trace I → β → Prop
  | done {s t b} : R s t (.inr b) → Rounds R s t b
  | again {s s' t u b} : R s t (.inl s') → Rounds R s' u b → Rounds R s (t ++ u) b

/-- `Runs p t a`: replied to as `t` records, `p` makes the calls of `t` and returns `a`. -/
def Runs {α : Type} : Prog I α → Trace I → α → Prop
  | .ret a, t, x => t = [] ∧ x = a
  | .call c k, t, x => ∃ r u, t = ⟨c, r⟩ :: u ∧ Runs (k r) u x
  | .iter body s k, t, x =>
    ∃ u v b, t = u ++ v ∧ Rounds (fun s => Runs (body s)) s u b ∧ Runs (k b) v x

theorem runs_pure (a x : α) (t : Trace I) :
    Runs (pure a : Prog I α) t x ↔ t = [] ∧ x = a := Iff.rfl

theorem runs_perform (c : I.Call) (t : Trace I) (x : I.Reply c) :
    Runs (Prog.perform c) t x ↔ t = [⟨c, x⟩] := by
  simp only [Prog.perform, Runs]
  constructor
  · rintro ⟨r, u, rfl, rfl, rfl⟩
    rfl
  · rintro rfl
    exact ⟨x, [], rfl, rfl, rfl⟩

/-- A run of a sequence is a run of the first part followed by one of the second. -/
theorem runs_bind (p : Prog I α) (f : α → Prog I β) (t : Trace I) (y : β) :
    Runs (p >>= f) t y ↔ ∃ u v a, t = u ++ v ∧ Runs p u a ∧ Runs (f a) v y := by
  change Runs (p.bind f) t y ↔ _
  induction p generalizing t y with
  | ret a =>
    constructor
    · intro h
      exact ⟨[], t, a, rfl, ⟨rfl, rfl⟩, h⟩
    · rintro ⟨u, v, x, rfl, ⟨rfl, rfl⟩, h⟩
      exact h
  | call c k ih =>
    simp only [Prog.bind, Runs, ih]
    constructor
    · rintro ⟨r, _, rfl, u, v, a, rfl, hp, hf⟩
      exact ⟨_, v, a, rfl, ⟨r, u, rfl, hp⟩, hf⟩
    · rintro ⟨_, v, a, rfl, ⟨r, u, rfl, hp⟩, hf⟩
      exact ⟨r, u ++ v, rfl, u, v, a, rfl, hp, hf⟩
  | iter body s k _ ih =>
    simp only [Prog.bind, Runs, ih]
    constructor
    · rintro ⟨u, _, b, rfl, hl, v, w, a, rfl, hp, hf⟩
      exact ⟨u ++ v, w, a, (List.append_assoc u v w).symm, ⟨u, v, b, rfl, hl, hp⟩, hf⟩
    · rintro ⟨_, w, a, rfl, ⟨u, v, b, rfl, hl, hp⟩, hf⟩
      exact ⟨u, v ++ w, b, List.append_assoc u v w, hl, v, w, a, rfl, hp, hf⟩

theorem runs_loop (body : σ → Prog I (σ ⊕ β)) (s : σ) (t : Trace I) (b : β) :
    Runs (Prog.loop body s) t b ↔ Rounds (fun s => Runs (body s)) s t b := by
  simp only [Prog.loop, Runs]
  constructor
  · rintro ⟨u, v, b', rfl, h, rfl, rfl⟩
    rwa [List.append_nil]
  · intro h
    exact ⟨t, [], b, (List.append_nil t).symm, h, rfl, rfl⟩

/-- One unrolling of a loop. -/
theorem runs_loop_iff (body : σ → Prog I (σ ⊕ β)) (s : σ) (t : Trace I) (b : β) :
    Runs (Prog.loop body s) t b ↔ Runs (body s) t (.inr b) ∨
      ∃ s' u v, t = u ++ v ∧ Runs (body s) u (.inl s') ∧ Runs (Prog.loop body s') v b := by
  simp only [runs_loop]
  constructor
  · intro h
    cases h with
    | done h => exact Or.inl h
    | again h rest => exact Or.inr ⟨_, _, _, rfl, h, rest⟩
  · rintro (h | ⟨s', u, v, rfl, h, rest⟩)
    · exact .done h
    · exact .again h rest

/-- Induction over the rounds of a loop that returned. -/
@[elab_as_elim]
theorem runs_loop_induction {body : σ → Prog I (σ ⊕ β)} {P : σ → Trace I → β → Prop}
    (done : ∀ s t b, Runs (body s) t (.inr b) → P s t b)
    (again : ∀ s s' t u b, Runs (body s) t (.inl s') → Runs (Prog.loop body s') u b →
      P s' u b → P s (t ++ u) b)
    (s : σ) (t : Trace I) (b : β) (h : Runs (Prog.loop body s) t b) : P s t b := by
  rw [runs_loop] at h
  induction h with
  | done h => exact done _ _ _ h
  | again h rest ih => exact again _ _ _ _ _ h ((runs_loop _ _ _ _).mpr rest) ih

/-! ### Unfinished runs -/

/-- Finitely many rounds of a loop, and the beginning of one more. -/
inductive Started (R : σ → Trace I → σ ⊕ β → Prop) (B : σ → Trace I → Prop) : σ → Trace I → Prop
  | inside {s t} : B s t → Started R B s t
  | again {s s' t u} : R s t (.inl s') → Started R B s' u → Started R B s (t ++ u)

/-- `Begins p t`: replied to as `t` records, `p` makes the calls of `t` first. It may be about
to make more of them, and need never return. -/
def Begins {α : Type} : Prog I α → Trace I → Prop
  | .ret _, t => t = []
  | .call c k, t => t = [] ∨ ∃ r u, t = ⟨c, r⟩ :: u ∧ Begins (k r) u
  | .iter body s k, t =>
    Started (fun s => Runs (body s)) (fun s => Begins (body s)) s t ∨
      ∃ u v b, t = u ++ v ∧ Rounds (fun s => Runs (body s)) s u b ∧ Begins (k b) v

/-- A run that returned began. -/
theorem Runs.begins {p : Prog I α} {t : Trace I} {a : α} (run : Runs p t a) : Begins p t := by
  induction p generalizing t with
  | ret b => exact run.1
  | call c k ih =>
    obtain ⟨r, u, rfl, rest⟩ := run
    exact Or.inr ⟨r, u, rfl, ih r rest⟩
  | iter body s k _ ih =>
    obtain ⟨u, v, b, rfl, rounds, rest⟩ := run
    exact Or.inr ⟨u, v, b, rfl, rounds, ih b rest⟩

theorem Started.of_append {R : σ → Trace I → σ ⊕ β → Prop} {B : σ → Trace I → Prop}
    (inside : ∀ s t u, B s (t ++ u) → B s t) (round : ∀ s t x, R s t x → B s t) {s : σ}
    {t u : Trace I} (started : Started R B s (t ++ u)) : Started R B s t := by
  generalize whole : t ++ u = w at started
  induction started generalizing t u with
  | inside first =>
    subst whole
    exact .inside (inside _ t u first)
  | @again s s' v x first rest ih =>
    rcases List.append_eq_append_iff.mp whole with ⟨y, rfl, rfl⟩ | ⟨y, rfl, rfl⟩
    · exact .inside (inside s t y (round _ _ _ first))
    · exact .again first (ih rfl)

theorem Rounds.started {R : σ → Trace I → σ ⊕ β → Prop} {B : σ → Trace I → Prop}
    (round : ∀ s t x, R s t x → B s t) {s : σ} {t : Trace I} {b : β} (rounds : Rounds R s t b) :
    Started R B s t := by
  induction rounds with
  | done last => exact .inside (round _ _ _ last)
  | again first _ ih => exact .again first ih

/-- What a program began with, it began with earlier. -/
theorem Begins.of_append {p : Prog I α} {t u : Trace I} (begun : Begins p (t ++ u)) :
    Begins p t := by
  induction p generalizing t u with
  | ret a => exact (List.append_eq_nil_iff.mp begun).1
  | call c k ih =>
    cases t with
    | nil => exact Or.inl rfl
    | cons e t =>
      rcases begun with nothing | ⟨r, v, eq, rest⟩
      · cases nothing
      · cases eq
        exact Or.inr ⟨r, t, rfl, ih r rest⟩
  | iter body s k ihb ihk =>
    have inside (s) (t u : Trace I) (begun : Begins (body s) (t ++ u)) : Begins (body s) t :=
      ihb s begun
    have round (s) (t : Trace I) (x) (run : Runs (body s) t x) : Begins (body s) t := run.begins
    rcases begun with started | ⟨v, w, b, eq, rounds, rest⟩
    · exact Or.inl (started.of_append inside round)
    · rcases List.append_eq_append_iff.mp eq with ⟨y, rfl, rfl⟩ | ⟨y, rfl, rfl⟩
      · exact Or.inl ((rounds.started round).of_append inside round)
      · exact Or.inr ⟨v, y, b, rfl, rounds, ihk b rest⟩

theorem begins_bind (p : Prog I α) (f : α → Prog I β) (t : Trace I) (h : Begins (p >>= f) t) :
    Begins p t ∨ ∃ u v a, t = u ++ v ∧ Runs p u a ∧ Begins (f a) v := by
  change Begins (p.bind f) t at h
  induction p generalizing t with
  | ret a => exact Or.inr ⟨[], t, a, rfl, ⟨rfl, rfl⟩, h⟩
  | call c k ih =>
    rcases h with rfl | ⟨r, u, rfl, h⟩
    · -- nothing was called yet
      exact Or.inl (Or.inl rfl)
    · rcases ih r f u h with first | ⟨v, w, a, rfl, run, rest⟩
      · exact Or.inl (Or.inr ⟨r, u, rfl, first⟩)
      · exact Or.inr ⟨⟨c, r⟩ :: v, w, a, rfl, ⟨r, v, rfl, run⟩, rest⟩
  | iter body s k _ ih =>
    rcases h with inside | ⟨u, v, b, rfl, rounds, h⟩
    · -- the loop has not come to an end
      exact Or.inl (Or.inl inside)
    · rcases ih b f v h with first | ⟨w, x, a, rfl, run, rest⟩
      · exact Or.inl (Or.inr ⟨u, v, b, rfl, rounds, first⟩)
      · exact Or.inr ⟨u ++ w, x, a, (List.append_assoc u w x).symm, ⟨u, w, b, rfl, rounds, run⟩,
          rest⟩

/-- Induction over the rounds of a loop that began. -/
@[elab_as_elim]
theorem begins_loop_induction {body : σ → Prog I (σ ⊕ β)} {P : σ → Trace I → Prop}
    (inside : ∀ s t, Begins (body s) t → P s t)
    (again : ∀ s s' t u, Runs (body s) t (.inl s') → P s' u → P s (t ++ u))
    (s : σ) (t : Trace I) (h : Begins (Prog.loop body s) t) : P s t := by
  rcases h with started | ⟨u, _, b, rfl, rounds, rfl⟩
  · induction started with
    | inside first => exact inside _ _ first
    | again round _ ih => exact again _ _ _ _ round ih
  · -- the loop has returned, so its last round is the one that began
    rw [List.append_nil]
    induction rounds with
    | done last => exact inside _ _ last.begins
    | again round _ ih => exact again _ _ _ _ round ih

/-! ### Programs that may fail -/

variable {ε : Type}

/-- A sequence fails where its first part does, with nothing more said to the environment. -/
theorem runs_run_bind (p : ExceptT ε (Prog I) α) (f : α → ExceptT ε (Prog I) β) (t : Trace I)
    (y : Except ε β) :
    Runs (p >>= f).run t y ↔
      (∃ e, Runs p.run t (.error e) ∧ y = .error e) ∨
      ∃ u v a, t = u ++ v ∧ Runs p.run u (.ok a) ∧ Runs (f a).run v y := by
  rw [ExceptT.run_bind, runs_bind]
  constructor
  · rintro ⟨u, v, a, rfl, hp, hf⟩
    cases a with
    | error e =>
      obtain ⟨rfl, rfl⟩ := hf
      exact Or.inl ⟨e, by rwa [List.append_nil], rfl⟩
    | ok a => exact Or.inr ⟨u, v, a, rfl, hp, hf⟩
  · rintro (⟨e, hp, rfl⟩ | ⟨u, v, a, rfl, hp, hf⟩)
    · exact ⟨t, [], .error e, (List.append_nil t).symm, hp, rfl, rfl⟩
    · exact ⟨u, v, .ok a, rfl, hp, hf⟩

theorem Runs.run_bind {p : ExceptT ε (Prog I) α} {f : α → ExceptT ε (Prog I) β} {u v : Trace I}
    {a : α} {y : Except ε β} (first : Runs p.run u (.ok a)) (rest : Runs (f a).run v y) :
    Runs (p >>= f).run (u ++ v) y :=
  (runs_run_bind p f _ y).mpr (Or.inr ⟨u, v, a, rfl, first, rest⟩)

theorem Runs.run_bind_error {p : ExceptT ε (Prog I) α} {u : Trace I} {e : ε}
    (failed : Runs p.run u (.error e)) (f : α → ExceptT ε (Prog I) β) :
    Runs (p >>= f).run u (.error e) :=
  (runs_run_bind p f u _).mpr (Or.inl ⟨e, failed, rfl⟩)

theorem runs_run_pure (a : α) (t : Trace I) (y : Except ε α) :
    Runs (pure a : ExceptT ε (Prog I) α).run t y ↔ t = [] ∧ y = .ok a := Iff.rfl

theorem Runs.run_pure (a : α) : Runs (pure a : ExceptT ε (Prog I) α).run [] (.ok a) :=
  ⟨rfl, rfl⟩

theorem runs_run_throw (e : ε) (t : Trace I) (y : Except ε α) :
    Runs (throw e : ExceptT ε (Prog I) α).run t y ↔ t = [] ∧ y = .error e := Iff.rfl

theorem runs_map (f : α → β) (p : Prog I α) (t : Trace I) (y : β) :
    Runs (f <$> p) t y ↔ ∃ a, Runs p t a ∧ y = f a := by
  rw [← bind_pure_comp, runs_bind]
  constructor
  · rintro ⟨u, v, a, rfl, hp, rfl, rfl⟩
    exact ⟨a, by rwa [List.append_nil], rfl⟩
  · rintro ⟨a, hp, rfl⟩
    exact ⟨t, [], a, (List.append_nil t).symm, hp, rfl, rfl⟩

theorem runs_run_lift (p : Prog I α) (t : Trace I) (y : Except ε α) :
    Runs (ExceptT.lift p : ExceptT ε (Prog I) α).run t y ↔ ∃ a, Runs p t a ∧ y = .ok a := by
  rw [ExceptT.run_lift, runs_map]

theorem begins_map {f : α → β} {p : Prog I α} {t : Trace I} (begun : Begins (f <$> p) t) :
    Begins p t := by
  rw [← bind_pure_comp] at begun
  rcases begins_bind _ _ t begun with first | ⟨u, _, a, rfl, run, rfl⟩
  · exact first
  · rw [List.append_nil]
    exact run.begins

theorem begins_lift {p : Prog I α} {t : Trace I}
    (begun : Begins (ExceptT.lift p : ExceptT ε (Prog I) α).run t) : Begins p t := by
  rw [ExceptT.run_lift] at begun
  exact begins_map begun

/-- What `p` returns where it succeeds. -/
def Yields (p : ExceptT ε (Prog I) α) (R : α → Prop) : Prop := ∀ t a, Runs p.run t (.ok a) → R a

theorem yields_pure {R : α → Prop} (a : α) (holds : R a) :
    Yields (pure a : ExceptT ε (Prog I) α) R := by
  rintro t _ ⟨rfl, ⟨⟩⟩
  exact holds

theorem yields_throw {R : α → Prop} (e : ε) : Yields (throw e : ExceptT ε (Prog I) α) R := by
  rintro t _ ⟨_, ⟨⟩⟩

/-- The last part of a sequence decides what it returns. -/
theorem yields_bind {p : ExceptT ε (Prog I) α} {f : α → ExceptT ε (Prog I) β} {R : β → Prop}
    (last : ∀ a, Yields (f a) R) : Yields (p >>= f) R := by
  intro t b run
  rcases (runs_run_bind _ _ _ _).mp run with ⟨e, _, eq⟩ | ⟨u, v, a, rfl, _, rest⟩
  · cases eq
  · exact last a v b rest

/-- What `p` fails with where it fails. -/
def Fails (p : ExceptT ε (Prog I) α) (R : ε → Prop) : Prop :=
  ∀ t e, Runs p.run t (.error e) → R e

theorem fails_pure {R : ε → Prop} (a : α) : Fails (pure a : ExceptT ε (Prog I) α) R := by
  rintro t e ⟨_, eq⟩
  cases eq

theorem fails_throw {R : ε → Prop} (e : ε) (holds : R e) :
    Fails (throw e : ExceptT ε (Prog I) α) R := by
  rintro t _ ⟨_, ⟨⟩⟩
  exact holds

theorem fails_lift {R : ε → Prop} (p : Prog I α) :
    Fails (ExceptT.lift p : ExceptT ε (Prog I) α) R := by
  intro t e run
  obtain ⟨a, _, eq⟩ := (runs_run_lift p t _).mp run
  cases eq

theorem Fails.bind {p : ExceptT ε (Prog I) α} {f : α → ExceptT ε (Prog I) β} {R : ε → Prop}
    (hp : Fails p R) (hf : ∀ a, Fails (f a) R) : Fails (p >>= f) R := by
  intro t e run
  rcases (runs_run_bind p f t _).mp run with ⟨e', failed, eq⟩ | ⟨u, v, a, rfl, _, rest⟩
  · cases eq
    exact hp t e failed
  · exact hf a v e rest

/-- Run `body`; where it fails, run `release` before the failure is passed on. -/
def owning (release : Prog I Unit) (body : ExceptT ε (Prog I) α) : ExceptT ε (Prog I) α :=
  ExceptT.mk do
    match ← body.run with
    | .ok a => pure (.ok a)
    | .error e => do
      release
      pure (.error e)

theorem runs_owning (release : Prog I Unit) (body : ExceptT ε (Prog I) α) (t : Trace I)
    (y : Except ε α) :
    Runs (owning release body).run t y ↔
      (∃ a, Runs body.run t (.ok a) ∧ y = .ok a) ∨
      ∃ u v e, t = u ++ v ∧ Runs body.run u (.error e) ∧ Runs release v () ∧ y = .error e := by
  change Runs (body.run >>= _) t y ↔ _
  rw [runs_bind]
  constructor
  · rintro ⟨u, v, a, rfl, hb, hf⟩
    cases a with
    | ok a =>
      obtain ⟨rfl, rfl⟩ := hf
      exact Or.inl ⟨a, by rwa [List.append_nil], rfl⟩
    | error e =>
      -- the failure is passed on after `release`
      obtain ⟨v, w, ⟨⟩, rfl, hr, rfl, rfl⟩ := (runs_bind _ _ _ _).mp hf
      exact Or.inr ⟨u, v, e, by rw [List.append_nil], hb, hr, rfl⟩
  · rintro (⟨a, hb, rfl⟩ | ⟨u, v, e, rfl, hb, hr, rfl⟩)
    · exact ⟨t, [], .ok a, (List.append_nil t).symm, hb, rfl, rfl⟩
    · exact ⟨u, v, .error e, rfl, hb, (runs_bind _ _ _ _).mpr
        ⟨v, [], (), (List.append_nil v).symm, hr, rfl, rfl⟩⟩

theorem Yields.owning {body : ExceptT ε (Prog I) α} {R : α → Prop} (hb : Yields body R)
    (release : Prog I Unit) : Yields (owning release body) R := by
  intro t a run
  rcases (runs_owning release body t _).mp run with ⟨b, returned, eq⟩ | ⟨_, _, _, _, _, _, eq⟩
  · cases eq
    exact hb t a returned
  · cases eq

theorem Fails.owning {body : ExceptT ε (Prog I) α} {R : ε → Prop} (hb : Fails body R)
    (release : Prog I Unit) : Fails (owning release body) R := by
  intro t e run
  rcases (runs_owning release body t _).mp run with ⟨a, _, eq⟩ | ⟨u, v, e', _, failed, _, eq⟩
  · cases eq
  · cases eq
    exact hb u e failed

theorem Runs.owning {body : ExceptT ε (Prog I) α} {u : Trace I} {a : α}
    (run : Runs body.run u (.ok a)) (release : Prog I Unit) :
    Runs (owning release body).run u (.ok a) :=
  (runs_owning release body u _).mpr (Or.inl ⟨a, run, rfl⟩)

theorem Runs.owning_error {release : Prog I Unit} {body : ExceptT ε (Prog I) α} {u v : Trace I}
    {e : ε} (failed : Runs body.run u (.error e)) (last : Runs release v ()) :
    Runs (Interaction.owning release body).run (u ++ v) (.error e) :=
  (runs_owning release body _ _).mpr (Or.inr ⟨u, v, e, rfl, failed, last, rfl⟩)

/-! ### Loops that may fail -/

private def nextRound : Except ε (σ ⊕ β) → σ ⊕ Except ε β
  | .ok (.inl s) => .inl s
  | .ok (.inr b) => .inr (.ok b)
  | .error e => .inr (.error e)

/-- Repeat `body` until it returns a final value or fails. -/
def repeating (body : σ → ExceptT ε (Prog I) (σ ⊕ β)) (s : σ) : ExceptT ε (Prog I) β :=
  ExceptT.mk (Prog.loop (fun s => nextRound <$> (body s).run) s)

private theorem nextRound_inr (x : Except ε (σ ⊕ β)) (y : Except ε β) :
    .inr y = nextRound x ↔
      (∃ e, x = .error e ∧ y = .error e) ∨ ∃ b, x = .ok (.inr b) ∧ y = .ok b := by
  cases x with
  | error e => simp [nextRound]
  | ok r => cases r <;> simp [nextRound]

private theorem nextRound_inl (x : Except ε (σ ⊕ β)) (s : σ) :
    .inl s = nextRound x ↔ x = .ok (.inl s) := by
  cases x with
  | error e => simp [nextRound]
  | ok r => cases r <;> simp [nextRound, eq_comm]

/-- Induction over the rounds of a loop that failed or returned. -/
@[elab_as_elim]
theorem runs_repeating_induction {body : σ → ExceptT ε (Prog I) (σ ⊕ β)}
    {P : σ → Trace I → Except ε β → Prop}
    (failed : ∀ s t e, Runs (body s).run t (.error e) → P s t (.error e))
    (done : ∀ s t b, Runs (body s).run t (.ok (.inr b)) → P s t (.ok b))
    (again : ∀ s s' t u y, Runs (body s).run t (.ok (.inl s')) →
      Runs (repeating body s').run u y → P s' u y → P s (t ++ u) y)
    (s : σ) (t : Trace I) (y : Except ε β) (h : Runs (repeating body s).run t y) : P s t y := by
  refine runs_loop_induction ?_ ?_ s t y h
  · intro s t y h
    obtain ⟨x, hx, eq⟩ := (runs_map _ _ _ _).mp h
    rcases (nextRound_inr x y).mp eq with ⟨e, rfl, rfl⟩ | ⟨b, rfl, rfl⟩
    · exact failed s t e hx
    · exact done s t b hx
  · intro s s' t u y h rest ih
    obtain ⟨x, hx, eq⟩ := (runs_map _ _ _ _).mp h
    rw [nextRound_inl] at eq
    subst eq
    exact again s s' t u y hx rest ih

theorem fails_repeating {body : σ → ExceptT ε (Prog I) (σ ⊕ β)} {R : ε → Prop}
    (hb : ∀ s, Fails (body s) R) (s : σ) : Fails (repeating body s) R := by
  suffices ∀ t y, Runs (repeating body s).run t y → ∀ e, y = .error e → R e from
    fun t e run => this t _ run e rfl
  intro t y run
  refine runs_repeating_induction ?_ ?_ ?_ s t y run
  · rintro s t e failed _ ⟨⟩
    exact hb s t e failed
  · rintro s t b _ _ ⟨⟩
  · intro s s' t u y _ _ ih
    exact ih

/-- Induction over the rounds of a loop that may fail and has begun. -/
@[elab_as_elim]
theorem begins_repeating_induction {body : σ → ExceptT ε (Prog I) (σ ⊕ β)}
    {P : σ → Trace I → Prop} (inside : ∀ s t, Begins (body s).run t → P s t)
    (again : ∀ s s' t u, Runs (body s).run t (.ok (.inl s')) → P s' u → P s (t ++ u))
    (s : σ) (t : Trace I) (h : Begins (repeating body s).run t) : P s t := by
  refine begins_loop_induction ?_ ?_ s t h
  · intro s t first
    exact inside s t (begins_map first)
  · intro s s' t u round ih
    obtain ⟨x, run, eq⟩ := (runs_map _ _ _ _).mp round
    rw [nextRound_inl] at eq
    subst eq
    exact again s s' t u run ih

/-- One unrolling of a loop that may fail. -/
theorem runs_repeating_iff (body : σ → ExceptT ε (Prog I) (σ ⊕ β)) (s : σ) (t : Trace I)
    (y : Except ε β) :
    Runs (repeating body s).run t y ↔
      (∃ e, Runs (body s).run t (.error e) ∧ y = .error e) ∨
      (∃ b, Runs (body s).run t (.ok (.inr b)) ∧ y = .ok b) ∨
      ∃ s' u v, t = u ++ v ∧ Runs (body s).run u (.ok (.inl s')) ∧
        Runs (repeating body s').run v y := by
  change Runs (Prog.loop _ s) t y ↔ _
  rw [runs_loop_iff]
  simp only [runs_map, nextRound_inr, nextRound_inl]
  constructor
  · rintro (⟨x, hx, ⟨e, rfl, rfl⟩ | ⟨b, rfl, rfl⟩⟩ | ⟨s', u, v, rfl, ⟨x, hx, rfl⟩, rest⟩)
    · exact Or.inl ⟨e, hx, rfl⟩
    · exact Or.inr (Or.inl ⟨b, hx, rfl⟩)
    · exact Or.inr (Or.inr ⟨s', u, v, rfl, hx, rest⟩)
  · rintro (⟨e, hx, rfl⟩ | ⟨b, hx, rfl⟩ | ⟨s', u, v, rfl, hx, rest⟩)
    · exact Or.inl ⟨_, hx, Or.inl ⟨e, rfl, rfl⟩⟩
    · exact Or.inl ⟨_, hx, Or.inr ⟨b, rfl, rfl⟩⟩
    · exact Or.inr ⟨s', u, v, rfl, ⟨_, hx, rfl⟩, rest⟩

end Interaction
