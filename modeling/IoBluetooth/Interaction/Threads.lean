import IoBluetooth.Interaction.Monitor
import Mathlib.Logic.Function.Basic

/-!
# Threads

Threads make requests around a state that they share, and the calls they make for them
interleave in any order. What is true at every moment is proved without looking at a program:
each thread is replaced by a monitor that its program obeys.
-/
namespace Interaction

variable {ι R α S M : Type} {I : Interface}

/-- The program of each request, and what the state that is shared allows: which request may
be begun while which others run, what a call of which thread for which request may be replied
to, and when a request with its result may be over. -/
structure System (ι R : Type) (I : Interface) (α S : Type) where
  program : R → Prog I α
  begins : (ι → Option R) → S → R → S → Prop
  calls : ι → R → Environment I S
  returns : R → α → S → S → Prop

/-- Each thread is idle, or has made some of the calls of its request. -/
structure Threads (ι R : Type) (I : Interface) (S : Type) where
  shared : S
  jobs : ι → Option (R × Trace I)

def Threads.running (c : Threads ι R I S) (i : ι) : Option R := (c.jobs i).map Prod.fst

inductive Label (ι R : Type) (I : Interface) (α : Type) where
  | begins (i : ι) (q : R)
  | calls (i : ι) (e : Event I)
  | returns (i : ι) (q : R) (a : α)

namespace System

variable [DecidableEq ι]

inductive Step (sys : System ι R I α S) :
    Threads ι R I S → Label ι R I α → Threads ι R I S → Prop
  | begins {c i q s} : c.jobs i = none → sys.begins c.running c.shared q s →
      Step sys c (.begins i q) ⟨s, Function.update c.jobs i (some (q, []))⟩
  | calls {c i q t e s} : c.jobs i = some (q, t) → Begins (sys.program q) (t ++ [e]) →
      sys.calls i q c.shared e s →
      Step sys c (.calls i e) ⟨s, Function.update c.jobs i (some (q, t ++ [e]))⟩
  | returns {c i q t a s} : c.jobs i = some (q, t) → Runs (sys.program q) t a →
      sys.returns q a c.shared s →
      Step sys c (.returns i q a) ⟨s, Function.update c.jobs i none⟩

/-- What the threads have done since all of them were idle, the latest step last. -/
inductive Reached (sys : System ι R I α S) (s₀ : S) :
    List (Label ι R I α) → Threads ι R I S → Prop
  | start : Reached sys s₀ [] ⟨s₀, fun _ => none⟩
  | step {h c l c'} : Reached sys s₀ h c → Step sys c l c' → Reached sys s₀ (h ++ [l]) c'

section Reached

variable {sys : System ι R I α S} {s₀ : S} {h : List (Label ι R I α)} {c : Threads ι R I S}

theorem Reached.begins (reached : sys.Reached s₀ h c) (i : ι) (q : R) (s : S)
    (idle : c.jobs i = none) (admitted : sys.begins c.running c.shared q s) :
    sys.Reached s₀ (h ++ [.begins i q]) ⟨s, Function.update c.jobs i (some (q, []))⟩ :=
  reached.step (.begins idle admitted)

theorem Reached.calls (reached : sys.Reached s₀ h c) (i : ι) (e : Event I) (s : S) {q : R}
    {t : Trace I} (busy : c.jobs i = some (q, t)) (begun : Begins (sys.program q) (t ++ [e]))
    (replied : sys.calls i q c.shared e s) :
    sys.Reached s₀ (h ++ [.calls i e]) ⟨s, Function.update c.jobs i (some (q, t ++ [e]))⟩ :=
  reached.step (.calls busy begun replied)

theorem Reached.returns (reached : sys.Reached s₀ h c) (i : ι) (q : R) (a : α) (s : S)
    {t : Trace I} (busy : c.jobs i = some (q, t)) (run : Runs (sys.program q) t a)
    (ended : sys.returns q a c.shared s) :
    sys.Reached s₀ (h ++ [.returns i q a]) ⟨s, Function.update c.jobs i none⟩ :=
  reached.step (.returns busy run ended)

end Reached
end System

/-! ### Threads replaced by monitors -/

/-- The requests that run, each with where its monitor is. -/
abbrev View (ι R M : Type) := ι → Option (R × M)

def View.running (v : View ι R M) (i : ι) : Option R := (v i).map Prod.fst

/-- The monitors of the threads have read what was called. -/
def Threads.Shows (δ : R → Monitor I M) (start : R → M) (c : Threads ι R I S)
    (v : View ι R M) : Prop :=
  ∀ i, match c.jobs i with
    | none => v i = none
    | some (q, t) => ∃ m, v i = some (q, m) ∧ (δ q).read (start q) t = some m

section Watching

variable [DecidableEq ι] {A : Event I → Prop} {δ : R → Monitor I M} {start : R → M}
  {Q : R → α → M → Prop} {sys : System ι R I α S} {s₀ : S}

/-- What holds at the start and is kept by each thread's monitor, with the history that led
there, the shared state, and where the monitors are. -/
structure System.Invariant (sys : System ι R I α S) (A : Event I → Prop)
    (δ : R → Monitor I M) (start : R → M) (Q : R → α → M → Prop) (s₀ : S)
    (inv : List (Label ι R I α) → S → View ι R M → Prop) : Prop where
  starts : inv [] s₀ fun _ => none
  allows : ∀ h s v i q e s', inv h s v → sys.calls i q s e s' → A e
  begins : ∀ h s v i q s', inv h s v → v i = none → sys.begins v.running s q s' →
    inv (h ++ [.begins i q]) s' (Function.update v i (some (q, start q)))
  calls : ∀ h s v i q m e s' n, inv h s v → v i = some (q, m) → sys.calls i q s e s' →
    δ q m e = some n → inv (h ++ [.calls i e]) s' (Function.update v i (some (q, n)))
  returns : ∀ h s v i q m a s', inv h s v → v i = some (q, m) → Q q a m → sys.returns q a s s' →
    inv (h ++ [.returns i q a]) s' (Function.update v i none)

namespace Threads.Shows

variable {c : Threads ι R I S} {v : View ι R M}

omit [DecidableEq ι] in
theorem idle (shows : c.Shows δ start v) {i : ι} (none : c.jobs i = none) : v i = .none := by
  have at_i := shows i
  rw [none] at at_i
  exact at_i

omit [DecidableEq ι] in
theorem busy (shows : c.Shows δ start v) {i : ι} {q : R} {t : Trace I}
    (some : c.jobs i = some (q, t)) : ∃ m, v i = .some (q, m) ∧ (δ q).read (start q) t = .some m := by
  have at_i := shows i
  rw [some] at at_i
  exact at_i

omit [DecidableEq ι] in
theorem running (shows : c.Shows δ start v) : v.running = c.running := by
  funext i
  have at_i := shows i
  cases job : c.jobs i with
  | none =>
    rw [job] at at_i
    simp only [View.running, Threads.running, job, at_i, Option.map_none]
  | some qt =>
    rw [job] at at_i
    obtain ⟨m, seen, _⟩ := at_i
    simp only [View.running, Threads.running, job, seen, Option.map_some]

theorem update (shows : c.Shows δ start v) (s : S) (i : ι) (q : R) (t : Trace I) (m : M)
    (read : (δ q).read (start q) t = some m) :
    Shows δ start ⟨s, Function.update c.jobs i (some (q, t))⟩
      (Function.update v i (some (q, m))) := by
  intro j
  by_cases same : j = i
  · subst same
    simp only [Function.update_self]
    exact ⟨m, rfl, read⟩
  · simp only [Function.update_of_ne same]
    exact shows j

theorem clear (shows : c.Shows δ start v) (s : S) (i : ι) :
    Shows δ start ⟨s, Function.update c.jobs i none⟩ (Function.update v i none) := by
  intro j
  by_cases same : j = i
  · subst same
    simp only [Function.update_self]
  · simp only [Function.update_of_ne same]
    exact shows j

end Threads.Shows

/-- The events of the requests that run are all ones that the environment may give. -/
def Threads.Allowed (A : Event I → Prop) (c : Threads ι R I S) : Prop :=
  ∀ i q t, c.jobs i = some (q, t) → ∀ e ∈ t, A e

theorem Threads.Allowed.update {c : Threads ι R I S} (allowed : c.Allowed A) (s : S) (i : ι)
    (q : R) (t : Trace I) (fits : ∀ e ∈ t, A e) :
    Threads.Allowed A ⟨s, Function.update c.jobs i (some (q, t))⟩ := by
  intro j p u job
  by_cases same : j = i
  · subst same
    cases (Function.update_self j _ c.jobs).symm.trans job
    exact fits
  · exact allowed j p u ((Function.update_of_ne same _ _).symm.trans job)

theorem Threads.Allowed.clear {c : Threads ι R I S} (allowed : c.Allowed A) (s : S) (i : ι) :
    Threads.Allowed A ⟨s, Function.update c.jobs i none⟩ := by
  intro j p u job
  by_cases same : j = i
  · subst same
    cases (Function.update_self j _ c.jobs).symm.trans job
  · exact allowed j p u ((Function.update_of_ne same _ _).symm.trans job)

variable {inv : List (Label ι R I α) → S → View ι R M → Prop}

omit [DecidableEq ι] in
/-- The monitor has read the earlier calls, so it accepts the next one from where it is. -/
theorem Threads.Shows.next {c : Threads ι R I S} {v : View ι R M} (shows : c.Shows δ start v)
    {i : ι} {q : R} {t : Trace I} {e : Event I} {p : Prog I α} {last : α → M → Prop}
    (obeys : Obeys A (δ q) (start q) p last) (busy : c.jobs i = some (q, t))
    (begun : Begins p (t ++ [e])) (fits : ∀ x ∈ t ++ [e], A x) :
    ∃ m n, v i = some (q, m) ∧ δ q m e = some n ∧
      (δ q).read (start q) (t ++ [e]) = some n := by
  obtain ⟨m, seen, before⟩ := shows.busy busy
  obtain ⟨n, read⟩ := obeys.accepts _ begun fits
  obtain ⟨o, first, last⟩ := ((δ q).read_append _ _ _ _).mp read
  cases before.symm.trans first
  exact ⟨m, n, seen, ((δ q).read_singleton _ _ _).mp last, read⟩

/-- One step of the threads is one step of their monitors. -/
theorem System.Step.watched (kept : sys.Invariant A δ start Q s₀ inv)
    (obeys : ∀ q, Obeys A (δ q) (start q) (sys.program q) (Q q)) {c c' : Threads ι R I S}
    {v : View ι R M} {h : List (Label ι R I α)} {l : Label ι R I α} (step : sys.Step c l c')
    (allowed : c.Allowed A) (shows : c.Shows δ start v) (holds : inv h c.shared v) :
    c'.Allowed A ∧ ∃ v', c'.Shows δ start v' ∧ inv (h ++ [l]) c'.shared v' := by
  cases step with
  | @begins i q s idle admitted =>
    refine ⟨allowed.update s i q [] (List.forall_mem_nil _), _, shows.update s i q [] _ rfl, ?_⟩
    exact kept.begins h _ v i q s holds (shows.idle idle) (shows.running ▸ admitted)
  | @calls i q t e s busy begun replied =>
    have fits : ∀ x ∈ t ++ [e], A x := by
      rw [List.forall_mem_append, List.forall_mem_singleton]
      exact ⟨allowed i q t busy, kept.allows h _ v i q e s holds replied⟩
    obtain ⟨m, n, seen, next, read⟩ := shows.next (obeys q) busy begun fits
    exact ⟨allowed.update s i q _ fits, _, shows.update s i q _ n read,
      kept.calls h _ v i q m e s n holds seen replied next⟩
  | @returns i q t a s busy run settled =>
    obtain ⟨m, seen, before⟩ := shows.busy busy
    obtain ⟨n, read, last⟩ := (obeys q).ends t a run (allowed i q t busy)
    cases before.symm.trans read
    exact ⟨allowed.clear s i, _, shows.clear s i,
      kept.returns h _ v i q m a s holds seen last settled⟩

/-- Whatever the threads do, the invariant holds of where their monitors are. -/
theorem System.Reached.watched (kept : sys.Invariant A δ start Q s₀ inv)
    (obeys : ∀ q, Obeys A (δ q) (start q) (sys.program q) (Q q))
    {h : List (Label ι R I α)} {c : Threads ι R I S} (reached : sys.Reached s₀ h c) :
    c.Allowed A ∧ ∃ v, c.Shows δ start v ∧ inv h c.shared v := by
  induction reached with
  | start =>
    refine ⟨?_, _, fun _ => rfl, kept.starts⟩
    rintro i q t ⟨⟩
  | step _ step ih =>
    obtain ⟨allowed, v, shows, holds⟩ := ih
    exact step.watched kept obeys allowed shows holds

end Watching
end Interaction
