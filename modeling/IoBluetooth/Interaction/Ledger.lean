import IoBluetooth.Interaction.Environment
import Mathlib.Data.Finset.Basic

/-!
# Ledgers of handles

What a program holds of a resource that is acquired and released by calls. The
environment promises that an acquired handle is fresh; that no handle is released
which is not held is not promised, so a ledger records whether it happened.
-/
namespace Interaction

/-- What one event does to the handles held. -/
inductive Effect (H : Type) where
  | none
  | acquire (h : H) (guarded : Bool)
  | guard (h : H)
  | release (h : H)

/-- A call whose result is a handle acquires it. -/
def Effect.ofResult {H ε : Type} (guarded : Bool) : Except ε H → Effect H
  | .ok h => .acquire h guarded
  | .error _ => .none

/-- The handles held, those of them marked as guarded, and whether a handle was
ever released that was not held. -/
@[ext] structure Ledger (H : Type) where
  held : Finset H
  guarded : Finset H
  misused : Bool
  guarded_subset : guarded ⊆ held

variable {I : Interface} {H α β ε : Type} [DecidableEq H]

namespace Ledger

def empty : Ledger H := ⟨∅, ∅, false, Finset.Subset.refl _⟩

def acquire (L : Ledger H) (h : H) (guarded : Bool) : Ledger H where
  held := insert h L.held
  guarded := if guarded then insert h L.guarded else L.guarded.erase h
  misused := L.misused
  guarded_subset := by
    split
    · exact Finset.insert_subset_insert h L.guarded_subset
    · exact (Finset.erase_subset h _).trans
        (L.guarded_subset.trans (Finset.subset_insert h _))

def guard (L : Ledger H) (h : H) : Ledger H where
  held := L.held
  guarded := if h ∈ L.held then insert h L.guarded else L.guarded
  misused := L.misused
  guarded_subset := by
    split
    · exact Finset.insert_subset ‹_› L.guarded_subset
    · exact L.guarded_subset

def release (L : Ledger H) (h : H) : Ledger H where
  held := L.held.erase h
  guarded := L.guarded.erase h
  misused := L.misused || !decide (h ∈ L.held)
  guarded_subset := Finset.erase_subset_erase h L.guarded_subset

def apply (L : Ledger H) : Effect H → Ledger H
  | .none => L
  | .acquire h guarded => L.acquire h guarded
  | .guard h => L.guard h
  | .release h => L.release h

omit [DecidableEq H] in
theorem notMem_guarded (L : Ledger H) {h : H} (fresh : h ∉ L.held) : h ∉ L.guarded :=
  fun member => fresh (L.guarded_subset member)

/-- Guarding a handle just acquired is acquiring it guarded. -/
theorem guard_acquire (L : Ledger H) (h : H) (g : Bool) :
    (L.acquire h g).guard h = L.acquire h true := by
  cases g <;> ext x <;> simp [guard, acquire]
  tauto

/-- Releasing a handle just acquired undoes the acquisition. -/
theorem release_acquire (L : Ledger H) (h : H) (g : Bool) (fresh : h ∉ L.held) :
    (L.acquire h g).release h = L := by
  have unguarded := L.notMem_guarded fresh
  cases g <;> ext x <;> simp [release, acquire]
  all_goals grind

end Ledger

/-- Events move a ledger by their effects; acquired handles are fresh. -/
def ledgerOf (effect : Event I → Effect H) : Environment I (Ledger H) := fun L e L' =>
  (∀ h g, effect e = .acquire h g → h ∉ L.held) ∧ L' = L.apply (effect e)

/-! ### Handles of a trace -/

section Traces

variable (effect : Event I → Effect H)

omit [DecidableEq H]

/-- The handles acquired along a trace, in order. -/
def acquired (t : Trace I) : List H :=
  t.filterMap fun e => match effect e with
    | .acquire h _ => some h
    | _ => none

/-- The handles released along a trace, in order. -/
def released (t : Trace I) : List H :=
  t.filterMap fun e => match effect e with
    | .release h => some h
    | _ => none

variable {effect}

theorem acquired_append (t u : Trace I) :
    acquired effect (t ++ u) = acquired effect t ++ acquired effect u :=
  List.filterMap_append

theorem released_append (t u : Trace I) :
    released effect (t ++ u) = released effect t ++ released effect u :=
  List.filterMap_append

theorem acquired_of_quiet (t : Trace I) (quiet : ∀ e ∈ t, effect e = .none) :
    acquired effect t = [] := by
  rw [acquired, List.filterMap_eq_nil_iff]
  intro e member
  rw [quiet e member]

theorem released_of_quiet (t : Trace I) (quiet : ∀ e ∈ t, effect e = .none) :
    released effect t = [] := by
  rw [released, List.filterMap_eq_nil_iff]
  intro e member
  rw [quiet e member]

end Traces

/-- Events without effect leave a ledger alone. -/
theorem steps_of_quiet (effect : Event I → Effect H) (t : Trace I)
    (quiet : ∀ e ∈ t, effect e = .none) (L L' : Ledger H)
    (steps : Steps (ledgerOf effect) L t L') : L' = L := by
  induction t generalizing L with
  | nil => exact (steps_nil _ _ _).mp steps
  | cons e t ih =>
    obtain ⟨M, ⟨_, rfl⟩, rest⟩ := (steps_cons _ _ _ _ _).mp steps
    have same := ih (fun e' member => quiet e' (List.mem_cons_of_mem e member)) _ rest
    rw [same, quiet e List.mem_cons_self]
    rfl

/-! ### Programs that acquire handles -/

section Rules

variable (effect : Event I → Effect H)

/-- Runs of `p` leave every ledger as it was. -/
def Neutral (p : Prog I α) : Prop :=
  ∀ L, Triple (ledgerOf effect) (· = L) p fun _ L' => L' = L

/-- A run of `p` releases `h`. -/
def Releases (h : H) (p : Prog I α) : Prop :=
  ∀ L, Triple (ledgerOf effect) (· = L) p fun _ L' => L' = L.release h

/-- A run of `p` acquires a handle, guarded if `g`, or nothing: `result` tells which. -/
def Acquires (g : Bool) (result : α → Except ε H) (p : Prog I α) : Prop :=
  ∀ L, Triple (ledgerOf effect) (· = L) p fun a L' =>
    match result a with
    | .ok h => h ∉ L.held ∧ L' = L.acquire h g
    | .error _ => L' = L

/-- `p` is to guard the handle `h`, guarded already if `g`, and does nothing else. -/
def Secures (g : Bool) (h : H) (p : ExceptT ε (Prog I) α) : Prop :=
  ∀ L : Ledger H, Triple (ledgerOf effect) (· = L.acquire h g) p.run fun r L' =>
    match r with
    | .ok _ => L' = L.acquire h true
    | .error _ => ∃ g', L' = L.acquire h g'

/-- `p` owns the handle `h`, just acquired: where it succeeds, `h` is the guarded handle of its
result, and where it fails, `h` has been released. -/
def Completes (g : Bool) (h : H) (handle : α → H) (p : ExceptT ε (Prog I) α) : Prop :=
  ∀ L : Ledger H, h ∉ L.held → Triple (ledgerOf effect) (· = L.acquire h g) p.run fun r L' =>
    match r with
    | .ok a => handle a = h ∧ L' = L.acquire h true
    | .error _ => L' = L

/-- A run of `p` that succeeds leaves in addition the handle of its result, fresh and guarded;
one that fails leaves the ledger as it was. -/
def Constructs (handle : α → H) (p : ExceptT ε (Prog I) α) : Prop :=
  ∀ L, Triple (ledgerOf effect) (· = L) p.run fun r L' =>
    match r with
    | .ok a => handle a ∉ L.held ∧ L' = L.acquire (handle a) true
    | .error _ => L' = L

variable {effect} {g : Bool} {h : H} {handle : α → H} {handle' : β → H}

theorem acquires_perform (c : I.Call) (result : I.Reply c → Except ε H)
    (acquires : ∀ r, effect ⟨c, r⟩ = .ofResult g (result r)) :
    Acquires effect g result (Prog.perform c) := by
  intro L
  apply triple_perform
  rintro _ r _ rfl ⟨fresh, rfl⟩
  have done := acquires r
  cases outcome : result r with
  | ok h =>
    rw [outcome] at done
    exact ⟨fresh h g done, by rw [done]; rfl⟩
  | error e =>
    rw [outcome] at done
    rw [done]
    rfl

theorem Acquires.bind_pure {δ : Type} {result : α → Except δ H} {result' : β → Except δ H}
    {p : Prog I α} (hp : Acquires effect g result p) (f : α → β)
    (same : ∀ a, result' (f a) = result a) :
    Acquires effect g result' (p >>= fun a => pure (f a)) := by
  intro L
  refine (hp L).bind fun a => triple_pure _ fun L' held => ?_
  rw [same]
  exact held

theorem Neutral.secures {p : ExceptT ε (Prog I) α} (neutral : Neutral effect p.run) :
    Secures effect true h p := by
  intro L
  refine (neutral (L.acquire h true)).consequence (fun _ start => start) fun r L' same => ?_
  cases r with
  | ok a => exact same
  | error e => exact ⟨true, same⟩

theorem Secures.bind {p : ExceptT ε (Prog I) α} {f : α → ExceptT ε (Prog I) β}
    (hp : Secures effect g h p) (hf : ∀ a, Neutral effect (f a).run) :
    Secures effect g h (p >>= f) := by
  intro L
  refine Triple.run_bind (hp L) (fun a => ?_) fun e L' kept => kept
  exact (hf a).secures L

theorem completes_pure (a : α) (same : handle a = h) :
    Completes effect true h handle (pure a : ExceptT ε (Prog I) α) := by
  intro L _
  exact triple_pure _ fun L' start => ⟨same, start⟩

/-- Where the body fails, its owner releases the handle. -/
theorem completes_owning {release : Prog I Unit} {body : ExceptT ε (Prog I) α}
    (secures : Secures effect g h body) (releases : Releases effect h release)
    (same : Yields body (handle · = h)) : Completes effect g h handle (owning release body) := by
  intro L fresh M t y N start run steps
  rcases (runs_owning _ _ _ _).mp run with ⟨a, inner, rfl⟩ | ⟨u, v, e, rfl, inner, last, rfl⟩
  · exact ⟨same t a inner, secures L M t _ N start inner steps⟩
  · -- whatever the guard was by then, the release undoes the acquisition
    obtain ⟨K, before, after⟩ := (steps_append _ _ _ _ _).mp steps
    obtain ⟨g', kept⟩ := secures L M u _ K start inner before
    calc N = K.release h := releases K K v () N rfl last after
      _ = (L.acquire h g').release h := by rw [kept]
      _ = L := L.release_acquire h g' fresh

theorem Completes.bind_pure {p : ExceptT ε (Prog I) α} (hp : Completes effect g h handle p)
    (f : α → β) (same : ∀ a, handle' (f a) = handle a) :
    Completes effect g h handle' (p >>= fun a => pure (f a)) := by
  intro L fresh
  refine Triple.run_bind (hp L fresh) (fun a => ?_) fun e L' kept => kept
  exact triple_pure _ fun L' held => ⟨(same a).trans held.1, held.2⟩

theorem constructs_throw (e : ε) : Constructs effect handle (throw e : ExceptT ε (Prog I) α) :=
  fun _ => triple_pure _ fun _ start => start

theorem Neutral.constructs {p : ExceptT ε (Prog I) α} {f : α → ExceptT ε (Prog I) β}
    (hp : Neutral effect p.run) (hf : ∀ a, Constructs effect handle' (f a)) :
    Constructs effect handle' (p >>= f) :=
  fun L => Triple.run_bind (hp L) (fun a => hf a L) fun _ _ same => same

theorem Constructs.bind {p : ExceptT ε (Prog I) α} {f : α → ExceptT ε (Prog I) β}
    (hp : Constructs effect handle p)
    (hf : ∀ a, Completes effect true (handle a) handle' (f a)) :
    Constructs effect handle' (p >>= f) := by
  intro L
  refine Triple.run_bind (hp L) (fun a => ?_) fun e L' same => same
  intro M t y N held run steps
  have completed := hf a L held.1 M t y N held.2 run steps
  cases y with
  | ok b => exact ⟨completed.1.symm ▸ held.1, completed.1.symm ▸ completed.2⟩
  | error e => exact completed

theorem Constructs.bind_pure {p : ExceptT ε (Prog I) α} (hp : Constructs effect handle p)
    (f : α → β) (same : ∀ a, handle' (f a) = handle a) :
    Constructs effect handle' (p >>= fun a => pure (f a)) :=
  hp.bind fun a => completes_pure (f a) (same a)

/-- What follows an acquisition owns the handle, or goes on without one. -/
theorem Acquires.constructs {δ γ : Type} {result : γ → Except δ H} {p : Prog I γ}
    {f : γ → ExceptT ε (Prog I) β} (hp : Acquires effect g result p)
    (ok : ∀ a h, result a = .ok h → Completes effect g h handle' (f a))
    (error : ∀ a e, result a = .error e → Constructs effect handle' (f a)) :
    Constructs effect handle' (ExceptT.lift p >>= f) := by
  intro L M t y N start run steps
  rcases (runs_run_bind _ _ _ _).mp run with ⟨e, failed, _⟩ | ⟨u, v, a, rfl, first, rest⟩
  · obtain ⟨_, _, wrong⟩ := (runs_run_lift _ _ _).mp failed
    cases wrong
  · obtain ⟨_, acquired, same⟩ := (runs_run_lift _ _ _).mp first
    cases same
    obtain ⟨K, before, after⟩ := (steps_append _ _ _ _ _).mp steps
    have held := hp L M u a K start acquired before
    cases outcome : result a with
    | ok h =>
      -- the rest owns the handle
      simp only [outcome] at held
      have completed := ok a h outcome L held.1 K v y N held.2 rest after
      cases y with
      | ok b => exact ⟨completed.1.symm ▸ held.1, completed.1.symm ▸ completed.2⟩
      | error e => exact completed
    | error e =>
      -- nothing was acquired
      simp only [outcome] at held
      exact error a e outcome L K v y N held rest after

end Rules

end Interaction
