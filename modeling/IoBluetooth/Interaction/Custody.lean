import IoBluetooth.Interaction.Ledger
import IoBluetooth.Interaction.Monitor
import Mathlib.Logic.Function.Basic

/-!
# Handles that programs keep apart

A program that runs beside others may use the handles it has borrowed and one of its own, which
it acquires or is given, and gives up or hands over. Programs that keep to this never touch each
other's handles, whatever the order of their calls.
-/
namespace Interaction

variable {I : Interface} {H ι α ε : Type} [DecidableEq H]

/-- The handle a program has of its own, and whether it is known to be guarded. -/
abbrev Own (H : Type) := Option (H × Bool)

/-- A handle of one's own is acquired while there is none, and no other is guarded or released.
Where `strict`, it is never without its guard. -/
inductive Moves (strict : Bool) : Effect H → Own H → Own H → Prop
  | none (o : Own H) : Moves strict .none o o
  | acquire (h : H) (g : Bool) : (strict = true → g = true) →
      Moves strict (.acquire h g) none (some (h, g))
  | guard (h : H) (g : Bool) : Moves strict (.guard h) (some (h, g)) (some (h, true))
  | release (h : H) (g : Bool) : Moves strict (.release h) (some (h, g)) none

def Own.move (strict : Bool) : Own H → Effect H → Option (Own H)
  | o, .none => some o
  | none, .acquire h g => if strict ≤ g then some (some (h, g)) else none
  | some (h', _), .guard h => if h = h' then some (some (h, true)) else none
  | some (h', _), .release h => if h = h' then some none else none
  | _, _ => none

theorem Own.move_eq_some (strict : Bool) (o o' : Own H) (x : Effect H) :
    Own.move strict o x = some o' ↔ Moves strict x o o' := by
  constructor
  · intro moved
    match o, x with
    | o, .none =>
      cases moved
      exact .none _
    | none, .acquire h g =>
      simp only [move, Option.ite_none_right_eq_some, Option.some.injEq] at moved
      obtain ⟨secure, rfl⟩ := moved
      exact .acquire h g secure
    | some (h', g), .guard h =>
      simp only [move, Option.ite_none_right_eq_some, Option.some.injEq] at moved
      obtain ⟨rfl, rfl⟩ := moved
      exact .guard h g
    | some (h', g), .release h =>
      simp only [move, Option.ite_none_right_eq_some, Option.some.injEq] at moved
      obtain ⟨rfl, rfl⟩ := moved
      exact .release h g
    | some _, .acquire _ _ => cases moved
    | none, .guard _ => cases moved
    | none, .release _ => cases moved
  · intro moves
    cases moves with
    | none =>
      cases o with
      | none => rfl
      | some _ => rfl
    | acquire h g secure => exact if_pos secure
    | guard h g => exact if_pos rfl
    | release h g => exact if_pos rfl

/-- Calls go to handles that are borrowed or one's own. -/
def custody (effect : Event I → Effect H) (target : I.Call → Option H) (strict : Bool)
    (borrowed : List H) : Monitor I (Own H) := fun o e =>
  if ∀ h ∈ target e.call, h ∈ borrowed ∨ h ∈ o.map Prod.fst then Own.move strict o (effect e) else none

/-! ### Programs in custody -/

section Rules

variable {A : Event I → Prop} {effect : Event I → Effect H} {target : I.Call → Option H}
  {strict : Bool} {borrowed : List H} {o : Own H}

theorem custody_eq_some (e : Event I) (o' : Own H) :
    custody effect target strict borrowed o e = some o' ↔
      (∀ h ∈ target e.call, h ∈ borrowed ∨ h ∈ o.map Prod.fst) ∧
        Moves strict (effect e) o o' := by
  rw [custody, Option.ite_none_right_eq_some, Own.move_eq_some]

theorem Emits.custody {p : Prog I α} (quiet : Emits p fun e => effect e = .none ∧
      ∀ h ∈ target e.call, h ∈ borrowed ∨ h ∈ o.map Prod.fst) :
    Obeys A (custody effect target strict borrowed) o p fun _ n => n = o := by
  refine Emits.obeys (quiet.mono fun e still => ?_)
  rw [custody_eq_some, still.1]
  exact ⟨still.2, .none o⟩

/-- What a call that may return a handle leaves. -/
def Acquired (g : Bool) (result : Except ε H) (o : Own H) : Prop :=
  match result with
  | .ok h => o = some (h, g)
  | .error _ => o = none

theorem custody_acquire {g : Bool} (c : I.Call) (result : I.Reply c → Except ε H)
    (acquires : ∀ r, effect ⟨c, r⟩ = .ofResult g (result r)) (secure : strict = true → g = true)
    (targets : ∀ h ∈ target c, h ∈ borrowed) :
    Obeys A (custody effect target strict borrowed) none (Prog.perform c) fun r n =>
      A ⟨c, r⟩ ∧ Acquired g (result r) n := by
  refine obeys_perform c fun r allowed => ?_
  simp only [custody_eq_some, acquires]
  cases result r with
  | ok h => exact ⟨_, ⟨fun h member => Or.inl (targets h member), .acquire h g secure⟩,
      allowed, rfl⟩
  | error e => exact ⟨_, ⟨fun h member => Or.inl (targets h member), .none none⟩, allowed, rfl⟩

theorem custody_release {h : H} {g : Bool} (c : I.Call)
    (releases : ∀ r, effect ⟨c, r⟩ = .release h) (targets : ∀ h' ∈ target c, h' = h) :
    Obeys A (custody effect target strict borrowed) (some (h, g)) (Prog.perform c)
      fun _ n => n = none := by
  refine obeys_perform c fun r _ => ⟨none, ?_, rfl⟩
  rw [custody_eq_some, releases]
  refine ⟨fun h' member => Or.inr ?_, .release h g⟩
  rw [targets h' member]
  rfl

/-- The handle of a result is left to whoever gets it, guarded where `sure`. -/
def Makes (sure : Prop) (handle : α → H) (r : Except ε α) (o : Own H) : Prop :=
  match r with
  | .ok a => ∃ g, o = some (handle a, g) ∧ (sure → g = true)
  | .error _ => o = none

/-- A handle is released where the body fails. -/
theorem custody_owning {sure : Prop} {handle : α → H} {h : H} {g : Bool} {release : Prog I Unit}
    {body : ExceptT ε (Prog I) α}
    (hb : Obeys A (custody effect target strict borrowed) (some (h, g)) body.run fun r o =>
      ∃ g', o = some (h, g') ∧ ∀ a, r = .ok a → handle a = h ∧ (sure → g' = true))
    (hr : ∀ g', Obeys A (custody effect target strict borrowed) (some (h, g')) release
      fun _ o => o = none) :
    Obeys A (custody effect target strict borrowed) (some (h, g)) (owning release body).run
      (Makes sure handle) := by
  refine obeys_owning hb ?_ ?_
  · rintro a _ ⟨g', rfl, holds⟩
    obtain ⟨rfl, safe⟩ := holds a rfl
    exact ⟨g', rfl, safe⟩
  · rintro e _ ⟨g', rfl, _⟩
    exact hr g'

theorem custody_throw {sure : Prop} {handle : α → H} (e : ε) :
    Obeys A (custody effect target strict borrowed) none
      (throw e : ExceptT ε (Prog I) α).run (Makes sure handle) :=
  obeys_run_throw e rfl

theorem custody_bind_pure {β : Type} {sure : Prop} {handle : α → H} {handle' : β → H}
    {p : ExceptT ε (Prog I) α}
    (hp : Obeys A (custody effect target strict borrowed) o p.run (Makes sure handle)) (f : α → β)
    (same : ∀ a, handle' (f a) = handle a) :
    Obeys A (custody effect target strict borrowed) o (p >>= fun a => pure (f a)).run
      (Makes sure handle') := by
  refine hp.run_bind ?_ fun e n left => left
  rintro a _ ⟨g, rfl, safe⟩
  exact obeys_run_pure _ ⟨g, by rw [same], safe⟩

/-! #### The handle of a program -/

/-- The handle acquired or given at first, and not released since. -/
def owned (effect : Event I → Effect H) (h : Option H) (t : Trace I) : Option H :=
  t.foldl (fun h e => match effect e with
    | .acquire h' _ => some h'
    | .release _ => none
    | _ => h) h

theorem owned_eq (t : Trace I) (o' : Own H)
    (read : (custody effect target strict borrowed).read o t = some o') :
    owned effect (o.map Prod.fst) t = o'.map Prod.fst := by
  induction t generalizing o with
  | nil =>
    cases ((custody effect target strict borrowed).read_nil _ _).mp read
    rfl
  | cons e t ih =>
    obtain ⟨n, first, rest⟩ := (Monitor.read_cons _ _ _ _ _).mp read
    rw [← ih rest]
    obtain ⟨_, moves⟩ := (custody_eq_some _ _).mp first
    rw [owned, List.foldl_cons]
    generalize effect e = x at moves
    cases moves <;> rfl

/-- Where every handle is guarded and those acquired are, it stays so. -/
theorem Moves.guarded {L : Ledger H} {x : Effect H} {o' : Own H} (moves : Moves true x o o')
    (all : L.guarded = L.held) : (L.apply x).guarded = (L.apply x).held := by
  cases moves with
  | none => exact all
  | acquire h g secure => simp [Ledger.apply, Ledger.acquire, secure rfl, all]
  | guard h g => simp [Ledger.apply, Ledger.guard, all]
  | release h g => simp [Ledger.apply, Ledger.release, all]

end Rules

/-! ### What the programs hold together -/

/-- The handles held are those handed over, one each, and the one of each program's own. Where
`sure`, the former are guarded. -/
structure Apart (sure : Prop) (L : Ledger H) (live : List H) (own : ι → Own H) : Prop where
  held_iff : ∀ h, h ∈ L.held ↔ h ∈ live ∨ ∃ i, h ∈ (own i).map Prod.fst
  nodup : live.Nodup
  notMem : ∀ i, ∀ h ∈ (own i).map Prod.fst, h ∉ live
  unique : ∀ i j, ∀ h ∈ (own i).map Prod.fst, h ∈ (own j).map Prod.fst → i = j
  guarded : ∀ i h, own i = some (h, true) → h ∈ L.guarded
  live_guarded : sure → ∀ h ∈ live, h ∈ L.guarded
  once : L.misused = false

namespace Apart

section Own

omit [DecidableEq H]

/-- What a program has after a step, when the others have what they had. -/
theorem mem_update [DecidableEq ι] (own : ι → Own H) (i : ι) (o : Own H) (j : ι) (h : H) :
    h ∈ (Function.update own i o j).map Prod.fst ↔
      j = i ∧ h ∈ o.map Prod.fst ∨ j ≠ i ∧ h ∈ (own j).map Prod.fst := by
  by_cases same : j = i
  · subst same
    simp
  · simp [same]

variable {sure : Prop} {L : Ledger H} {live : List H} {own : ι → Own H}

theorem start : Apart sure Ledger.empty [] (fun _ : ι => (none : Own H)) where
  held_iff h := by simp [Ledger.empty]
  nodup := List.nodup_nil
  notMem := by simp
  unique := by simp
  guarded := by simp
  live_guarded := by simp
  once := rfl

end Own

variable {sure : Prop} {L : Ledger H} {live : List H} {own : ι → Own H} [DecidableEq ι]

theorem acquire (apart : Apart sure L live own) {i : ι} {h : H} {g : Bool} (nothing : own i = none)
    (fresh : h ∉ L.held) :
    Apart sure (L.acquire h g) live (Function.update own i (some (h, g))) := by
  have unused := (not_congr (apart.held_iff h)).mp fresh
  constructor
  · intro h'
    simp only [Ledger.acquire, Finset.mem_insert, apart.held_iff, mem_update]
    grind
  · exact apart.nodup
  · intro j h' mem
    rw [mem_update] at mem
    have := apart.notMem j h'
    grind
  · intro j k h' mem mem'
    rw [mem_update] at mem mem'
    have := apart.unique j k h'
    grind
  · intro j h' eq
    have before := apart.guarded j h'
    by_cases same : j = i
    · subst same
      simp only [Function.update_self, Option.some.injEq, Prod.mk.injEq] at eq
      obtain ⟨rfl, rfl⟩ := eq
      simp [Ledger.acquire]
    · rw [Function.update_of_ne same] at eq
      grind [Ledger.acquire]
  · intro all h' mem
    have before := apart.live_guarded all h' mem
    grind [Ledger.acquire]
  · exact apart.once

theorem guard (apart : Apart sure L live own) {i : ι} {h : H} {g : Bool}
    (holds : own i = some (h, g)) :
    Apart sure (L.guard h) live (Function.update own i (some (h, true))) := by
  have same (j : ι) :
      (Function.update own i (some (h, true)) j).map Prod.fst = (own j).map Prod.fst := by
    by_cases same : j = i
    · subst same
      simp [holds]
    · simp [same]
  constructor
  · intro h'
    simp only [same]
    exact apart.held_iff h'
  · exact apart.nodup
  · intro j h' mem
    rw [same] at mem
    exact apart.notMem j h' mem
  · intro j k h' mem mem'
    rw [same] at mem mem'
    exact apart.unique j k h' mem mem'
  · intro j h' eq
    have before := apart.guarded j h'
    by_cases same : j = i
    · subst same
      simp only [Function.update_self, Option.some.injEq, Prod.mk.injEq] at eq
      obtain ⟨rfl, _⟩ := eq
      have held : h ∈ L.held := (apart.held_iff h).mpr (Or.inr ⟨j, by simp [holds]⟩)
      simp [Ledger.guard, held]
    · rw [Function.update_of_ne same] at eq
      grind [Ledger.guard]
  · intro all h' mem
    have before := apart.live_guarded all h' mem
    grind [Ledger.guard]
  · exact apart.once

theorem release (apart : Apart sure L live own) {i : ι} {h : H} {g : Bool}
    (holds : own i = some (h, g)) :
    Apart sure (L.release h) live (Function.update own i none) := by
  have mine : h ∈ (own i).map Prod.fst := by simp [holds]
  have held : h ∈ L.held := (apart.held_iff h).mpr (Or.inr ⟨i, mine⟩)
  have away := apart.notMem i h mine
  have alone (j : ι) := apart.unique i j h mine
  constructor
  · intro h'
    simp only [Ledger.release, Finset.mem_erase, apart.held_iff, mem_update]
    grind
  · exact apart.nodup
  · intro j h' mem
    rw [mem_update] at mem
    have before := apart.notMem j h'
    grind
  · intro j k h' mem mem'
    rw [mem_update] at mem mem'
    have before := apart.unique j k h'
    grind
  · intro j h' eq
    have before := apart.guarded j h'
    by_cases same : j = i
    · subst same
      simp at eq
    · rw [Function.update_of_ne same] at eq
      grind [Ledger.release]
  · intro all h' mem
    have before := apart.live_guarded all h' mem
    grind [Ledger.release]
  · simp [Ledger.release, apart.once, held]

/-- What one program does to the handles leaves them apart. -/
theorem moves (apart : Apart sure L live own) {strict : Bool} {x : Effect H} {i : ι} {o : Own H}
    (moves : Moves strict x (own i) o) (fresh : ∀ h g, x = .acquire h g → h ∉ L.held) :
    Apart sure (L.apply x) live (Function.update own i o) := by
  cases before : own i with
  | none =>
    rw [before] at moves
    cases moves with
    | none => rwa [← before, Function.update_eq_self]
    | acquire h g _ => exact apart.acquire before (fresh h g rfl)
  | some hg =>
    rw [before] at moves
    cases moves with
    | none => rwa [← before, Function.update_eq_self]
    | guard h g => exact apart.guard before
    | release h g => exact apart.release before

/-- A program takes back a handle that was handed over. -/
theorem take (apart : Apart sure L live own) {i : ι} {h : H} (nothing : own i = none)
    (member : h ∈ live) : Apart sure L (live.erase h) (Function.update own i (some (h, false))) := by
  have erase (h' : H) : h' ∈ live.erase h ↔ h' ≠ h ∧ h' ∈ live := apart.nodup.mem_erase_iff
  constructor
  · intro h'
    rw [apart.held_iff]
    simp only [erase, mem_update]
    grind
  · exact apart.nodup.erase h
  · intro j h' mem
    rw [mem_update] at mem
    have before := apart.notMem j h'
    grind
  · intro j k h' mem mem'
    rw [mem_update] at mem mem'
    have before := apart.unique j k h'
    have away := apart.notMem j h'
    have away' := apart.notMem k h'
    grind
  · intro j h' eq
    by_cases same : j = i
    · subst same
      simp at eq
    · rw [Function.update_of_ne same] at eq
      exact apart.guarded j h' eq
  · intro all h' mem
    exact apart.live_guarded all h' (List.mem_of_mem_erase mem)
  · exact apart.once

omit [DecidableEq H] in
/-- A program hands its handle over. -/
theorem hand (apart : Apart sure L live own) {i : ι} {h : H} {g : Bool}
    (holds : own i = some (h, g)) (safe : sure → g = true) :
    Apart sure L (h :: live) (Function.update own i none) := by
  have mine : h ∈ (own i).map Prod.fst := by simp [holds]
  have away := apart.notMem i h mine
  have alone (j : ι) := apart.unique i j h mine
  constructor
  · intro h'
    rw [apart.held_iff]
    simp only [List.mem_cons, mem_update]
    grind
  · exact List.nodup_cons.mpr ⟨away, apart.nodup⟩
  · intro j h' mem
    rw [mem_update] at mem
    have before := apart.notMem j h'
    grind
  · intro j k h' mem mem'
    rw [mem_update] at mem mem'
    have before := apart.unique j k h'
    grind
  · intro j h' eq
    by_cases same : j = i
    · subst same
      simp at eq
    · rw [Function.update_of_ne same] at eq
      exact apart.guarded j h' eq
  · intro all h' mem
    rcases List.mem_cons.mp mem with rfl | mem
    · rw [safe all] at holds
      exact apart.guarded i h' holds
    · exact apart.live_guarded all h' mem
  · exact apart.once

end Apart
end Interaction
