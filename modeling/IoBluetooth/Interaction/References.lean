import IoBluetooth.Interaction.Custody

/-!
# What handles refer to

Handles refer to objects: a new handle to a new object, or to the one that another handle refers
to. Where programs keep to their own handles, what each has acquired refers to what it should
until it is handed over, whatever the others do.
-/
namespace Interaction

variable {H ι : Type} [DecidableEq H]

/-- What each handle refers to, and the number of objects so far. -/
structure Table (H : Type) where
  refers : H → Option Nat
  made : Nat

namespace Table

omit [DecidableEq H] in
def empty : Table H := ⟨fun _ => none, 0⟩

/-- What a call does to the table; a handle that it acquires is a copy of `source`, if it has
one. -/
def after (T : Table H) (source : Option H) : Effect H → Table H
  | .none | .guard _ => T
  | .release h => { T with refers := Function.update T.refers h none }
  | .acquire h _ =>
    match source with
    | some s => { T with refers := Function.update T.refers h (T.refers s) }
    | none => ⟨Function.update T.refers h (some T.made), T.made + 1⟩

end Table

/-- How a program comes by the handle of its own. -/
inductive Origin (H : Type) where
  | made
  | copied (s : H)
  | given

/-- Every handle that is held refers to an object. One that a program has made is alone in
referring to its object, and a copy refers to what its source does. -/
structure Table.Tells (T : Table H) (L : Ledger H) (own : ι → Own H) (origin : ι → Origin H) :
    Prop where
  held : ∀ h, h ∈ L.held ↔ (T.refers h).isSome = true
  bound : ∀ h n, T.refers h = some n → n < T.made
  alone : ∀ i, ∀ h ∈ (own i).map Prod.fst, origin i = .made → ∀ h', T.refers h' = T.refers h → h' = h
  copied : ∀ i, ∀ h ∈ (own i).map Prod.fst, ∀ s, origin i = .copied s → T.refers h = T.refers s

namespace Table.Tells

variable {T : Table H} {L : Ledger H} {own : ι → Own H} {origin : ι → Origin H}

omit [DecidableEq H] in
theorem start (origin : ι → Origin H) :
    (Table.empty : Table H).Tells Ledger.empty (fun _ => none) origin where
  held h := by simp [Table.empty, Ledger.empty]
  bound := nofun
  alone := nofun
  copied := nofun

variable {sure : Prop} {live : List H} {i : ι} {h : H} {g : Bool}

omit [DecidableEq H] in
/-- What a program has is held, and so is not what is acquired. -/
theorem ne_acquired (apart : Apart sure L live own) (fresh : h ∉ L.held) {j : ι} {h' : H}
    (theirs : h' ∈ (own j).map Prod.fst) : h' ≠ h := by
  rintro rfl
  exact fresh ((apart.held_iff h').mpr (Or.inr ⟨j, theirs⟩))

omit [DecidableEq H] in
theorem source_ne_acquired (apart : Apart sure L live own) (fresh : h ∉ L.held) {s : H}
    (alive : s ∈ live) : s ≠ h := by
  rintro rfl
  exact fresh ((apart.held_iff s).mpr (Or.inl alive))

/-- What is acquired refers to something, as does what is held already. -/
theorem held_acquire (tells : T.Tells L own origin) (h : H) (g : Bool) {x : Option Nat}
    (refers : x.isSome = true) (h' : H) :
    h' ∈ (L.acquire h g).held ↔ (Function.update T.refers h x h').isSome = true := by
  rw [Ledger.acquire, Finset.mem_insert, tells.held]
  by_cases same : h' = h
  · subst same
    rw [Function.update_self]
    exact iff_of_true (Or.inl rfl) refers
  · rw [Function.update_of_ne same]
    exact or_iff_right same

variable [DecidableEq ι]

/-- A program acquires a handle to a new object. -/
theorem make (tells : T.Tells L own origin) (apart : Apart sure L live own)
    (sources : ∀ j s, origin j = .copied s → s ∈ live) (fresh : h ∉ L.held)
    (makes : origin i = .made) :
    (T.after none (.acquire h g)).Tells (L.acquire h g) (Function.update own i (some (h, g)))
      origin := by
  have new (h' : H) : T.refers h' ≠ some T.made := fun refers =>
    absurd (tells.bound h' _ refers) (Nat.lt_irrefl _)
  constructor
  · exact tells.held_acquire h g rfl
  · intro h' n refers
    simp only [after] at refers ⊢
    by_cases same : h' = h
    · subst same
      cases (Function.update_self h' _ T.refers).symm.trans refers
      exact Nat.lt_succ_self _
    · rw [Function.update_of_ne same] at refers
      exact (tells.bound h' n refers).trans (Nat.lt_succ_self _)
  · intro j h' mem makes' h'' refers
    simp only [after] at refers
    rcases (Apart.mem_update _ _ _ _ _).mp mem with ⟨rfl, own⟩ | ⟨_, theirs⟩
    · -- the new object is referred to by nothing else
      cases own
      by_contra other
      rw [Function.update_self, Function.update_of_ne other] at refers
      exact new h'' refers
    · have different := ne_acquired apart fresh theirs
      rw [Function.update_of_ne different] at refers
      by_cases same : h'' = h
      · subst same
        rw [Function.update_self] at refers
        exact absurd refers.symm (new h')
      · rw [Function.update_of_ne same] at refers
        exact tells.alone j h' theirs makes' h'' refers
  · intro j h' mem s copies
    rcases (Apart.mem_update _ _ _ _ _).mp mem with ⟨rfl, _⟩ | ⟨_, theirs⟩
    · cases makes.symm.trans copies
    · simp only [after]
      rw [Function.update_of_ne (ne_acquired apart fresh theirs),
        Function.update_of_ne (source_ne_acquired apart fresh (sources j s copies))]
      exact tells.copied j h' theirs s copies

/-- A program acquires a copy of a handle that was handed over. -/
theorem copy (tells : T.Tells L own origin) (apart : Apart sure L live own)
    (sources : ∀ j s, origin j = .copied s → s ∈ live) (fresh : h ∉ L.held) {s : H}
    (copies : origin i = .copied s) :
    (T.after (some s) (.acquire h g)).Tells (L.acquire h g) (Function.update own i (some (h, g)))
      origin := by
  have alive := sources i s copies
  have held : (T.refers s).isSome = true := (tells.held s).mp ((apart.held_iff s).mpr (Or.inl alive))
  constructor
  · exact tells.held_acquire h g held
  · intro h' n refers
    simp only [after] at refers ⊢
    by_cases same : h' = h
    · subst same
      rw [Function.update_self] at refers
      exact tells.bound s n refers
    · rw [Function.update_of_ne same] at refers
      exact tells.bound h' n refers
  · intro j h' mem makes h'' refers
    simp only [after] at refers
    rcases (Apart.mem_update _ _ _ _ _).mp mem with ⟨rfl, _⟩ | ⟨_, theirs⟩
    · cases copies.symm.trans makes
    · rw [Function.update_of_ne (ne_acquired apart fresh theirs)] at refers
      by_cases same : h'' = h
      · -- the source was handed over, so it is not what another has made
        subst same
        rw [Function.update_self] at refers
        exact absurd alive (tells.alone j h' theirs makes s refers ▸ apart.notMem j h' theirs)
      · rw [Function.update_of_ne same] at refers
        exact tells.alone j h' theirs makes h'' refers
  · intro j h' mem s' copies'
    simp only [after]
    rw [Function.update_of_ne (source_ne_acquired apart fresh (sources j s' copies'))]
    rcases (Apart.mem_update _ _ _ _ _).mp mem with ⟨rfl, own⟩ | ⟨_, theirs⟩
    · cases own
      cases copies.symm.trans copies'
      exact Function.update_self _ _ _
    · rw [Function.update_of_ne (ne_acquired apart fresh theirs)]
      exact tells.copied j h' theirs s' copies'

/-- A program releases the handle of its own. -/
theorem release (tells : T.Tells L own origin) (apart : Apart sure L live own)
    (sources : ∀ j s, origin j = .copied s → s ∈ live) (source : Option H)
    (holds : own i = some (h, g)) :
    (T.after source (.release h)).Tells (L.release h) (Function.update own i none) origin := by
  have mine : h ∈ (own i).map Prod.fst := by simp [holds]
  have theirs {j : ι} {h' : H} (mem : h' ∈ (Function.update own i none j).map Prod.fst) :
      h' ∈ (own j).map Prod.fst ∧ h' ≠ h := by
    rcases (Apart.mem_update _ _ _ _ _).mp mem with ⟨_, none⟩ | ⟨other, theirs⟩
    · cases none
    · refine ⟨theirs, ?_⟩
      rintro rfl
      exact other (apart.unique j i h' theirs mine)
  constructor
  · intro h'
    simp only [after, Ledger.release, Finset.mem_erase]
    by_cases same : h' = h
    · subst same
      simp
    · simp [same, tells.held]
  · intro h' n refers
    simp only [after] at refers ⊢
    by_cases same : h' = h
    · subst same
      simp at refers
    · rw [Function.update_of_ne same] at refers
      exact tells.bound h' n refers
  · intro j h' mem makes h'' refers
    obtain ⟨mem, different⟩ := theirs mem
    simp only [after] at refers
    rw [Function.update_of_ne different] at refers
    by_cases same : h'' = h
    · subst same
      have held := (tells.held h').mp ((apart.held_iff h').mpr (Or.inr ⟨j, mem⟩))
      rw [Function.update_self] at refers
      rw [← refers] at held
      cases held
    · rw [Function.update_of_ne same] at refers
      exact tells.alone j h' mem makes h'' refers
  · intro j h' mem s copies
    obtain ⟨mem, different⟩ := theirs mem
    have kept : s ≠ h := by
      rintro rfl
      exact apart.notMem i s mine (sources j s copies)
    simp only [after]
    rw [Function.update_of_ne different, Function.update_of_ne kept]
    exact tells.copied j h' mem s copies

/-- What one program does to the handles is told of as well. -/
theorem moves (tells : T.Tells L own origin) (apart : Apart sure L live own)
    (sources : ∀ j s, origin j = .copied s → s ∈ live) {strict : Bool} {x : Effect H} {o : Own H}
    (moved : Moves strict x (own i) o) (fresh : ∀ h g, x = .acquire h g → h ∉ L.held)
    {source : Option H} (comes : ∀ h g, x = .acquire h g →
      source = none ∧ origin i = .made ∨ ∃ s, source = some s ∧ origin i = .copied s) :
    (T.after source x).Tells (L.apply x) (Function.update own i o) origin := by
  cases before : own i with
  | none =>
    rw [before] at moved
    cases moved with
    | none => rwa [← before, Function.update_eq_self]
    | acquire h g _ =>
      rcases comes h g rfl with ⟨rfl, makes⟩ | ⟨s, rfl, copies⟩
      · exact tells.make apart sources (fresh h g rfl) makes
      · exact tells.copy apart sources (fresh h g rfl) copies
  | some hg =>
    rw [before] at moved
    cases moved with
    | none => rwa [← before, Function.update_eq_self]
    | release h g => exact tells.release apart sources source before
    | guard h g =>
      have same (j : ι) :
          (Function.update own i (some (h, true)) j).map Prod.fst = (own j).map Prod.fst := by
        by_cases same : j = i
        · subst same
          simp [before]
        · simp [same]
      constructor
      · exact tells.held
      · exact tells.bound
      · intro j h' mem
        rw [same] at mem
        exact tells.alone j h' mem
      · intro j h' mem
        rw [same] at mem
        exact tells.copied j h' mem

omit [DecidableEq ι] in
/-- What was handed over refers to what it did. -/
theorem after_live (T : Table H) (apart : Apart sure L live own) {strict : Bool} {x : Effect H}
    {o : Own H} (moved : Moves strict x (own i) o) (fresh : ∀ h g, x = .acquire h g → h ∉ L.held)
    (source : Option H) (alive : h ∈ live) : (T.after source x).refers h = T.refers h := by
  cases x with
  | none | guard => rfl
  | acquire h' g =>
    have different := source_ne_acquired apart (fresh h' g rfl) alive
    cases source <;> exact Function.update_of_ne different _ _
  | release h' =>
    refine Function.update_of_ne ?_ _ _
    rintro rfl
    generalize mine : own i = o' at moved
    cases moved with
    | release h g => exact apart.notMem i h (by simp [mine]) alive

omit [DecidableEq ι] in
/-- What another program has refers to what it did. -/
theorem after_theirs (T : Table H) (apart : Apart sure L live own) {strict : Bool} {x : Effect H}
    {o : Own H} (moved : Moves strict x (own i) o) (fresh : ∀ h g, x = .acquire h g → h ∉ L.held)
    (source : Option H) {j : ι} (other : j ≠ i) (theirs : h ∈ (own j).map Prod.fst) :
    (T.after source x).refers h = T.refers h := by
  cases x with
  | none | guard => rfl
  | acquire h' g =>
    have different := ne_acquired apart (fresh h' g rfl) theirs
    cases source <;> exact Function.update_of_ne different _ _
  | release h' =>
    refine Function.update_of_ne ?_ _ _
    rintro rfl
    generalize mine : own i = o' at moved
    cases moved with
    | release h g => exact other (apart.unique j i h theirs (by simp [mine]))

omit [DecidableEq H] in
/-- A program that starts anew has no handle of its own but one that it was given. -/
theorem renew (tells : T.Tells L own origin) (i : ι) (o : Own H) (x : Origin H)
    (harmless : ∀ h ∈ o.map Prod.fst, x = .given) :
    T.Tells L (Function.update own i o) (Function.update origin i x) := by
  constructor
  · exact tells.held
  · exact tells.bound
  · intro j h mem makes
    rcases (Apart.mem_update _ _ _ _ _).mp mem with ⟨rfl, mine⟩ | ⟨other, theirs⟩
    · rw [Function.update_self, harmless h mine] at makes
      cases makes
    · rw [Function.update_of_ne other] at makes
      exact tells.alone j h theirs makes
  · intro j h mem s copies
    rcases (Apart.mem_update _ _ _ _ _).mp mem with ⟨rfl, mine⟩ | ⟨other, theirs⟩
    · rw [Function.update_self, harmless h mine] at copies
      cases copies
    · rw [Function.update_of_ne other] at copies
      exact tells.copied j h theirs s copies

end Table.Tells
end Interaction
