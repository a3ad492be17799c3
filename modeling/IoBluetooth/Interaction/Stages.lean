import IoBluetooth.Interaction.References

/-!
# Conditions of objects

Calls change the condition of the object that they are made on. What a program has made is its
alone, so the program knows its condition; of what others can use as well it knows what every use
keeps.
-/
namespace Interaction

variable {H ι C : Type}

/-- What handles refer to is as it should be: `fits` for those that were handed over, `mine` for
what a program has made. -/
structure Table.Suits (T : Table H) (live : List H) (own : ι → Own H) (origin : ι → Origin H)
    (fits : H → C → Prop) (mine : ι → C → Prop) (condition : Nat → C) : Prop where
  live : ∀ h ∈ live, ∀ n, T.refers h = some n → fits h (condition n)
  own : ∀ i, ∀ h ∈ (own i).map Prod.fst, origin i = .made → ∀ n, T.refers h = some n →
    mine i (condition n)

/-- The conditions after a call, where `born` is that of an object that it makes. -/
def Table.conditions (T : Table H) (source : Option H) (x : Effect H) (born : C)
    (condition : Nat → C) : Nat → C :=
  match x, source with
  | .acquire _ _, none => Function.update condition T.made born
  | _, _ => condition

namespace Table.Suits

variable {T : Table H} {L : Ledger H} {live : List H} {own : ι → Own H} {origin : ι → Origin H}
  {fits : H → C → Prop} {mine : ι → C → Prop} {condition : Nat → C} {sure : Prop}

theorem start (origin : ι → Origin H) (condition : Nat → C) :
    (Table.empty : Table H).Suits [] (fun _ => none) origin fits mine condition where
  live := nofun
  own := nofun

variable [DecidableEq ι] {i : ι} {h : H} {n : Nat}

/-- A call on what a program has made is seen by nobody else. -/
theorem touch_own (suits : T.Suits live own origin fits mine condition)
    (tells : T.Tells L own origin) (apart : Apart sure L live own)
    (holds : h ∈ (own i).map Prod.fst) (makes : origin i = .made) (refers : T.refers h = some n)
    {c : C} {mine' : C → Prop} (known : mine' c) :
    T.Suits live own origin fits (Function.update mine i mine')
      (Function.update condition n c) := by
  have alone {h' : H} (same : T.refers h' = some n) : h' = h :=
    tells.alone i h holds makes h' (same.trans refers.symm)
  constructor
  · intro h' alive n' refers'
    have other : n' ≠ n := by
      rintro rfl
      exact apart.notMem i h holds (alone refers' ▸ alive)
    rw [Function.update_of_ne other]
    exact suits.live h' alive n' refers'
  · intro j h' theirs makes' n' refers'
    by_cases same : n' = n
    · subst same
      cases alone refers'
      cases apart.unique j i h theirs holds
      rwa [Function.update_self, Function.update_self]
    · have other : j ≠ i := by
        rintro rfl
        cases Option.mem_unique theirs holds
        exact same (Option.some.inj (refers'.symm.trans refers))
      rw [Function.update_of_ne same, Function.update_of_ne other]
      exact suits.own j h' theirs makes' n' refers'

omit [DecidableEq ι] in
/-- A call on what was handed over keeps what its users know. -/
theorem touch_live (suits : T.Suits live own origin fits mine condition)
    (tells : T.Tells L own origin) (apart : Apart sure L live own) (alive : h ∈ live)
    (refers : T.refers h = some n) {c : C}
    (keeps : ∀ h' ∈ live, fits h' (condition n) → fits h' c) :
    T.Suits live own origin fits mine (Function.update condition n c) := by
  constructor
  · intro h' alive' n' refers'
    by_cases same : n' = n
    · subst same
      rw [Function.update_self]
      exact keeps h' alive' (suits.live h' alive' n' refers')
    · rw [Function.update_of_ne same]
      exact suits.live h' alive' n' refers'
  · intro j h' theirs makes' n' refers'
    have other : n' ≠ n := by
      rintro rfl
      cases tells.alone j h' theirs makes' h (refers.trans refers'.symm)
      exact apart.notMem j h theirs alive
    rw [Function.update_of_ne other]
    exact suits.own j h' theirs makes' n' refers'

variable [DecidableEq H]

/-- What one program does to the handles leaves the objects of the others in their conditions. -/
theorem moves (suits : T.Suits live own origin fits mine condition) (tells : T.Tells L own origin)
    (apart : Apart sure L live own) {strict : Bool} {x : Effect H} {o : Own H}
    (moved : Moves strict x (own i) o) (fresh : ∀ h g, x = .acquire h g → h ∉ L.held)
    {source : Option H} (comes : ∀ h g, x = .acquire h g →
      source = none ∧ origin i = .made ∨ ∃ s, source = some s ∧ origin i = .copied s)
    {born : C} {mine' : C → Prop} (made : ∀ h g, x = .acquire h g → source = none → mine' born)
    (kept : (∀ h g, x ≠ .acquire h g) → ∀ c, mine i c → mine' c) :
    (T.after source x).Suits live (Function.update own i o) origin fits
      (Function.update mine i mine') (T.conditions source x born condition) := by
  -- an object that is referred to is not the next to be made
  have older {h : H} {n : Nat} (refers : T.refers h = some n) :
      T.conditions source x born condition n = condition n := by
    have other := Nat.ne_of_lt (tells.bound h n refers)
    cases x with
    | acquire h' g =>
      cases source with
      | none => exact Function.update_of_ne other _ _
      | some s => rfl
    | _ => rfl
  constructor
  · intro h' alive n' refers
    rw [Table.Tells.after_live T apart moved fresh source alive] at refers
    rw [older refers]
    exact suits.live h' alive n' refers
  · intro j h' theirs makes n' refers
    by_cases same : j = i
    · subst same
      rw [Function.update_self] at theirs ⊢
      generalize before : own j = o' at moved
      cases moved with
      | none =>
        rw [older refers]
        exact kept nofun _ (suits.own j h' (before ▸ theirs) makes n' refers)
      | guard h g =>
        rw [older refers]
        cases theirs
        exact kept nofun _ (suits.own j h (before ▸ rfl) makes n' refers)
      | release h g => cases theirs
      | acquire h g _ =>
        cases theirs
        rcases comes h g rfl with ⟨rfl, _⟩ | ⟨s, rfl, copies⟩
        · cases (Function.update_self h _ T.refers).symm.trans refers
          rw [show T.conditions none (.acquire h g) born condition T.made = born from
            Function.update_self _ _ _]
          exact made h g rfl rfl
        · cases makes.symm.trans copies
    · rw [Function.update_of_ne same] at theirs ⊢
      have unmoved : (T.after source x).refers h' = T.refers h' :=
        Table.Tells.after_theirs T apart moved fresh source same theirs
      rw [unmoved] at refers
      rw [older refers]
      exact suits.own j h' theirs makes n' refers

omit [DecidableEq H] in
/-- A program that starts anew has no object of its own making, nor one that is not handed over
any more. -/
theorem renew (suits : T.Suits live own origin fits mine condition) (i : ι) (o : Own H)
    (x : Origin H) (harmless : ∀ h ∈ o.map Prod.fst, x = .given) (mine' : C → Prop)
    {live' : List H} (fewer : live' ⊆ live) :
    T.Suits live' (Function.update own i o) (Function.update origin i x) fits
      (Function.update mine i mine') condition where
  live h alive := suits.live h (fewer alive)
  own j h theirs makes := by
    rcases (Apart.mem_update _ _ _ _ _).mp theirs with ⟨rfl, mine⟩ | ⟨other, theirs⟩
    · rw [Function.update_self, harmless h mine] at makes
      cases makes
    · rw [Function.update_of_ne other] at makes ⊢
      exact suits.own j h theirs makes

omit [DecidableEq ι] [DecidableEq H] in
/-- A handle is handed over, as what it refers to should be. -/
theorem hand (suits : T.Suits live own origin fits mine condition) {fits' : H → C → Prop}
    (same : ∀ h' ∈ live, ∀ c, fits h' c → fits' h' c)
    (suitable : ∀ n, T.refers h = some n → fits' h (condition n)) :
    T.Suits (h :: live) own origin fits' mine condition where
  live h' alive n refers := by
    rcases List.mem_cons.mp alive with rfl | alive
    · exact suitable n refers
    · exact same h' alive _ (suits.live h' alive n refers)
  own := suits.own

end Table.Suits
end Interaction
