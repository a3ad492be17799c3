import IoBluetooth.Sys.Custody

/-!
# Sockets that threads share

What the threads hold between them, where each keeps to what it has borrowed and to one
descriptor of its own: one lemma for each kind of step.
-/
namespace IoBluetooth

open Interaction

variable {ι : Type} {P : Platform} {K : Kernel} {s s' : Shared ι} {own : ι → Own Handle}
  {running : ι → Option Request} {i : ι} {q : Request}

theorem Socket.raw_injective : Function.Injective Socket.raw := by
  rintro ⟨a⟩ ⟨b⟩ same
  exact congrArg Socket.mk same

theorem Request.borrows_of_moves {self : Socket} (moved : q.moves = some self) :
    q.borrows = [] := by
  cases q with
  | drop => rfl
  | _ => cases moved

/-- Only calls change the descriptors and `TRY_CLOEXEC`. -/
theorem same_of_begins [DecidableEq ι] (admitted : (crate P K).begins running s q s') :
    s'.ledger = s.ledger ∧ s'.tryCloexec = s.tryCloexec := by
  obtain ⟨_, admitted⟩ := admitted
  cases moved : q.moves with
  | none =>
    rw [moved] at admitted
    rw [admitted]
    exact ⟨rfl, rfl⟩
  | some self =>
    rw [moved] at admitted
    rw [admitted.2.2]
    exact ⟨rfl, rfl⟩

theorem same_of_returns [DecidableEq ι] {a : Except Exit (Option Socket)}
    (ended : (crate P K : System ι _ _ _ _).returns q a s s') :
    s'.ledger = s.ledger ∧ s'.tryCloexec = s.tryCloexec := by
  match a with
  | .ok (some socket) =>
    rw [ended]
    exact ⟨rfl, rfl⟩
  | .ok none | .error e =>
    rw [ended]
    exact ⟨rfl, rfl⟩

/-- The descriptors behind the sockets that are alive are apart from those in the making, and
what is borrowed is alive. -/
structure Shared.Sound (P : Platform) (s : Shared ι) (own : ι → Own Handle)
    (running : ι → Option Request) : Prop where
  apart : Apart P.Covered s.ledger (s.live.map Socket.raw) own
  borrows : ∀ i q, running i = some q → q.borrows ⊆ s.live
  idle : ∀ i, running i = none → own i = none

namespace Shared.Sound

theorem start (P : Platform) :
    Sound P (Shared.start P : Shared ι) (fun _ => none) (fun _ => none) where
  apart := Apart.start
  borrows := by
    rintro i q ⟨⟩
  idle _ _ := rfl

variable [DecidableEq ι]

private theorem of_update {α : Type} {f : ι → α} {i j : ι} {a b : α}
    (eq : Function.update f i a j = b) : j = i ∧ a = b ∨ j ≠ i ∧ f j = b := by
  by_cases same : j = i
  · subst same
    rw [Function.update_self] at eq
    exact Or.inl ⟨rfl, eq⟩
  · rw [Function.update_of_ne same] at eq
    exact Or.inr ⟨same, eq⟩

theorem begins (sound : s.Sound P own running) (nothing : running i = none)
    (admitted : (crate P K).begins running s q s') :
    s'.Sound P (Function.update own i (q.moves.map fun socket => (socket.raw, false)))
      (Function.update running i (some q)) := by
  obtain ⟨alive, admitted⟩ := admitted
  have unowned := sound.idle i nothing
  constructor
  · cases moved : q.moves with
    | none =>
      rw [moved] at admitted
      rw [admitted, Option.map_none, ← unowned, Function.update_eq_self]
      exact sound.apart
    | some self =>
      rw [moved] at admitted
      obtain ⟨member, _, rfl⟩ := admitted
      have taken := sound.apart.take unowned (List.mem_map_of_mem (f := Socket.raw) member)
      rwa [← List.map_erase Socket.raw_injective] at taken
  · intro j q' job
    cases moved : q.moves with
    | none =>
      rw [moved] at admitted
      rw [admitted]
      rcases of_update job with ⟨_, ⟨⟩⟩ | ⟨_, job⟩
      · exact alive
      · exact sound.borrows j q' job
    | some self =>
      rw [moved] at admitted
      obtain ⟨_, unborrowed, rfl⟩ := admitted
      rcases of_update job with ⟨_, ⟨⟩⟩ | ⟨_, job⟩
      · rw [Request.borrows_of_moves moved]
        exact List.nil_subset _
      · -- what the others borrow is not what is dropped
        intro x member
        have other : x ≠ self := fun same => unborrowed j q' job (same ▸ member)
        exact (List.mem_erase_of_ne other).mpr (sound.borrows j q' job member)
  · intro j ended
    rcases of_update ended with ⟨_, ⟨⟩⟩ | ⟨other, ended⟩
    rw [Function.update_of_ne other]
    exact sound.idle j ended

theorem calls (sound : s.Sound P own running) (busy : running i = some q) {e : Event os}
    {o : Own Handle} {strict : Bool} (replied : (crate P K).calls i q s e s')
    (accepted : K.custody P strict (q.borrows.map Socket.raw) (own i) e = some o) :
    s'.Sound P (Function.update own i o) running := by
  obtain ⟨_, ⟨fresh, ledger⟩, live, _⟩ := replied
  obtain ⟨_, moves⟩ := (custody_eq_some _ _).mp accepted
  constructor
  · rw [ledger, live]
    exact sound.apart.moves moves fresh
  · rw [live]
    exact sound.borrows
  · intro j ended
    have other : j ≠ i := by
      rintro rfl
      cases busy.symm.trans ended
    rw [Function.update_of_ne other]
    exact sound.idle j ended

theorem returns (sound : s.Sound P own running) {a : Except Exit (Option Socket)}
    (left : Leaves P.Covered a (own i)) (settled : (crate P K : System ι _ _ _ _).returns q a s s') :
    s'.Sound P (Function.update own i none) (Function.update running i none) := by
  have idle (j : ι) (ended : Function.update running i none j = none) :
      Function.update own i none j = none := by
    rcases of_update ended with ⟨rfl, _⟩ | ⟨other, ended⟩
    · exact Function.update_self _ _ _
    · rw [Function.update_of_ne other]
      exact sound.idle j ended
  have same (unowned : own i = none) : Function.update own i none = own := by
    rw [← unowned, Function.update_eq_self]
  have borrows {t : Shared ι} (more : s.live ⊆ t.live) (j : ι) (q' : Request)
      (job : Function.update running i none j = some q') : q'.borrows ⊆ t.live := by
    rcases of_update job with ⟨_, ⟨⟩⟩ | ⟨_, job⟩
    exact List.Subset.trans (sound.borrows j q' job) more
  match a with
  | .ok (some socket) =>
    obtain ⟨g, holds, safe⟩ := left
    cases settled
    exact ⟨sound.apart.hand holds safe, borrows (List.subset_cons_self socket s.live), idle⟩
  | .ok none =>
    cases settled
    exact ⟨(same left).symm ▸ sound.apart, borrows (List.Subset.refl _), idle⟩
  | .error e =>
    cases settled
    exact ⟨(same left).symm ▸ sound.apart, borrows (List.Subset.refl _), idle⟩

end Shared.Sound
end IoBluetooth
