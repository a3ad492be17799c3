import Mathlib.Data.List.Infix
import Mathlib.Logic.Function.Basic

/-!
# Connections

A connection has two ends. What is put in at one comes out at the other, in the same order, until
one end has finished or the other is deaf. What an end may see of it and do to it is a move; what
it has seen and done from the start is a list of moves.
-/
namespace Interaction

inductive Side where
  | left
  | right
  deriving DecidableEq, Repr

def Side.other : Side → Side
  | left => right
  | right => left

@[simp] theorem Side.other_other (b : Side) : b.other.other = b := by
  cases b <;> rfl

theorem Side.other_ne (b : Side) : b.other ≠ b := by
  cases b <;> decide

theorem Side.eq_or_eq_other (b c : Side) : c = b ∨ c = b.other := by
  cases b <;> cases c <;> decide

variable {β : Type}

/-- What is on its way to each end, and which ends have finished and which are deaf. -/
@[ext] structure Duplex (β : Type) where
  queue : Side → List β
  finished : Side → Bool
  deaf : Side → Bool

/-- What one end does: it puts items in, takes some that have arrived or only looks at them, finds
that there will be none, or gives up one direction or both. -/
inductive Move (β : Type) where
  | nothing
  | put (data : List β)
  | took (data : List β)
  | looked (data : List β)
  | atEnd
  | shut (finish deafen : Bool)

namespace Duplex

def new : Duplex β := ⟨fun _ => [], fun _ => false, fun _ => false⟩

/-- Nothing more will arrive at the end `b`, or it does not listen. -/
def Over (D : Duplex β) (b : Side) : Prop :=
  D.deaf b = true ∨ D.finished b.other = true ∧ D.queue b = []

inductive Does (D : Duplex β) (b : Side) : Move β → Duplex β → Prop
  | nothing : Does D b .nothing D
  | put {data} : D.finished b = false → Does D b (.put data)
      { D with queue := Function.update D.queue b.other (D.queue b.other ++ data) }
  | took {data rest} : D.queue b = data ++ rest →
      Does D b (.took data) { D with queue := Function.update D.queue b rest }
  | looked {data rest} : D.queue b = data ++ rest → Does D b (.looked data) D
  | atEnd : D.Over b → Does D b .atEnd D
  | shut (finish deafen) : Does D b (.shut finish deafen)
      { D with
        finished := Function.update D.finished b (D.finished b || finish)
        deaf := Function.update D.deaf b (D.deaf b || deafen) }

/-- Moves from the start, the latest last. -/
inductive Does.Steps : List (Side × Move β) → Duplex β → Prop
  | start : Steps [] new
  | step {ms D b m D'} : Steps ms D → Does D b m D' → Steps (ms ++ [(b, m)]) D'

end Duplex

/-! ### What has passed through -/

/-- What a move of the end `c` puts in at the end `b`. -/
def Move.given (b : Side) : Side × Move β → List β
  | (c, .put data) => if c = b then data else []
  | _ => []

/-- What a move of the end `c` takes out at the end `b`. -/
def Move.taken (b : Side) : Side × Move β → List β
  | (c, .took data) => if c = b then data else []
  | _ => []

def given (b : Side) (ms : List (Side × Move β)) : List β := ms.flatMap (Move.given b)

def taken (b : Side) (ms : List (Side × Move β)) : List β := ms.flatMap (Move.taken b)

section Through

variable {b c : Side} {m : Move β} {ms pre post : List (Side × Move β)} {D D' : Duplex β}

theorem given_append (b : Side) (pre post : List (Side × Move β)) :
    given b (pre ++ post) = given b pre ++ given b post := List.flatMap_append

theorem taken_append (b : Side) (pre post : List (Side × Move β)) :
    taken b (pre ++ post) = taken b pre ++ taken b post := List.flatMap_append

theorem given_concat (b : Side) (ms : List (Side × Move β)) (x : Side × Move β) :
    given b (ms ++ [x]) = given b ms ++ Move.given b x := by
  rw [given_append]
  exact congrArg _ (List.append_nil _)

theorem taken_concat (b : Side) (ms : List (Side × Move β)) (x : Side × Move β) :
    taken b (ms ++ [x]) = taken b ms ++ Move.taken b x := by
  rw [taken_append]
  exact congrArg _ (List.append_nil _)

namespace Duplex

/-- What a move puts in goes to the end of a queue, and what it takes comes from its front. -/
theorem Does.queue (does : Does D c m D') (b : Side) :
    Move.taken b (c, m) ++ D'.queue b = D.queue b ++ Move.given b.other (c, m) := by
  cases does with
  | nothing | looked _ | atEnd _ | shut _ _ => simp [Move.taken, Move.given]
  | put open_ =>
    rcases b.eq_or_eq_other c with rfl | rfl
    · simp [Move.taken, Move.given, c.other_ne.symm]
    · simp [Move.taken, Move.given]
  | took front =>
    rcases b.eq_or_eq_other c with rfl | rfl
    · simp [Move.taken, Move.given, front]
    · simp [Move.taken, Move.given, b.other_ne, b.other_ne.symm]

/-- Nothing is lost, duplicated, made up or out of order. -/
theorem Does.Steps.conserved (steps : Steps ms D) (b : Side) :
    taken b ms ++ D.queue b = given b.other ms := by
  induction steps with
  | start => rfl
  | @step ms D c m D' _ does ih =>
    rw [taken_concat, given_concat, List.append_assoc, does.queue b, ← List.append_assoc, ih]

theorem Does.finished_mono (does : Does D c m D') (ended : D.finished b = true) :
    D'.finished b = true := by
  cases does with
  | nothing | put _ | took _ | looked _ | atEnd _ => exact ended
  | shut finish deafen =>
    rcases b.eq_or_eq_other c with rfl | rfl
    · simp [ended]
    · simp [b.other_ne.symm, ended]

/-- An end that has finished puts nothing in. -/
theorem Does.given_of_finished (does : Does D c m D') (ended : D.finished b = true) :
    Move.given b (c, m) = [] := by
  cases does with
  | nothing | took _ | looked _ | atEnd _ | shut _ _ => rfl
  | put open_ =>
    refine if_neg ?_
    rintro rfl
    exact Bool.noConfusion (ended.symm.trans open_)

theorem Does.Steps.deaf (steps : Steps ms D) (deaf : D.deaf b = true) :
    ∃ finish, (b, .shut finish true) ∈ ms := by
  induction steps with
  | start => cases deaf
  | @step ms D c m D' _ does ih =>
    have earlier (before : D.deaf b = true) : ∃ finish, (b, .shut finish true) ∈ ms ++ [(c, m)] := by
      obtain ⟨finish, member⟩ := ih before
      exact ⟨finish, List.mem_append_left _ member⟩
    cases does with
    | nothing | put _ | took _ | looked _ | atEnd _ => exact earlier deaf
    | shut finish deafen =>
      rcases b.eq_or_eq_other c with rfl | rfl
      · cases before : D.deaf c with
        | true => exact earlier before
        | false =>
          simp only [Function.update_self, before, Bool.false_or] at deaf
          exact ⟨finish, by simp [deaf]⟩
      · simp only [Function.update_of_ne b.other_ne.symm] at deaf
        exact earlier deaf

/-- At any moment there was a state, after which an end that had finished put nothing in. -/
theorem Does.Steps.split (steps : Steps (pre ++ post) D) :
    ∃ D₀, Steps pre D₀ ∧ ∀ b, D₀.finished b = true →
      D.finished b = true ∧ given b (pre ++ post) = given b pre := by
  induction post using List.reverseRecOn generalizing D with
  | nil =>
    rw [List.append_nil] at steps
    exact ⟨D, steps, fun b ended => ⟨ended, by rw [List.append_nil]⟩⟩
  | append_singleton post x ih =>
    rw [← List.append_assoc] at steps
    generalize eq : pre ++ post ++ [x] = ms at steps
    cases steps with
    | start => simp at eq
    | step before does =>
      obtain ⟨rfl, same⟩ := List.append_inj' eq rfl
      cases same
      obtain ⟨D₀, first, still⟩ := ih before
      refine ⟨D₀, first, fun b ended => ?_⟩
      obtain ⟨ended', kept⟩ := still b ended
      refine ⟨does.finished_mono ended', ?_⟩
      rw [← List.append_assoc, given_concat, does.given_of_finished ended', List.append_nil, kept]

/-- The move after those in `pre`. -/
theorem Does.Steps.at (steps : Steps (pre ++ (b, m) :: post) D) :
    ∃ D₀ D₁, Steps pre D₀ ∧ Does D₀ b m D₁ ∧ ∀ c, D₁.finished c = true →
      given c (pre ++ (b, m) :: post) = given c (pre ++ [(b, m)]) := by
  rw [List.append_cons] at steps
  obtain ⟨D₁, upTo, still⟩ := steps.split
  generalize eq : pre ++ [(b, m)] = ms at upTo
  cases upTo with
  | start => simp at eq
  | step before does =>
    obtain ⟨rfl, same⟩ := List.append_inj' eq rfl
    cases same
    refine ⟨_, _, before, does, fun c ended => ?_⟩
    rw [List.append_cons]
    exact (still c ended).2

/-- What an end looks at is what comes next. -/
theorem Does.Steps.looked {data : List β} (steps : Steps (pre ++ (b, .looked data) :: post) D) :
    taken b pre ++ data <+: given b.other (pre ++ (b, .looked data) :: post) := by
  obtain ⟨D₀, D₁, before, does, _⟩ := steps.at
  cases does with
  | @looked _ rest front =>
    rw [given_append, ← before.conserved, front, ← List.append_assoc, List.append_assoc]
    exact List.prefix_append _ _

/-- An end that listens finds that nothing will come only after it has taken all that the other
puts in. -/
theorem Does.Steps.complete (steps : Steps (pre ++ (b, .atEnd) :: post) D)
    (listens : ∀ finish, (b, .shut finish true) ∉ pre) :
    taken b pre = given b.other (pre ++ (b, .atEnd) :: post) := by
  obtain ⟨D₀, D₁, before, does, still⟩ := steps.at
  cases does with
  | atEnd ended =>
    rcases ended with deaf | ⟨finished, empty⟩
    · obtain ⟨finish, member⟩ := before.deaf deaf
      exact absurd member (listens finish)
    · have all := before.conserved b
      rw [empty, List.append_nil] at all
      rw [still b.other finished, given_concat, all]
      exact (List.append_nil _).symm

end Duplex
end Through
end Interaction
