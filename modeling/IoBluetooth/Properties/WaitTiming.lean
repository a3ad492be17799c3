import IoBluetooth.Sys.Calls
import IoBluetooth.Sys.Waits
import IoBluetooth.Timing.Countdown
import Mathlib.Data.Set.Finite.Lattice

/-!
# How long the wait of `connect_timeout` takes

On Unix the wait polls in slices of whole milliseconds, as many as a `c_int` holds, against a
clock that counts nanoseconds.
-/
namespace IoBluetooth

open Interaction Memory Rust Countdown

def nanosPerMilli : Nat := 1000000

/-- `c_int::max_value()`. -/
def cIntMax : Nat := 2 ^ 31 - 1

/-! ### The argument of `poll` -/

/-- Neither the saturating arithmetic nor the cast loses anything. -/
theorem pollTimeout_eq (rest : Duration) :
    Unix.Socket.pollTimeout rest = slice nanosPerMilli cIntMax rest.total := by
  have nanos := rest.nanos_lt
  have millis : rest.total / 1000000 = rest.secs * 1000 + rest.nanos / 1000000 := by
    rw [Duration.total]
    omega
  have fits (ms : Nat) : asSigned 32 (min ms (2 ^ 31 - 1) : Nat) = (min ms (2 ^ 31 - 1) : Nat) := by
    apply asSigned_of_fits 31
    · omega
    · omega
  obtain ⟨ms, saturated⟩ : ∃ ms, ms = saturatingAdd 64 (saturatingMul 64 rest.asSecs 1000)
      (rest.subsecNanos / 1000000) := ⟨_, rfl⟩
  have unfolded : Unix.Socket.pollTimeout rest =
      asSigned 32 (min (if ms = 0 then 1 else ms) (2 ^ 31 - 1) : Nat) := by
    rw [saturated]
    rfl
  rw [unfolded, fits]
  simp only [saturatingAdd, saturatingMul, Duration.asSecs, Duration.subsecNanos] at saturated
  simp only [slice, nanosPerMilli, cIntMax, millis]
  -- less than a millisecond is polled for as one
  by_cases zero : ms = 0
  · rw [if_pos zero]
    omega
  · rw [if_neg zero]
    omega

/-- What a `poll` may be told when the clock was read as `d`. -/
structure Fits (timeout d : Duration) (argument : Int) : Prop where
  early : d.total < timeout.total
  pos : 1 ≤ argument
  le_max : argument ≤ 2 ^ 31 - 1
  le_rest : argument ≤ (max 1 ((timeout.total - d.total) / nanosPerMilli) : Nat)

theorem fits_pollTimeout (timeout d rest : Duration) (left : timeout.checkedSub d = some rest)
    (early : d.total < timeout.total) : Fits timeout d (Unix.Socket.pollTimeout rest) := by
  obtain ⟨rest', eq, total⟩ := Duration.checkedSub_of_le timeout d early.le
  obtain rfl : rest = rest' := Option.some.inj (left.symm.trans eq)
  have argument := pollTimeout_eq rest
  refine ⟨early, ?_, ?_, ?_⟩
  · have pos : 1 ≤ slice nanosPerMilli cIntMax rest.total := slice_pos (by decide)
    omega
  · have le : slice nanosPerMilli cIntMax rest.total ≤ cIntMax := slice_le_cap
    simp only [cIntMax] at le argument
    omega
  · have le : slice nanosPerMilli cIntMax rest.total ≤ max 1 (rest.total / nanosPerMilli) :=
      slice_le_rest
    rw [argument, ← total]
    exact_mod_cast le

/-- Every `poll` of the trace comes right after a reading of the clock, and fits it. -/
def PollsFit (timeout : Duration) (t : Trace os) : Prop :=
  ∀ u fd events argument r v, t = u ++ ⟨.poll fd events argument, r⟩ :: v →
    ∃ u' d, u = u' ++ [⟨.elapsed, d⟩] ∧ Fits timeout d argument

def isPoll (e : Event os) : Prop :=
  match e.call with
  | .poll .. => True
  | _ => False

theorem pollsFit_of_no_poll (timeout : Duration) (t : Trace os) (none : ∀ e ∈ t, ¬isPoll e) :
    PollsFit timeout t := by
  rintro u fd events argument r v rfl
  exact absurd trivial (none _ (List.mem_append_right u List.mem_cons_self))

theorem pollsFit_slice (timeout d : Duration) (fd : Handle) (events : BitVec 16) (argument : Int)
    (r : PollReply) (fits : Fits timeout d argument) :
    PollsFit timeout [⟨.elapsed, d⟩, ⟨.poll fd events argument, r⟩] := by
  intro u fd' events' argument' r' v eq
  match u with
  | [] => cases eq
  | [e] =>
    cases eq
    exact ⟨[], d, rfl, fits⟩
  | _ :: _ :: _ => simp at eq

theorem PollsFit.append {timeout : Duration} {t t' : Trace os} (first : PollsFit timeout t)
    (rest : PollsFit timeout t') : PollsFit timeout (t ++ t') := by
  intro u fd events argument r v eq
  -- the `poll` is in `t'`, or else in `t`
  rcases List.append_eq_append_iff.mp eq with ⟨w, rfl, same⟩ | ⟨w, rfl, same⟩
  · obtain ⟨u', d, rfl, fits⟩ := rest w fd events argument r v same
    exact ⟨t ++ u', d, (List.append_assoc t u' _).symm, fits⟩
  · cases w with
    | nil =>
      -- the `poll` would be the first event of `t'`, with no reading before it
      obtain ⟨u', d, wrong, _⟩ := rest [] fd events argument r v same.symm
      cases u' <;> cases wrong
    | cons e w =>
      cases same
      exact first u fd events argument r w rfl

section Waits

variable (self : Socket) (timeout : Duration)

/-- A turn that has begun polls at most once, after it read the clock. -/
theorem begun_turn (t : Trace os) (begun : Begins (Unix.Socket.waitTurn self timeout).run t) :
    (∀ e ∈ t, ¬isPoll e) ∨
      ∃ (d rest : Duration) (r : PollReply) (v : Trace os), timeout.checkedSub d = some rest ∧
        d.total < timeout.total ∧ (∀ e ∈ v, ¬isPoll e) ∧
        t = [⟨.elapsed, d⟩, ⟨.poll self.raw Unix.POLLOUT (Unix.Socket.pollTimeout rest), r⟩] ++
          v := by
  -- the turn may have stopped before the clock or before the `poll`
  rcases begins_sys_bind _ _ t begun with rfl | ⟨d, u, rfl, after⟩
  · exact Or.inl (by simp)
  by_cases expired : timeout.le d
  · rw [if_pos expired] at after
    cases after
    exact Or.inl (by simp [isPoll])
  · rw [if_neg expired] at after
    have early : d.total < timeout.total := by
      rw [Duration.le_iff] at expired
      omega
    obtain ⟨rest, left, _⟩ := Duration.checkedSub_of_le timeout d early.le
    rw [left] at after
    rcases begins_sys_bind _ _ u after with rfl | ⟨r, v, rfl, last⟩
    · exact Or.inl (by simp [isPoll])
    · have quiet : ∀ e ∈ v, ¬isPoll e :=
        Unix.Socket.emits_afterPoll self r (fun _ => id) v last
      exact Or.inr ⟨d, rest, r, v, left, early, quiet, rfl⟩

/-- The invariant of the loop, over runs that may go on forever. -/
private theorem begins_waitLoop (t : Trace os)
    (begun : Begins (Unix.Socket.waitLoop self timeout).run t) : PollsFit timeout t := by
  refine begins_repeating_induction ?_ ?_ () t begun
  · -- the turn that is under way
    intro _ t first
    rcases begun_turn self timeout t first with quiet | ⟨d, rest, r, v, left, early, quiet, rfl⟩
    · exact pollsFit_of_no_poll timeout t quiet
    · exact (pollsFit_slice timeout d self.raw Unix.POLLOUT _ r
        (fits_pollTimeout timeout d rest left early)).append (pollsFit_of_no_poll timeout v quiet)
  · -- one that went round again, and the rest of the loop
    intro _ _ u t turn ih
    obtain ⟨d, rest, r, left, early, _, rfl⟩ :=
      ((Unix.runs_waitTurn self timeout u _).mp turn).idles
    exact (pollsFit_slice timeout d self.raw Unix.POLLOUT _ r
      (fits_pollTimeout timeout d rest left early)).append ih

end Waits

/-! ### Why a wait fails -/

def underflow : Exit := .panic "overflow when subtracting durations"

/-- A turn makes the error of a timeout only where the clock says so. -/
theorem turn_error {self : Socket} {timeout : Duration} {t : Trace os} {x : Exit}
    (turn : Unix.Turn self timeout t (.error x)) :
    (x = .err timedOut ∧ ∃ d, t = [⟨.elapsed, d⟩] ∧ timeout.total ≤ d.total) ∨
      (x ≠ .err timedOut ∧ x ≠ underflow) := by
  generalize outcome : (.error x : Except Exit (Unit ⊕ Unit)) = y at turn
  cases turn with
  | @expired d expired =>
    cases outcome
    exact Or.inl ⟨rfl, d, rfl, expired⟩
  -- after a `poll` every error is another one
  | polled _ _ polled =>
    refine Or.inr ?_
    cases polled with
    | interrupted _ => cases outcome
    | failed _ _ =>
      cases outcome
      exact ⟨nofun, nofun⟩
    | idle _ => cases outcome
    | ready _ _ _ => cases outcome
    | hungUp _ _ _ took =>
      cases took with
      | failed _ =>
        cases outcome
        exact ⟨nofun, nofun⟩
      | malformed _ _ =>
        cases outcome
        exact ⟨nofun, by decide⟩
      | clear _ _ _ =>
        cases outcome
        exact ⟨by decide, nofun⟩
      | taken _ _ _ =>
        cases outcome
        exact ⟨nofun, nofun⟩

theorem waitLoop_error (self : Socket) (timeout : Duration) (t : Trace os) (x : Exit)
    (run : Runs (Unix.Socket.waitLoop self timeout).run t (.error x)) :
    (x = .err timedOut ∧ ∃ u d, t = u ++ [⟨.elapsed, d⟩] ∧ timeout.total ≤ d.total) ∨
      (x ≠ .err timedOut ∧ x ≠ underflow) := by
  obtain ⟨turns, v, rfl, _, last⟩ := Unix.waitLoop_last self timeout t _ run
  rcases turn_error last with ⟨rfl, d, rfl, expired⟩ | other
  · exact Or.inl ⟨rfl, turns.flatten, d, rfl, expired⟩
  · exact Or.inr other

/-! ### Schedules -/

/-- What the clock reads before each `poll`, what the polls return, and the answer to a query of
the socket's error. Nothing else a wait calls has more than one reply. -/
structure Schedule where
  clock : Nat → Duration
  polls : Nat → PollReply
  error : GetsockoptReply .int
  monotone : ∀ n, (clock n).total ≤ (clock (n + 1)).total

namespace Schedule

/-- The state is the number of polls so far. -/
def replies (S : Schedule) : Environment os Nat := fun n e m =>
  match e with
  | ⟨.elapsed, d⟩ => d = S.clock n ∧ m = n
  | ⟨.poll .., r⟩ => r = S.polls n ∧ m = n + 1
  | ⟨.getsockopt _ .int _, g⟩ => g = S.error ∧ m = n
  | _ => m = n

variable (S : Schedule) (timeout : Duration)

/-- The wait comes to its `n`-th `poll`, and this is what it passes. -/
def Polls (n : Nat) (argument : Int) : Prop :=
  (S.clock n).total < timeout.total ∧
    ∃ rest, timeout.checkedSub (S.clock n) = some rest ∧ argument = Unix.Socket.pollTimeout rest

/-- A `poll` that returns zero has let at least its argument elapse. -/
def WaitsOut : Prop :=
  ∀ n argument, S.Polls timeout n argument → (S.polls n).ret.value = 0 →
    (S.clock n).total + argument * nanosPerMilli ≤ (S.clock (n + 1)).total

/-- A `poll` without a result takes at most its argument, and nothing else takes time. -/
def Punctual : Prop :=
  (S.clock 0).total = 0 ∧
  ∀ n argument, S.Polls timeout n argument →
    Unix.interrupted (S.polls n).ret ∨ (S.polls n).ret.value = 0 →
    (S.clock (n + 1)).total ≤ (S.clock n).total + argument * nanosPerMilli

/-- What is left of the time before the `n`-th `poll`. -/
def left (n : Nat) : Nat := timeout.total - (S.clock n).total

theorem left_succ_le (n : Nat) : S.left timeout (n + 1) ≤ S.left timeout n :=
  Nat.sub_le_sub_left (S.monotone n) timeout.total

variable {S timeout}

theorem Polls.argument_eq {n : Nat} {argument : Int} (polls : S.Polls timeout n argument) :
    argument = slice nanosPerMilli cIntMax (S.left timeout n) := by
  obtain ⟨early, rest, some, passed⟩ := polls
  obtain ⟨rest', eq, total⟩ := Duration.checkedSub_of_le timeout (S.clock n) early.le
  obtain rfl : rest = rest' := Option.some.inj (some.symm.trans eq)
  rw [passed, pollTimeout_eq, left, total]

theorem steps_of_no_poll (t : Trace os) (none : ∀ e ∈ t, ¬isPoll e) (n m : Nat)
    (steps : Steps S.replies n t m) : m = n := by
  induction t generalizing n with
  | nil => exact (steps_nil _ _ _).mp steps
  | cons e t ih =>
    obtain ⟨k, first, rest⟩ := (steps_cons _ _ _ _ _).mp steps
    have same : k = n := by
      unfold replies at first
      split at first
      · exact first.2
      · exact absurd trivial (none _ List.mem_cons_self)
      · exact first.2
      · exact first
    rw [ih (fun e member => none e (List.mem_cons_of_mem _ member)) k rest, same]

/-- The events that the schedule makes of a reading of the clock and a `poll`. -/
theorem steps_slice (d rest : Duration) (fd : Handle) (events : BitVec 16) (r : PollReply)
    (some : timeout.checkedSub d = some rest) (early : d.total < timeout.total) (n m : Nat)
    (steps : Steps S.replies n
      [⟨.elapsed, d⟩, ⟨.poll fd events (Unix.Socket.pollTimeout rest), r⟩] m) :
    d = S.clock n ∧ r = S.polls n ∧ m = n + 1 ∧
      S.Polls timeout n (Unix.Socket.pollTimeout rest) := by
  obtain ⟨k, ⟨rfl, rfl⟩, polled⟩ := (steps_cons _ _ _ _ _).mp steps
  obtain ⟨rfl, rfl⟩ := (steps_singleton _ _ _ _).mp polled
  exact ⟨rfl, rfl, rfl, early, rest, some, rfl⟩

/-- Each `poll` that returns zero is taken off the budget of slices. -/
theorem WaitsOut.budget_lt {n : Nat} {argument : Int} (waits : S.WaitsOut timeout)
    (polls : S.Polls timeout n argument) (zero : (S.polls n).ret.value = 0) :
    budget nanosPerMilli cIntMax (S.left timeout (n + 1)) <
      budget nanosPerMilli cIntMax (S.left timeout n) := by
  have elapsed := waits n argument polls zero
  have early := polls.1
  rw [polls.argument_eq] at elapsed
  apply Countdown.budget_lt
  · decide
  · decide
  · unfold left
    omega
  · have natural : (S.clock n).total + slice nanosPerMilli cIntMax (S.left timeout n) *
        nanosPerMilli ≤ (S.clock (n + 1)).total := by exact_mod_cast elapsed
    unfold left at *
    omega

end Schedule

/-! ### Polls that return zero -/

/-- How many polls of the trace returned zero. -/
def zeroPolls (t : Trace os) : Nat :=
  t.countP fun e => match e with
    | ⟨.poll .., r⟩ => r.ret.value = 0
    | _ => false

theorem zeroPolls_append (t u : Trace os) : zeroPolls (t ++ u) = zeroPolls t + zeroPolls u :=
  List.countP_append

theorem zeroPolls_slice (d : Duration) (fd : Handle) (events : BitVec 16) (argument : Int)
    (r : PollReply) :
    zeroPolls [⟨.elapsed, d⟩, ⟨.poll fd events argument, r⟩] =
      if r.ret.value = 0 then 1 else 0 := by
  by_cases zero : r.ret.value = 0 <;> simp [zeroPolls, zero]

theorem zeroPolls_of_no_poll (t : Trace os) (none : ∀ e ∈ t, ¬isPoll e) : zeroPolls t = 0 := by
  rw [zeroPolls, List.countP_eq_zero]
  intro e member
  split
  · exact absurd trivial (none _ member)
  · exact Bool.false_ne_true

section Loop

variable {S : Schedule} {timeout : Duration} (self : Socket)

/-- Polls that return zero are paid for with the budget, in any run, also one that goes on. -/
theorem zeroPolls_le_budget (waits : S.WaitsOut timeout) (t : Trace os)
    (begun : Begins (Unix.Socket.waitLoop self timeout).run t) (n m : Nat)
    (steps : Steps S.replies n t m) :
    zeroPolls t ≤ budget nanosPerMilli cIntMax (S.left timeout n) := by
  -- one `poll` lowers the budget by at least what it adds to the count
  have paid (n : Nat) (argument : Int) (polls : S.Polls timeout n argument) :
      (if (S.polls n).ret.value = 0 then 1 else 0) +
        budget nanosPerMilli cIntMax (S.left timeout (n + 1)) ≤
        budget nanosPerMilli cIntMax (S.left timeout n) := by
    split
    · next zero =>
      have less := waits.budget_lt polls zero
      omega
    · rw [Nat.zero_add]
      exact budget_mono (S.left_succ_le timeout n)
  -- induction over the turns, for any place in the schedule
  revert n m
  refine begins_repeating_induction ?_ ?_ () t begun
  · -- the turn that is under way polls at most once
    intro _ t first n m steps
    rcases begun_turn self timeout t first with quiet | ⟨d, rest, r, v, some, early, quiet, rfl⟩
    · rw [zeroPolls_of_no_poll t quiet]
      exact Nat.zero_le _
    · obtain ⟨k, polled, _⟩ := (steps_append _ _ _ _ _).mp steps
      obtain ⟨rfl, rfl, _, polls⟩ := Schedule.steps_slice d rest _ _ r some early n k polled
      have paid := paid n _ polls
      rw [zeroPolls_append, zeroPolls_slice, zeroPolls_of_no_poll v quiet]
      omega
  · -- a completed turn polls exactly once
    intro _ _ u t turn ih n m steps
    obtain ⟨d, rest, r, some, early, _, rfl⟩ := ((Unix.runs_waitTurn _ _ _ _).mp turn).idles
    obtain ⟨k, polled, after⟩ := (steps_append _ _ _ _ _).mp steps
    obtain ⟨rfl, rfl, rfl, polls⟩ := Schedule.steps_slice d rest _ _ r some early n k polled
    have paid := paid n _ polls
    have later := ih (n + 1) m after
    rw [zeroPolls_append, zeroPolls_slice]
    omega

/-- The clock is never a whole millisecond past the end where every `poll` is punctual. -/
theorem punctual_waitLoop (punctual : S.Punctual timeout) (t : Trace os) (y : Except Exit Unit)
    (run : Runs (Unix.Socket.waitLoop self timeout).run t y) (n m : Nat)
    (near : (S.clock n).total < timeout.total + nanosPerMilli) (steps : Steps S.replies n t m)
    (expired : y = .error (.err timedOut)) :
    ∃ u d, t = u ++ [⟨.elapsed, d⟩] ∧ d.total < timeout.total + nanosPerMilli := by
  revert expired n m
  refine runs_repeating_induction ?_ ?_ ?_ () t y run
  · -- the last turn reads the clock where the induction left it
    intro _ t e last n m near steps expired
    cases expired
    rcases turn_error ((Unix.runs_waitTurn _ _ _ _).mp last) with ⟨_, d, rfl, _⟩ | ⟨wrong, _⟩
    · obtain ⟨rfl, _⟩ := (steps_singleton _ _ _ _).mp steps
      exact ⟨[], S.clock n, rfl, near⟩
    · exact absurd rfl wrong
  · -- a wait that succeeds is no timeout
    intro _ t b _ n m _ _ expired
    cases expired
  · intro _ _ u t y turn _ ih n m near steps expired
    obtain ⟨k, first, after⟩ := (steps_append _ _ _ _ _).mp steps
    obtain ⟨d, rest, r, some, early, quiet, rfl⟩ := ((Unix.runs_waitTurn _ _ _ _).mp turn).idles
    obtain ⟨rfl, rfl, rfl, polls⟩ := Schedule.steps_slice d rest _ _ r some early n k first
    -- the slice takes the clock to the end of the wait, or one millisecond on
    have elapsed := punctual.2 n _ polls quiet
    have slice := @slice_mul_le nanosPerMilli cIntMax (S.left timeout n)
    have counted : 0 < nanosPerMilli := by decide
    have next : (S.clock (n + 1)).total < timeout.total + nanosPerMilli := by
      rw [polls.argument_eq] at elapsed
      have natural : (S.clock (n + 1)).total ≤ (S.clock n).total +
          Countdown.slice nanosPerMilli cIntMax (S.left timeout n) * nanosPerMilli := by
        exact_mod_cast elapsed
      unfold Schedule.left at *
      omega
    obtain ⟨v, d, rfl, soon⟩ := ih (n + 1) m next after expired
    exact ⟨_ ++ v, d, (List.append_assoc _ v _).symm, soon⟩

/-! ### Termination -/

/-- Where the clock is, the next turn comes to an end; it is followed by another only if its
`poll` had no result. -/
theorem turn_ends (S : Schedule) (n : Nat) :
    ∃ t x m, Runs (Unix.Socket.waitTurn self timeout).run t x ∧ Steps S.replies n t m ∧
      ∀ s', x = .ok (.inl s') → m = n + 1 ∧ (∃ argument, S.Polls timeout n argument) ∧
        (Unix.interrupted (S.polls n).ret ∨ (S.polls n).ret.value = 0) := by
  by_cases expired : timeout.total ≤ (S.clock n).total
  · exact ⟨_, _, n, (Unix.runs_waitTurn _ _ _ _).mpr (.expired expired),
      (steps_singleton _ _ _ _).mpr ⟨rfl, rfl⟩, nofun⟩
  have early : (S.clock n).total < timeout.total := by omega
  obtain ⟨rest, left, _⟩ := Duration.checkedSub_of_le timeout (S.clock n) early.le
  have polls : ∃ argument, S.Polls timeout n argument := ⟨_, early, rest, left, rfl⟩
  have query : ∃ v y, TookError self v y ∧ Steps S.replies (n + 1) v (n + 1) := by
    obtain ⟨y, took⟩ := tookError_exists self S.error
    exact ⟨_, y, took, (steps_singleton _ _ _ _).mpr ⟨rfl, rfl⟩⟩
  -- whatever the `poll` returns, the turn has a way on
  have polled : ∃ v x, Unix.Polled self (S.polls n) v x ∧ Steps S.replies (n + 1) v (n + 1) ∧
      ∀ s', x = .ok (.inl s') →
        Unix.interrupted (S.polls n).ret ∨ (S.polls n).ret.value = 0 := by
    by_cases failed : (S.polls n).ret.value = -1
    · by_cases signal : (S.polls n).ret.errno = EINTR
      · exact ⟨[], _, .interrupted ⟨failed, signal⟩, .nil _, fun _ _ => Or.inl ⟨failed, signal⟩⟩
      · exact ⟨[], _, .failed failed signal, .nil _, nofun⟩
    · by_cases idle : (S.polls n).ret.value = 0
      · exact ⟨[], _, .idle idle, .nil _, fun _ _ => Or.inr idle⟩
      · by_cases hup : (S.polls n).revents &&& Unix.POLLHUP = 0
        · exact ⟨[], _, .ready failed idle hup, .nil _, nofun⟩
        · obtain ⟨v, y, took, steps⟩ := query
          refine ⟨v, _, .hungUp failed idle hup took, steps, ?_⟩
          rcases y with _ | _ | _ <;> exact nofun
  obtain ⟨v, x, after, steps, quiet⟩ := polled
  refine ⟨_, x, n + 1, (Unix.runs_waitTurn _ _ _ _).mpr (.polled left early after), ?_, ?_⟩
  · exact .cons ⟨rfl, rfl⟩ (.cons ⟨rfl, rfl⟩ steps)
  · intro s' again
    exact ⟨rfl, polls, quiet s' again⟩

/-- The variant of the loop: the slices that remain, and the interruptions to come. -/
def turnsLeft (S : Schedule) (timeout : Duration) (last n : Nat) : Nat :=
  budget nanosPerMilli cIntMax (S.left timeout n) + (last + 1 - n)

theorem turnsLeft_succ_lt (waits : S.WaitsOut timeout) (last : Nat)
    (signals : ∀ n, Unix.interrupted (S.polls n).ret → n ≤ last) (n : Nat) (argument : Int)
    (polls : S.Polls timeout n argument)
    (quiet : Unix.interrupted (S.polls n).ret ∨ (S.polls n).ret.value = 0) :
    turnsLeft S timeout last (n + 1) < turnsLeft S timeout last n := by
  unfold turnsLeft
  rcases quiet with signal | zero
  · -- after an interruption one fewer is to come, and no slice was spent
    have before := signals n signal
    have less := @budget_mono nanosPerMilli cIntMax _ _ (S.left_succ_le timeout n)
    omega
  · -- a `poll` that waited takes a slice off the budget
    have less := waits.budget_lt polls zero
    omega

theorem waitLoop_ends (waits : S.WaitsOut timeout) (last : Nat)
    (signals : ∀ n, Unix.interrupted (S.polls n).ret → n ≤ last) (n : Nat) :
    Ends S.replies n (Unix.Socket.waitLoop self timeout).run := by
  refine ends_repeating (fun _ n => turnsLeft S timeout last n) (fun _ n => ?_) () n
  obtain ⟨t, x, m, run, steps, again⟩ := turn_ends self S n
  refine ⟨t, x, m, run, steps, fun s' eq => ?_⟩
  obtain ⟨rfl, ⟨argument, polls⟩, quiet⟩ := again s' eq
  exact turnsLeft_succ_lt waits last signals n argument polls quiet

/-- No run polls more often than the variant allows, finished or not. -/
theorem polls_le_turnsLeft (waits : S.WaitsOut timeout) (last : Nat)
    (signals : ∀ n, Unix.interrupted (S.polls n).ret → n ≤ last) (t : Trace os)
    (begun : Begins (Unix.Socket.waitLoop self timeout).run t) (n m : Nat)
    (steps : Steps S.replies n t m) : m ≤ n + turnsLeft S timeout last n + 1 := by
  -- the turn under way polls once more than the variant has turns
  revert n m
  refine begins_repeating_induction ?_ ?_ () t begun
  · intro _ t first n m steps
    rcases begun_turn self timeout t first with quiet | ⟨d, rest, r, v, some, early, quiet, rfl⟩
    · rw [Schedule.steps_of_no_poll t quiet n m steps]
      omega
    · obtain ⟨k, polled, after⟩ := (steps_append _ _ _ _ _).mp steps
      obtain ⟨_, _, rfl, _⟩ := Schedule.steps_slice d rest _ _ r some early n k polled
      rw [Schedule.steps_of_no_poll v quiet _ m after]
      omega
  · intro _ _ u t turn ih n m steps
    obtain ⟨d, rest, r, some, early, quiet, rfl⟩ := ((Unix.runs_waitTurn _ _ _ _).mp turn).idles
    obtain ⟨k, polled, after⟩ := (steps_append _ _ _ _ _).mp steps
    obtain ⟨rfl, rfl, rfl, polls⟩ := Schedule.steps_slice d rest _ _ r some early n k polled
    have less := turnsLeft_succ_lt waits last signals n _ polls quiet
    have later := ih (n + 1) m after
    omega

end Loop

/-! ### The wait -/

theorem runs_connectWait_pos (self : Socket) (timeout : Duration) (positive : timeout.total ≠ 0)
    (t : Trace os) (y : Except Exit Unit) :
    Runs (Unix.Socket.connectWait self timeout).run t y ↔
      ∃ u, t = ⟨.instantNow, ()⟩ :: u ∧ Runs (Unix.Socket.waitLoop self timeout).run u y := by
  rw [Unix.runs_connectWait]
  constructor
  · rintro (⟨zero, _⟩ | ⟨_, run⟩)
    · exact absurd zero positive
    · exact run
  · intro run
    exact Or.inr ⟨positive, run⟩

theorem begins_connectWait (self : Socket) (timeout : Duration) (positive : timeout.total ≠ 0)
    (t : Trace os) (begun : Begins (Unix.Socket.connectWait self timeout).run t) :
    t = [] ∨ ∃ u, t = ⟨.instantNow, ()⟩ :: u ∧
      Begins (Unix.Socket.waitLoop self timeout).run u := by
  unfold Unix.Socket.connectWait at begun
  rw [if_neg (by rw [Duration.isZero_iff]; exact positive)] at begun
  rcases begins_sys_bind _ _ t begun with rfl | ⟨_, u, rfl, loop⟩
  · exact Or.inl rfl
  · exact Or.inr ⟨u, rfl, loop⟩

/-- What `poll` is told in any run of the wait, also one that never ends; when the wait fails
with a timeout; and, where polls wait for what they are told, that it ends and how soon. -/
theorem wait_timing (self : Socket) (timeout : Duration) (positive : timeout.total ≠ 0) :
    (∀ t, Begins (Unix.Socket.connectWait self timeout).run t → PollsFit timeout t) ∧
    (∀ t y, Runs (Unix.Socket.connectWait self timeout).run t y →
      y ≠ .error underflow ∧
      (y = .error (.err timedOut) →
        ∃ u d, t = u ++ [⟨.elapsed, d⟩] ∧ timeout.total ≤ d.total)) ∧
    ∀ S : Schedule, S.WaitsOut timeout →
      ({n | Unix.interrupted (S.polls n).ret}.Finite →
        Ends S.replies 0 (Unix.Socket.connectWait self timeout).run ∧
        ∃ most, ∀ t polls, Begins (Unix.Socket.connectWait self timeout).run t →
          Steps S.replies 0 t polls → polls ≤ most) ∧
      (∀ t n, Begins (Unix.Socket.connectWait self timeout).run t → Steps S.replies 0 t n →
        zeroPolls t ≤ timeout.total / nanosPerMilli / cIntMax + 2) ∧
      (S.Punctual timeout → ∀ t n,
        Runs (Unix.Socket.connectWait self timeout).run t (.error (.err timedOut)) →
        Steps S.replies 0 t n →
          ∃ u d, t = u ++ [⟨.elapsed, d⟩] ∧ d.total < timeout.total + nanosPerMilli) := by
  refine ⟨?_, ?_, ?_⟩
  · intro t begun
    rcases begins_connectWait self timeout positive t begun with rfl | ⟨u, rfl, loop⟩
    · exact pollsFit_of_no_poll timeout _ (by simp)
    · have started : PollsFit timeout [⟨.instantNow, ()⟩] :=
        pollsFit_of_no_poll timeout _ (by simp [isPoll])
      exact started.append (begins_waitLoop self timeout u loop)
  · intro t y run
    obtain ⟨u, rfl, loop⟩ := (runs_connectWait_pos self timeout positive t y).mp run
    constructor
    · rintro rfl
      rcases waitLoop_error self timeout u _ loop with ⟨wrong, _⟩ | ⟨_, other⟩
      · cases wrong
      · exact other rfl
    · rintro rfl
      rcases waitLoop_error self timeout u _ loop with ⟨_, v, d, rfl, expired⟩ | ⟨wrong, _⟩
      · exact ⟨⟨.instantNow, ()⟩ :: v, d, rfl, expired⟩
      · exact absurd rfl wrong
  · intro S waits
    refine ⟨?_, ?_, ?_⟩
    · intro finite
      obtain ⟨last, bound⟩ := finite.bddAbove
      have signals (n : Nat) (signal : Unix.interrupted (S.polls n).ret) : n ≤ last := bound signal
      constructor
      · obtain ⟨u, y, m, loop, steps⟩ := waitLoop_ends self waits last signals 0
        exact ⟨_, y, m, (runs_connectWait_pos self timeout positive _ y).mpr ⟨u, rfl, loop⟩,
          .cons rfl steps⟩
      · refine ⟨0 + turnsLeft S timeout last 0 + 1, fun t polls begun steps => ?_⟩
        rcases begins_connectWait self timeout positive t begun with rfl | ⟨u, rfl, loop⟩
        · rw [(steps_nil _ _ _).mp steps]
          exact Nat.zero_le _
        · obtain ⟨m, started, after⟩ := (steps_cons _ _ _ _ _).mp steps
          obtain rfl : m = 0 := started
          exact polls_le_turnsLeft self waits last signals u loop 0 polls after
    · intro t n begun steps
      rcases begins_connectWait self timeout positive t begun with rfl | ⟨u, rfl, loop⟩
      · exact Nat.zero_le _
      · obtain ⟨m, started, after⟩ := (steps_cons _ _ _ _ _).mp steps
        obtain rfl : m = 0 := started
        calc zeroPolls u
            ≤ budget nanosPerMilli cIntMax (S.left timeout 0) :=
              zeroPolls_le_budget self waits u loop 0 n after
          _ ≤ budget nanosPerMilli cIntMax timeout.total := budget_mono (Nat.sub_le _ _)
          _ ≤ timeout.total / nanosPerMilli / cIntMax + 2 := budget_le
    · intro punctual t n run steps
      obtain ⟨u, rfl, loop⟩ := (runs_connectWait_pos self timeout positive t _).mp run
      obtain ⟨m, started, after⟩ := (steps_cons _ _ _ _ _).mp steps
      obtain rfl : m = 0 := started
      have near : (S.clock 0).total < timeout.total + nanosPerMilli := by
        rw [punctual.1]
        omega
      obtain ⟨v, d, rfl, soon⟩ :=
        punctual_waitLoop self punctual u _ loop 0 n near after rfl
      exact ⟨⟨.instantNow, ()⟩ :: v, d, rfl, soon⟩

/-- A wait of one second that a single `poll` waits out. -/
def idleSecond : Schedule where
  clock
    | 0 => Duration.zero
    | _ + 1 => .second
  polls _ := ⟨⟨0, 0⟩, 0⟩
  error := ⟨⟨0, 0⟩, (0 : Int), 4⟩
  monotone
    | 0 => by decide
    | _ + 1 => Nat.le_refl _

theorem second_waited_out :
    Ends idleSecond.replies 0 (Unix.Socket.connectWait ⟨3⟩ .second).run := by
  have waits : idleSecond.WaitsOut .second := by
    intro n argument polls _
    cases n with
    | zero =>
      have passed : argument = 1000 := by
        rw [polls.argument_eq]
        decide
      rw [passed]
      decide
    | succ n => exact absurd polls.1 (Nat.lt_irrefl _)
  have uninterrupted : {n | Unix.interrupted (idleSecond.polls n).ret} = ∅ := by
    ext n
    have passed : (0 : Int) ≠ -1 := by decide
    exact iff_of_false (fun signal => absurd signal.1 passed) (Set.notMem_empty n)
  have timing := wait_timing ⟨3⟩ .second (by decide)
  exact ((timing.2.2 idleSecond waits).1 (uninterrupted ▸ Set.finite_empty)).1

end IoBluetooth
