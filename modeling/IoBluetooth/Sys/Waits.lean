import IoBluetooth.Sys.TimedConnect

/-!
# The waits of `connect_timeout`

Everything a wait can do, one constructor for each outcome: a query of the socket's error, the
single `select` of Windows, and one turn of the `poll` loop of Unix.
-/
namespace IoBluetooth

open Interaction Memory Rust

/-- The runs of `take_error`. -/
inductive TookError (self : Socket) : Trace os → Except Exit (Option IoError) → Prop
  | failed {g : GetsockoptReply .int} : g.ret.value = -1 →
      TookError self [⟨.getsockopt self.raw .int .soError, g⟩] (.error (.err (.os g.ret.errno)))
  | malformed {g : GetsockoptReply .int} : g.ret.value ≠ -1 → g.len ≠ OptType.int.size →
      TookError self [⟨.getsockopt self.raw .int .soError, g⟩]
        (.error (.panic "assertion failed: `(left == right)`"))
  | clear {g : GetsockoptReply .int} : g.ret.value ≠ -1 → g.len = OptType.int.size →
      g.slot = (0 : Int) → TookError self [⟨.getsockopt self.raw .int .soError, g⟩] (.ok none)
  | taken {g : GetsockoptReply .int} : g.ret.value ≠ -1 → g.len = OptType.int.size →
      g.slot ≠ (0 : Int) →
      TookError self [⟨.getsockopt self.raw .int .soError, g⟩] (.ok (some (.os g.slot)))

theorem runs_takeError (self : Socket) (t : Trace os) (y : Except Exit (Option IoError)) :
    Runs self.takeError.run t y ↔ TookError self t y := by
  rw [Socket.takeError, runs_run_bind]
  simp only [getsockopt, runs_sys_bind, runs_check_bind, cvt_eq_ok_iff, cvt_eq_error_iff]
  constructor
  · intro h
    rcases h with ⟨e, ⟨g, u, rfl, outcome⟩, rfl⟩ | ⟨u, v, raw, rfl, ⟨g, u, rfl, outcome⟩, rest⟩
    · -- the query itself failed, or had the wrong size
      rcases outcome with ⟨_, ⟨failed, rfl⟩, rfl, eq⟩ | ⟨_, ⟨passed, _⟩, outcome⟩
      · cases eq
        exact .failed failed
      · split at outcome
        · cases outcome.2
        · next wrong =>
          obtain ⟨rfl, eq⟩ := outcome
          cases eq
          exact .malformed passed wrong
    · -- the query answered, and the answer decides
      rcases outcome with ⟨_, _, _, eq⟩ | ⟨_, ⟨passed, _⟩, outcome⟩
      · cases eq
      · split at outcome
        · next sized =>
          obtain ⟨rfl, eq⟩ := outcome
          cases eq
          obtain ⟨rfl, rfl⟩ := rest
          by_cases none : g.slot = (0 : Int)
          · rw [if_pos none]
            exact .clear passed sized none
          · rw [if_neg none]
            exact .taken passed sized none
        · cases outcome.2
  · intro h
    cases h with
    | @failed g failed =>
      exact Or.inl ⟨_, ⟨g, [], rfl, Or.inl ⟨_, ⟨failed, rfl⟩, rfl, rfl⟩⟩, rfl⟩
    | @malformed g passed wrong =>
      refine Or.inl ⟨_, ⟨g, [], rfl, Or.inr ⟨_, ⟨passed, rfl⟩, ?_⟩⟩, rfl⟩
      rw [if_neg wrong]
      exact ⟨rfl, rfl⟩
    | @clear g passed sized none =>
      refine Or.inr ⟨_, [], g.slot, rfl, ⟨g, [], rfl, Or.inr ⟨_, ⟨passed, rfl⟩, ?_⟩⟩, ?_⟩
      · rw [if_pos sized]
        exact ⟨rfl, rfl⟩
      · rw [if_pos none]
        exact ⟨rfl, rfl⟩
    | @taken g passed sized some =>
      refine Or.inr ⟨_, [], g.slot, rfl, ⟨g, [], rfl, Or.inr ⟨_, ⟨passed, rfl⟩, ?_⟩⟩, ?_⟩
      · rw [if_pos sized]
        exact ⟨rfl, rfl⟩
      · rw [if_neg some]
        exact ⟨rfl, rfl⟩

/-- A query has an outcome for every answer of the system. -/
theorem tookError_exists (self : Socket) (g : GetsockoptReply .int) :
    ∃ y, TookError self [⟨.getsockopt self.raw .int .soError, g⟩] y := by
  by_cases failed : g.ret.value = -1
  · exact ⟨_, .failed failed⟩
  · by_cases sized : g.len = OptType.int.size
    · by_cases none : g.slot = (0 : Int)
      · exact ⟨_, .clear failed sized none⟩
      · exact ⟨_, .taken failed sized none⟩
    · exact ⟨_, .malformed failed sized⟩

/-- The error that a wait ends with after it queried the socket's, if it ends with one. -/
def afterQuery (none : Except Exit Unit) : Except Exit (Option IoError) → Except Exit Unit
  | .error x => .error x
  | .ok .none => none
  | .ok (.some e) => .error (.err e)

/-! ### Windows -/

namespace Windows

/-- The runs of the wait on Windows. -/
inductive Wait (self : IoBluetooth.Socket) (timeout : Duration) :
    Trace os → Except Exit Unit → Prop
  | zero : timeout.total = 0 → Wait self timeout [] (.error (.err zeroTimeout))
  | failed {r : SelectReply} : timeout.total ≠ 0 → r.ret.value = -1 →
      Wait self timeout [⟨.select self.raw (Socket.selectTimeout timeout), r⟩]
        (.error (.err (.os r.ret.errno)))
  | timedOut {r : SelectReply} : timeout.total ≠ 0 → r.ret.value = 0 →
      Wait self timeout [⟨.select self.raw (Socket.selectTimeout timeout), r⟩]
        (.error (.err timedOut))
  | writable {r : SelectReply} : timeout.total ≠ 0 → r.ret.value ≠ -1 → r.ret.value ≠ 0 →
      r.writefds = 1 →
      Wait self timeout [⟨.select self.raw (Socket.selectTimeout timeout), r⟩] (.ok ())
  | unwritable {r : SelectReply} {u y} : timeout.total ≠ 0 → r.ret.value ≠ -1 →
      r.ret.value ≠ 0 → r.writefds ≠ 1 → TookError self u y →
      Wait self timeout (⟨.select self.raw (Socket.selectTimeout timeout), r⟩ :: u)
        (afterQuery (.ok ()) y)

theorem runs_connectWait (self : IoBluetooth.Socket) (timeout : Duration) (t : Trace os)
    (y : Except Exit Unit) :
    Runs (Socket.connectWait self timeout).run t y ↔ Wait self timeout t y := by
  unfold Socket.connectWait
  simp only [Duration.isZero_iff]
  -- the argument is looked at before anything is called
  by_cases zero : timeout.total = 0
  · rw [if_pos zero, runs_run_throw]
    constructor
    · rintro ⟨rfl, rfl⟩
      exact .zero zero
    · intro h
      cases h with
      | zero _ => exact ⟨rfl, rfl⟩
      | _ => contradiction
  · rw [if_neg zero, runs_sys_bind]
    simp only [runs_check_bind, cvt_eq_ok_iff, cvt_eq_error_iff]
    constructor
    · rintro ⟨r, u, rfl, ⟨_, ⟨failed, rfl⟩, rfl, rfl⟩ | ⟨_, ⟨passed, rfl⟩, h⟩⟩
      · exact .failed zero failed
      · -- `select` came back: with nothing, writable, or with an error to be queried
        by_cases idle : r.ret.value = 0
        · rw [if_pos idle] at h
          obtain ⟨rfl, rfl⟩ := h
          exact .timedOut zero idle
        · rw [if_neg idle] at h
          by_cases writable : r.writefds = 1
          · rw [if_neg (not_not.mpr writable)] at h
            obtain ⟨rfl, rfl⟩ := h
            exact .writable zero passed idle writable
          · rw [if_pos writable, runs_run_bind] at h
            simp only [runs_takeError] at h
            rcases h with ⟨e, took, rfl⟩ | ⟨u, v, found, rfl, took, h⟩
            · exact .unwritable zero passed idle writable took
            · -- what the query answers is the result, and a cleared error is success
              have ended : v = [] ∧ y = afterQuery (.ok ()) (.ok found) := by
                cases found <;> exact h
              obtain ⟨rfl, rfl⟩ := ended
              rw [List.append_nil]
              exact .unwritable zero passed idle writable took
    · intro h
      cases h with
      | zero wrong => exact absurd wrong zero
      | @failed r _ failed => exact ⟨r, [], rfl, Or.inl ⟨_, ⟨failed, rfl⟩, rfl, rfl⟩⟩
      | @timedOut r _ idle =>
        refine ⟨r, [], rfl, Or.inr ⟨_, ⟨?_, rfl⟩, ?_⟩⟩
        · rw [idle]
          decide
        · rw [if_pos idle]
          exact ⟨rfl, rfl⟩
      | @writable r _ passed idle writable =>
        refine ⟨r, [], rfl, Or.inr ⟨_, ⟨passed, rfl⟩, ?_⟩⟩
        rw [if_neg idle, if_neg (not_not.mpr writable)]
        exact ⟨rfl, rfl⟩
      | @unwritable r u y _ passed idle writable took =>
        refine ⟨r, u, rfl, Or.inr ⟨_, ⟨passed, rfl⟩, ?_⟩⟩
        rw [if_neg idle, if_pos writable]
        have query := (runs_takeError self u y).mpr took
        cases y with
        | error x => exact query.run_bind_error _
        | ok found =>
          refine (runs_run_bind _ _ _ _).mpr
            (Or.inr ⟨u, [], found, (List.append_nil u).symm, query, ?_⟩)
          cases found <;> exact ⟨rfl, rfl⟩

end Windows
/-! ### Unix -/

namespace Unix

/-- What follows a `poll`. -/
inductive Polled (self : IoBluetooth.Socket) (r : PollReply) :
    Trace os → Except Exit (Unit ⊕ Unit) → Prop
  | interrupted : Unix.interrupted r.ret → Polled self r [] (.ok (.inl ()))
  | failed : r.ret.value = -1 → r.ret.errno ≠ EINTR →
      Polled self r [] (.error (.err (.os r.ret.errno)))
  | idle : r.ret.value = 0 → Polled self r [] (.ok (.inl ()))
  | ready : r.ret.value ≠ -1 → r.ret.value ≠ 0 → r.revents &&& POLLHUP = 0 →
      Polled self r [] (.ok (.inr ()))
  | hungUp {u y} : r.ret.value ≠ -1 → r.ret.value ≠ 0 → r.revents &&& POLLHUP ≠ 0 →
      TookError self u y → Polled self r u
        (.inr <$> afterQuery (.error (.err (.custom .other "no error set after POLLHUP"))) y)

theorem runs_connectReady (self : IoBluetooth.Socket) (revents : BitVec 16) (t : Trace os)
    (y : Except Exit Unit) :
    Runs (Socket.connectReady self revents).run t y ↔
      (revents &&& POLLHUP = 0 ∧ t = [] ∧ y = .ok ()) ∨
      (revents &&& POLLHUP ≠ 0 ∧ ∃ x, TookError self t x ∧
        y = afterQuery (.error (.err (.custom .other "no error set after POLLHUP"))) x) := by
  unfold Socket.connectReady
  by_cases hup : revents &&& POLLHUP = 0
  · rw [if_neg (not_not.mpr hup)]
    constructor
    · rintro ⟨rfl, rfl⟩
      exact Or.inl ⟨hup, rfl, rfl⟩
    · rintro (⟨_, rfl, rfl⟩ | ⟨wrong, _⟩)
      · exact ⟨rfl, rfl⟩
      · exact absurd hup wrong
  · rw [if_pos hup, runs_run_bind]
    simp only [runs_takeError, runs_run_throw]
    constructor
    · rintro (⟨e, took, rfl⟩ | ⟨u, v, found, rfl, took, rfl, rfl⟩)
      · exact Or.inr ⟨hup, _, took, rfl⟩
      · rw [List.append_nil]
        refine Or.inr ⟨hup, _, took, ?_⟩
        cases found <;> rfl
    · rintro (⟨wrong, _⟩ | ⟨_, x, took, rfl⟩)
      · exact absurd wrong hup
      · cases x with
        | error x => exact Or.inl ⟨x, took, rfl⟩
        | ok found =>
          refine Or.inr ⟨t, [], found, (List.append_nil t).symm, took, rfl, ?_⟩
          cases found <;> rfl

theorem runs_afterPoll (self : IoBluetooth.Socket) (r : PollReply) (t : Trace os)
    (y : Except Exit (Unit ⊕ Unit)) :
    Runs (Socket.afterPoll self r).run t y ↔ Polled self r t y := by
  unfold Socket.afterPoll
  constructor
  · intro h
    -- a failed `poll` is told by its error, any other by its count and then by the events
    by_cases failed : r.ret.value = -1
    · rw [if_pos failed] at h
      by_cases signal : r.ret.errno = EINTR
      · rw [if_neg (by simp [IoError.unixKind, signal])] at h
        obtain ⟨rfl, rfl⟩ := h
        exact .interrupted ⟨failed, signal⟩
      · rw [if_pos (by simp [IoError.unixKind, signal])] at h
        obtain ⟨rfl, rfl⟩ := h
        exact .failed failed signal
    · rw [if_neg failed] at h
      by_cases idle : r.ret.value = 0
      · rw [if_pos idle] at h
        obtain ⟨rfl, rfl⟩ := h
        exact .idle idle
      · rw [if_neg idle, runs_run_bind] at h
        simp only [runs_connectReady] at h
        rcases h with ⟨e, outcome, rfl⟩ | ⟨u, w, _, rfl, outcome, rfl, rfl⟩
        · -- the query after a hang-up ends the wait
          rcases outcome with ⟨_, _, wrong⟩ | ⟨hup, x, took, eq⟩
          · cases wrong
          · have hungUp := Polled.hungUp failed idle hup took
            rw [← eq] at hungUp
            exact hungUp
        · rcases outcome with ⟨quiet, rfl, _⟩ | ⟨_, x, _, wrong⟩
          · exact .ready failed idle quiet
          · rcases x with _ | _ | _ <;> cases wrong
  · intro h
    cases h with
    | interrupted signal =>
      rw [if_pos signal.1, if_neg (by simp [IoError.unixKind, signal.2])]
      exact ⟨rfl, rfl⟩
    | failed failed other =>
      rw [if_pos failed, if_pos (by simp [IoError.unixKind, other])]
      exact ⟨rfl, rfl⟩
    | idle idle =>
      rw [if_neg (by rw [idle]; decide), if_pos idle]
      exact ⟨rfl, rfl⟩
    | ready passed some quiet =>
      rw [if_neg passed, if_neg some]
      exact ((runs_connectReady self _ _ _).mpr (Or.inl ⟨quiet, rfl, rfl⟩)).run_bind ⟨rfl, rfl⟩
    | @hungUp u x passed some hup took =>
      rw [if_neg passed, if_neg some]
      have ready := (runs_connectReady self r.revents t _).mpr (Or.inr ⟨hup, x, took, rfl⟩)
      -- whatever the query answers, the wait ends with an error
      rcases x with _ | _ | _
      all_goals exact ready.run_bind_error _

/-- One turn of the wait on Unix: the clock was read as `d`, and `rem` is what is left. -/
inductive Turn (self : IoBluetooth.Socket) (timeout : Duration) :
    Trace os → Except Exit (Unit ⊕ Unit) → Prop
  | expired {d : Duration} : timeout.total ≤ d.total →
      Turn self timeout [⟨.elapsed, d⟩] (.error (.err timedOut))
  | polled {d rem : Duration} {r : PollReply} {u y} : timeout.checkedSub d = some rem →
      d.total < timeout.total → Polled self r u y →
      Turn self timeout
        (⟨.elapsed, d⟩ :: ⟨.poll self.raw POLLOUT (Socket.pollTimeout rem), r⟩ :: u) y

/-- The subtraction in a turn cannot underflow: the comparison before it excludes that. -/
theorem runs_waitTurn (self : IoBluetooth.Socket) (timeout : Duration) (t : Trace os)
    (y : Except Exit (Unit ⊕ Unit)) :
    Runs (Socket.waitTurn self timeout).run t y ↔ Turn self timeout t y := by
  rw [Socket.waitTurn, runs_sys_bind]
  constructor
  · rintro ⟨d, u, rfl, h⟩
    -- the clock is looked at first: an expired wait does not poll
    by_cases expired : timeout.le d
    · rw [if_pos expired] at h
      obtain ⟨rfl, rfl⟩ := h
      exact .expired ((Duration.le_iff _ _).mp expired)
    · rw [if_neg expired] at h
      have early : d.total < timeout.total := by
        rw [Duration.le_iff] at expired
        omega
      obtain ⟨rem, left, _⟩ := Duration.checkedSub_of_le timeout d early.le
      rw [left, runs_sys_bind] at h
      obtain ⟨r, v, rfl, h⟩ := h
      exact .polled left early ((runs_afterPoll self r v y).mp h)
  · intro h
    cases h with
    | @expired d expired =>
      refine ⟨d, [], rfl, ?_⟩
      rw [if_pos ((Duration.le_iff _ _).mpr expired)]
      exact ⟨rfl, rfl⟩
    | @polled d rem r u y left early polled =>
      refine ⟨d, _, rfl, ?_⟩
      rw [if_neg (by rw [Duration.le_iff]; omega), left, runs_sys_bind]
      exact ⟨r, u, rfl, (runs_afterPoll self r u y).mpr polled⟩

theorem runs_connectWait (self : IoBluetooth.Socket) (timeout : Duration) (t : Trace os)
    (y : Except Exit Unit) :
    Runs (Socket.connectWait self timeout).run t y ↔
      (timeout.total = 0 ∧ t = [] ∧ y = .error (.err zeroTimeout)) ∨
      (timeout.total ≠ 0 ∧ ∃ u, t = ⟨.instantNow, ()⟩ :: u ∧
        Runs (Socket.waitLoop self timeout).run u y) := by
  unfold Socket.connectWait
  simp only [Duration.isZero_iff]
  by_cases zero : timeout.total = 0
  · rw [if_pos zero, runs_run_throw]
    simp only [zero, true_and, ne_eq, not_true_eq_false, false_and, or_false]
  · rw [if_neg zero, runs_sys_bind]
    simp only [zero, false_and, false_or, ne_eq, not_false_eq_true, true_and]
    constructor
    · rintro ⟨_, u, rfl, run⟩
      exact ⟨u, rfl, run⟩
    · rintro ⟨u, rfl, run⟩
      exact ⟨(), u, rfl, run⟩

/-- A turn that goes round again reads the clock and polls without a result. -/
def Idles (self : IoBluetooth.Socket) (timeout : Duration) (t : Trace os) : Prop :=
  ∃ (d rem : Duration) (r : PollReply), timeout.checkedSub d = some rem ∧
    d.total < timeout.total ∧ (Unix.interrupted r.ret ∨ r.ret.value = 0) ∧
    t = [⟨.elapsed, d⟩, ⟨.poll self.raw POLLOUT (Socket.pollTimeout rem), r⟩]

theorem Turn.idles {self : IoBluetooth.Socket} {timeout : Duration} {t : Trace os}
    (turn : Turn self timeout t (.ok (.inl ()))) : Idles self timeout t := by
  generalize outcome : (Except.ok (.inl ()) : Except Exit (Unit ⊕ Unit)) = y at turn
  cases turn with
  | expired _ => cases outcome
  | @polled d rem r u _ left early polled =>
    cases polled with
    | interrupted signal => exact ⟨d, rem, r, left, early, Or.inl signal, rfl⟩
    | idle idle => exact ⟨d, rem, r, left, early, Or.inr idle, rfl⟩
    | failed _ _ => cases outcome
    | ready _ _ _ => cases outcome
    | @hungUp u x _ _ _ _ => rcases x with _ | _ | _ <;> cases outcome

/-- A wait idles for any number of turns, and its last turn decides. -/
theorem waitLoop_last (self : IoBluetooth.Socket) (timeout : Duration) (t : Trace os)
    (y : Except Exit Unit) (run : Runs (Socket.waitLoop self timeout).run t y) :
    ∃ (turns : List (Trace os)) (v : Trace os), t = turns.flatten ++ v ∧
      (∀ u ∈ turns, Idles self timeout u) ∧ Turn self timeout v (.inr <$> y) := by
  -- induction over the turns; those before the last one idle
  refine runs_repeating_induction ?_ ?_ ?_ () t y run
  · intro _ t e last
    exact ⟨[], t, rfl, by simp, (runs_waitTurn self timeout t _).mp last⟩
  · intro _ t b last
    exact ⟨[], t, rfl, by simp, (runs_waitTurn self timeout t _).mp last⟩
  · intro _ _ u t y turn _ ih
    obtain ⟨turns, v, rfl, idle, last⟩ := ih
    have first := ((runs_waitTurn self timeout u _).mp turn).idles
    exact ⟨u :: turns, v, by simp, by simpa using ⟨first, idle⟩, last⟩

end Unix
end IoBluetooth
