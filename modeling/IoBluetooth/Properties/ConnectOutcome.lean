import IoBluetooth.Sys.Waits

/-!
# What `connect_timeout` makes of the system's reports

A wait ends when the system reports that the socket is ready, which it does for a failed
attempt too. On Unix the failure is looked for in one bit of three; on Windows a failure whose
error is gone by the time it is queried counts as success.
-/
namespace IoBluetooth

open Interaction Memory Rust

/-- `poll` and `select` return -1, zero, or how many descriptors are ready. -/
def Ret.ready (r : Ret) : Prop := r.value ≠ -1 ∧ r.value ≠ 0

/-- What `poll` reports for a connection that was established. -/
def writableOnly (revents : BitVec 16) : Prop :=
  revents &&& Unix.POLLOUT ≠ 0 ∧
    revents &&& (Unix.POLLERR ||| Unix.POLLHUP ||| Unix.POLLNVAL) = 0

/-- The system says that the connection is established. -/
def Established : Event os → Prop
  | ⟨.connect .., r⟩ => (r : Ret).value ≠ -1
  | ⟨.poll .., r⟩ => (r : PollReply).ret.ready ∧ writableOnly (r : PollReply).revents
  | ⟨.select .., r⟩ => (r : SelectReply).ret.ready ∧ (r : SelectReply).writefds = 1
  | _ => False

/-- The system says that the attempt failed: some error bit, or the socket in no set but
`errorfds`. -/
def ReportsFailure : Event os → Prop
  | ⟨.poll .., r⟩ => (r : PollReply).ret.ready ∧
      (r : PollReply).revents &&& (Unix.POLLERR ||| Unix.POLLHUP ||| Unix.POLLNVAL) ≠ 0
  | ⟨.select .., r⟩ => (r : SelectReply).ret.ready ∧ (r : SelectReply).writefds ≠ 1
  | _ => False

/-- Success is returned only where the system reported it, and never where it reported a
failure. -/
def Truthful (t : Trace os) (y : Except Exit Unit) : Prop :=
  (y = .ok () → ∃ e ∈ t, Established e) ∧ ((∃ e ∈ t, ReportsFailure e) → y ≠ .ok ())

/-- A `poll` whose report is not one of success and does not have the bit the crate looks for. -/
def misread (r : PollReply) : Prop :=
  r.ret.ready ∧ r.revents &&& Unix.POLLHUP = 0 ∧ ¬writableOnly r.revents

/-- The reports that the crate takes for success: such a `poll`, or a `select` that has the
socket in no set but `errorfds` together with a cleared `SO_ERROR`. -/
def Misled (t : Trace os) : Prop :=
  (∃ s events timeout r, ⟨.poll s events timeout, r⟩ ∈ t ∧ misread r) ∨
  ∃ s tv, ∃ r : SelectReply, ∃ g : GetsockoptReply .int, ⟨.select s tv, r⟩ ∈ t ∧
    ⟨.getsockopt s .int .soError, g⟩ ∈ t ∧ r.ret.ready ∧ r.writefds ≠ 1 ∧
    g.ret.value ≠ -1 ∧ g.len = OptType.int.size ∧ g.slot = (0 : Int)

/-! ### Events that report nothing -/

/-- The switches, the clock, a `connect` that did not succeed and a `poll` without a result. -/
def Plain : Event os → Prop
  | ⟨.connect .., r⟩ => (r : Ret).value = -1
  | ⟨.poll .., r⟩ => ¬(r : PollReply).ret.ready
  | ⟨.select .., _⟩ | ⟨.getsockopt .., _⟩ => False
  | _ => True

theorem Plain.reports_nothing {e : Event os} (plain : Plain e) :
    ¬Established e ∧ ¬ReportsFailure e := by
  obtain ⟨c, r⟩ := e
  cases c <;> simp_all [Plain, Established, ReportsFailure]

section Prefix

variable (t u : Trace os) (plain : ∀ e ∈ t, Plain e)

include plain

theorem exists_mem_append_plain (Q : Event os → Prop) (silent : ∀ e, Plain e → ¬Q e) :
    (∃ e ∈ t ++ u, Q e) ↔ ∃ e ∈ u, Q e := by
  constructor
  · rintro ⟨e, member, holds⟩
    rcases List.mem_append.mp member with before | after
    · exact absurd holds (silent e (plain e before))
    · exact ⟨e, after, holds⟩
  · rintro ⟨e, member, holds⟩
    exact ⟨e, List.mem_append_right t member, holds⟩

theorem truthful_append_plain (y : Except Exit Unit) : Truthful (t ++ u) y ↔ Truthful u y := by
  rw [Truthful, exists_mem_append_plain t u plain _ fun e h => h.reports_nothing.1,
    exists_mem_append_plain t u plain _ fun e h => h.reports_nothing.2, Truthful]

theorem misled_append_plain : Misled (t ++ u) ↔ Misled u := by
  constructor
  · rintro (⟨s, events, timeout, r, member, misread⟩ | ⟨s, tv, r, g, selected, queried, rest⟩)
    · rcases List.mem_append.mp member with before | after
      · exact absurd misread.1 (plain _ before)
      · exact Or.inl ⟨s, events, timeout, r, after, misread⟩
    · rcases List.mem_append.mp selected with before | after
      · exact absurd (plain _ before) id
      · rcases List.mem_append.mp queried with before | after'
        · exact absurd (plain _ before) id
        · exact Or.inr ⟨s, tv, r, g, after, after', rest⟩
  · rintro (⟨s, events, timeout, r, member, misread⟩ | ⟨s, tv, r, g, selected, queried, rest⟩)
    · exact Or.inl ⟨s, events, timeout, r, List.mem_append_right t member, misread⟩
    · exact Or.inr ⟨s, tv, r, g, List.mem_append_right t selected,
        List.mem_append_right t queried, rest⟩

end Prefix

theorem truthful_error (t : Trace os) (x : Exit) : Truthful t (.error x) := by
  refine ⟨?_, ?_⟩
  · intro wrong
    cases wrong
  · intro _ wrong
    cases wrong

/-! ### The two waits -/

theorem Unix.Polled.truthful_iff {self : Socket} {r : PollReply} {u : Trace os}
    {y : Except Exit Unit} (events : BitVec 16) (timeout : Int)
    (polled : Polled self r u (.inr <$> y)) :
    Truthful (⟨.poll self.raw events timeout, r⟩ :: u) y ↔
      ¬Misled (⟨.poll self.raw events timeout, r⟩ :: u) := by
  generalize outcome : (.inr <$> y : Except Exit (Unit ⊕ Unit)) = z at polled
  cases polled with
  | interrupted _ => cases y <;> cases outcome
  | idle _ => cases y <;> cases outcome
  | failed failed other =>
    cases y with
    | ok _ => cases outcome
    | error x =>
      refine iff_of_true (truthful_error _ x) ?_
      rintro (⟨_, _, _, r', member, misread⟩ | ⟨_, _, _, _, member, _⟩)
      · cases List.mem_singleton.mp member
        exact misread.1.1 failed
      · cases List.mem_singleton.mp member
  | ready passed some quiet =>
    cases y with
    | error x => cases outcome
    | ok _ =>
      -- only the hang-up bit was looked at, so the others decide whether success is the truth
      by_cases good : writableOnly r.revents
      · refine iff_of_true ⟨fun _ => ⟨_, List.mem_singleton_self _, ⟨passed, some⟩, good⟩, ?_⟩ ?_
        · rintro ⟨e, member, failure⟩
          cases List.mem_singleton.mp member
          exact absurd good.2 failure.2
        · rintro (⟨_, _, _, r', member, misread⟩ | ⟨_, _, _, _, member, _⟩)
          · cases List.mem_singleton.mp member
            exact misread.2.2 good
          · cases List.mem_singleton.mp member
      · refine iff_of_false ?_ (not_not.mpr ?_)
        · intro truthful
          obtain ⟨e, member, established⟩ := truthful.1 rfl
          cases List.mem_singleton.mp member
          exact good established.2
        · exact Or.inl ⟨_, _, _, r, List.mem_singleton_self _, ⟨passed, some⟩, quiet, good⟩
  | @hungUp u x passed some hup took =>
    -- after a hang-up the wait ends with some error, and an error never misleads
    have failed : ∃ e, y = .error e := by
      cases y with
      | error e => exact ⟨e, rfl⟩
      | ok _ => rcases x with _ | _ | _ <;> cases outcome
    obtain ⟨e, rfl⟩ := failed
    refine iff_of_true (truthful_error _ e) ?_
    rintro (⟨_, _, _, r', member, misread⟩ | ⟨_, _, _, _, member, _⟩)
    · rcases List.mem_cons.mp member with same | query
      · cases same
        exact hup misread.2.1
      · cases took <;> cases List.mem_singleton.mp query
    · rcases List.mem_cons.mp member with same | query
      · cases same
      · cases took <;> cases List.mem_singleton.mp query

theorem Unix.Turn.truthful_iff {self : Socket} {timeout : Duration} {v : Trace os}
    {y : Except Exit Unit} (turn : Turn self timeout v (.inr <$> y)) :
    Truthful v y ↔ ¬Misled v := by
  generalize outcome : (.inr <$> y : Except Exit (Unit ⊕ Unit)) = z at turn
  cases turn with
  | expired _ =>
    cases y with
    | ok _ => cases outcome
    | error x =>
      refine iff_of_true (truthful_error _ x) ?_
      rintro (⟨_, _, _, _, member, _⟩ | ⟨_, _, _, _, member, _⟩)
      · cases List.mem_singleton.mp member
      · cases List.mem_singleton.mp member
  | @polled d rem r u _ left early polled =>
    subst outcome
    have plain : ∀ e ∈ [(⟨.elapsed, d⟩ : Event os)], Plain e := by
      simp [Plain]
    have prefixed := truthful_append_plain [⟨.elapsed, d⟩]
      (⟨.poll self.raw POLLOUT (Socket.pollTimeout rem), r⟩ :: u) plain y
    have misled := misled_append_plain [⟨.elapsed, d⟩]
      (⟨.poll self.raw POLLOUT (Socket.pollTimeout rem), r⟩ :: u) plain
    rw [List.singleton_append] at prefixed misled
    rw [prefixed, misled]
    exact polled.truthful_iff POLLOUT (Socket.pollTimeout rem)

/-- A turn that goes round again reports nothing. -/
theorem Unix.Idles.plain {self : Socket} {timeout : Duration} {t : Trace os}
    (idle : Idles self timeout t) : ∀ e ∈ t, Plain e := by
  obtain ⟨d, rem, r, _, _, quiet, rfl⟩ := idle
  have unready : ¬r.ret.ready := by
    rintro ⟨passed, some⟩
    rcases quiet with signal | zero
    · exact passed signal.1
    · exact some zero
  simp [Plain, unready]

theorem Unix.waitLoop_truthful_iff (self : Socket) (timeout : Duration) (t : Trace os)
    (y : Except Exit Unit) (run : Runs (Unix.Socket.waitLoop self timeout).run t y) :
    Truthful t y ↔ ¬Misled t := by
  obtain ⟨turns, v, rfl, idle, last⟩ := waitLoop_last self timeout t y run
  have plain : ∀ e ∈ turns.flatten, Plain e := by
    intro e member
    obtain ⟨u, turn, inside⟩ := List.mem_flatten.mp member
    exact (idle u turn).plain e inside
  rw [truthful_append_plain _ v plain, misled_append_plain _ v plain]
  exact last.truthful_iff

/-- A query of the socket's error that gives one, or fails. -/
private theorem not_misled_of_query {self : Socket} {tv : Timeval} {r : SelectReply}
    {g : GetsockoptReply .int}
    (given : g.ret.value ≠ -1 → g.len = OptType.int.size → g.slot ≠ (0 : Int)) :
    ¬Misled [⟨.select self.raw tv, r⟩, ⟨.getsockopt self.raw .int .soError, g⟩] := by
  rintro (⟨_, _, _, _, member, _⟩ | ⟨_, _, _, g', _, query, _, _, ok, sized, none⟩)
  · rcases List.mem_cons.mp member with same | same
    · cases same
    · cases List.mem_singleton.mp same
  · rcases List.mem_cons.mp query with same | same
    · cases same
    · cases List.mem_singleton.mp same
      exact given ok sized none

theorem Windows.Wait.truthful_iff {self : Socket} {timeout : Duration} {t : Trace os}
    {y : Except Exit Unit} (wait : Wait self timeout t y) : Truthful t y ↔ ¬Misled t := by
  cases wait with
  | zero _ =>
    refine iff_of_true (truthful_error _ _) ?_
    rintro (⟨_, _, _, _, member, _⟩ | ⟨_, _, _, _, member, _⟩) <;> cases member
  | @failed r _ failed =>
    refine iff_of_true (truthful_error _ _) ?_
    rintro (⟨_, _, _, _, member, _⟩ | ⟨_, _, _, _, member, _, ready, _⟩)
    · cases List.mem_singleton.mp member
    · cases List.mem_singleton.mp member
      exact ready.1 failed
  | @timedOut r _ idle =>
    refine iff_of_true (truthful_error _ _) ?_
    rintro (⟨_, _, _, _, member, _⟩ | ⟨_, _, _, _, member, _, ready, _⟩)
    · cases List.mem_singleton.mp member
    · cases List.mem_singleton.mp member
      exact ready.2 idle
  | @writable r _ passed some writable =>
    -- the report itself establishes the connection
    refine iff_of_true ⟨fun _ => ⟨_, List.mem_singleton_self _, ⟨passed, some⟩, writable⟩, ?_⟩ ?_
    · rintro ⟨e, member, failure⟩
      cases List.mem_singleton.mp member
      exact absurd writable failure.2
    · rintro (⟨_, _, _, _, member, _⟩ | ⟨_, _, _, _, member, _, _, unwritable, _⟩)
      · cases List.mem_singleton.mp member
      · cases List.mem_singleton.mp member
        exact unwritable writable
  | @unwritable r u x _ passed some unwritable took =>
    cases took with
    | @clear g ok sized none =>
      -- the error is gone, and the failure with it
      refine iff_of_false ?_ (not_not.mpr ?_)
      · intro truthful
        obtain ⟨e, member, established⟩ := truthful.1 rfl
        simp only [List.mem_cons, List.not_mem_nil, or_false] at member
        rcases member with rfl | rfl
        · exact unwritable established.2
        · exact established
      · exact Or.inr ⟨_, _, r, g, List.mem_cons_self, by simp, ⟨passed, some⟩, unwritable, ok,
          sized, none⟩
    | failed failed =>
      exact iff_of_true (truthful_error _ _) (not_misled_of_query fun ok _ _ => ok failed)
    | malformed ok wrong =>
      exact iff_of_true (truthful_error _ _) (not_misled_of_query fun _ sized _ => wrong sized)
    | taken ok sized some' =>
      exact iff_of_true (truthful_error _ _) (not_misled_of_query fun _ _ none => some' none)

/-! ### The whole function -/

/-- Without a readiness report nothing misleads. -/
private theorem not_misled_of_no_wait (t : Trace os)
    (none : ∀ e ∈ t, match e.call with
      | .poll .. | .select .. => False
      | _ => True) : ¬Misled t := by
  rintro (⟨_, _, _, _, member, _⟩ | ⟨_, _, _, _, member, _⟩)
  · exact none _ member
  · exact none _ member

/-- `connect_timeout` reports success truthfully except where the system's report misleads it. -/
theorem connect_outcome_iff (P : Platform) (pad : UInt8) (self : Socket) (addr : BtAddr)
    (timeout : Duration) (t : Trace os) (y : Except Exit Unit)
    (run : Runs (self.connectTimeout P pad addr timeout).run t y) :
    Truthful t y ↔ ¬Misled t := by
  cases (runs_connectTimeout _ _ _ _ _ _ _).mp run with
  | unswitched failed =>
    refine iff_of_true (truthful_error _ _) (not_misled_of_no_wait _ ?_)
    cases P <;> simp [Platform.modeEvent]
  | stuck switched failed =>
    refine iff_of_true (truthful_error _ _) (not_misled_of_no_wait _ ?_)
    cases P <;> simp [Platform.modeEvent, Platform.connectEvent]
  | @connected m r m' switched restored passed =>
    refine iff_of_true ⟨fun _ => ?_, ?_⟩ (not_misled_of_no_wait _ ?_)
    · exact ⟨P.connectEvent pad self addr r, by simp, passed⟩
    · rintro ⟨e, member, failure⟩
      simp only [List.mem_cons, List.not_mem_nil, or_false] at member
      cases P <;> rcases member with rfl | rfl | rfl <;> exact absurd failure id
    · cases P <;> simp [Platform.modeEvent, Platform.connectEvent]
  | refused switched restored failed other =>
    refine iff_of_true (truthful_error _ _) (not_misled_of_no_wait _ ?_)
    cases P <;> simp [Platform.modeEvent, Platform.connectEvent]
  | @waited m r m' u _ switched restored failed going wait =>
    -- the attempt goes on, so the wait alone decides
    have plain : ∀ e ∈ [P.modeEvent self true m, P.connectEvent pad self addr r,
        P.modeEvent self false m'], Plain e := by
      cases P <;> simp [Plain, Platform.modeEvent, Platform.connectEvent, failed]
    have truthful := truthful_append_plain _ u plain y
    have misled := misled_append_plain _ u plain
    simp only [List.cons_append, List.nil_append] at truthful misled
    rw [truthful, misled]
    cases P with
    | unix target =>
      rcases (Unix.runs_connectWait _ _ _ _).mp wait with ⟨_, rfl, rfl⟩ | ⟨_, v, rfl, loop⟩
      · exact iff_of_true (truthful_error _ _) (not_misled_of_no_wait _ (by simp))
      · have started : ∀ e ∈ [(⟨.instantNow, ()⟩ : Event os)], Plain e := by
          simp [Plain]
        have truthful := truthful_append_plain _ v started y
        have misled := misled_append_plain _ v started
        simp only [List.cons_append, List.nil_append] at truthful misled
        rw [truthful, misled]
        exact Unix.waitLoop_truthful_iff self timeout v y loop
    | windows w => exact ((Windows.runs_connectWait _ _ _ _).mp wait).truthful_iff

/-- A connection in progress for which the first `poll` has the result `revents`. -/
def polledOnce (revents : BitVec 16) : Trace os :=
  [⟨.ioctlFionbio 3 1, ⟨0, 0⟩⟩,
    (Platform.unix .linux).connectEvent 0 ⟨3⟩ ⟨zeroed 6⟩ ⟨-1, EINPROGRESS⟩,
    ⟨.ioctlFionbio 3 0, ⟨0, 0⟩⟩, ⟨.instantNow, ()⟩, ⟨.elapsed, Duration.zero⟩,
    ⟨.poll 3 Unix.POLLOUT 1000, ⟨⟨1, 0⟩, revents⟩⟩]

private theorem runs_polledOnce (revents : BitVec 16) (quiet : revents &&& Unix.POLLHUP = 0) :
    Runs (Socket.connectTimeout (.unix .linux) 0 ⟨3⟩ ⟨zeroed 6⟩ .second).run
      (polledOnce revents) (.ok ()) := by
  have argument : Unix.Socket.pollTimeout .second = 1000 := by decide
  have turn := @Unix.Turn.polled ⟨3⟩ .second Duration.zero .second ⟨⟨1, 0⟩, revents⟩ [] _
    (by decide) (by decide)
    (.ready (show (1 : Int) ≠ -1 by decide) (show (1 : Int) ≠ 0 by decide) quiet)
  rw [argument] at turn
  have loop : Runs (Unix.Socket.waitLoop ⟨3⟩ .second).run _ (.ok ()) :=
    (runs_repeating_iff _ _ _ _).mpr
      (Or.inr (Or.inl ⟨(), (Unix.runs_waitTurn _ _ _ _).mpr turn, rfl⟩))
  have wait := (Unix.runs_connectWait ⟨3⟩ .second _ _).mpr
    (Or.inr ⟨by decide, _, rfl, loop⟩)
  exact (runs_connectTimeout _ _ _ _ _ _ _).mpr (@TimedConnect.waited (.unix .linux) _ _ _ _ ⟨0, 0⟩
    ⟨-1, EINPROGRESS⟩ ⟨0, 0⟩ _ _ (by decide) (by decide) rfl rfl wait)

/-- A connection in progress that `select` reports as failed, with no error left to query. -/
def selectedFailed : Trace os :=
  [⟨.ioctlsocketFionbio 5 1, ⟨0, 0⟩⟩,
    (Platform.windows bthdef).connectEvent 0 ⟨5⟩ ⟨zeroed 6⟩ ⟨-1, WSAEWOULDBLOCK⟩,
    ⟨.ioctlsocketFionbio 5 0, ⟨0, 0⟩⟩, ⟨.select 5 ⟨1, 0⟩, ⟨⟨1, 0⟩, 0, 1⟩⟩,
    ⟨.getsockopt 5 .int .soError, ⟨⟨0, 0⟩, (0 : Int), 4⟩⟩]

private theorem runs_selectedFailed :
    Runs (Socket.connectTimeout (.windows bthdef) 0 ⟨5⟩ ⟨zeroed 6⟩ .second).run
      selectedFailed (.ok ()) := by
  have argument : Windows.Socket.selectTimeout .second = ⟨1, 0⟩ := by decide
  have took : TookError ⟨5⟩ [⟨.getsockopt 5 .int .soError, ⟨⟨0, 0⟩, (0 : Int), 4⟩⟩] (.ok none) :=
    .clear (by decide) rfl rfl
  have wait := @Windows.Wait.unwritable ⟨5⟩ .second ⟨⟨1, 0⟩, 0, 1⟩ _ _ (by decide) (by decide)
    (by decide) (by decide) took
  rw [argument] at wait
  exact (runs_connectTimeout _ _ _ _ _ _ _).mpr (@TimedConnect.waited (.windows bthdef) _ _ _ _
    ⟨0, 0⟩ ⟨-1, WSAEWOULDBLOCK⟩ ⟨0, 0⟩ _ _ (by decide) (by decide) rfl rfl
    ((Windows.runs_connectWait _ _ _ _).mpr wait))

theorem established_once : Truthful (polledOnce Unix.POLLOUT) (.ok ()) := by
  refine (connect_outcome_iff (.unix .linux) 0 ⟨3⟩ ⟨zeroed 6⟩ .second _ _
    (runs_polledOnce Unix.POLLOUT (by decide))).mpr ?_
  rintro (⟨s, events, timeout, r, member, misread⟩ | ⟨s, tv, r, g, member, _⟩)
  · have only : (⟨.poll s events timeout, r⟩ : Event os) =
        ⟨.poll 3 Unix.POLLOUT 1000, ⟨⟨1, 0⟩, Unix.POLLOUT⟩⟩ := by
      simpa [polledOnce, Platform.connectEvent] using member
    cases only
    exact misread.2.2 ⟨by decide, by decide⟩
  · simp [polledOnce, Platform.connectEvent] at member

/-- `POLLERR` without `POLLHUP`, and on Windows `errorfds` without an error, are success. -/
theorem failures_reported_as_success :
    (Runs (Socket.connectTimeout (.unix .linux) 0 ⟨3⟩ ⟨zeroed 6⟩ .second).run
        (polledOnce Unix.POLLERR) (.ok ()) ∧
      ¬Truthful (polledOnce Unix.POLLERR) (.ok ())) ∧
    (Runs (Socket.connectTimeout (.windows bthdef) 0 ⟨5⟩ ⟨zeroed 6⟩ .second).run
        selectedFailed (.ok ()) ∧
      ¬Truthful selectedFailed (.ok ())) := by
  refine ⟨⟨runs_polledOnce _ (by decide), ?_⟩, runs_selectedFailed, ?_⟩
  · intro truthful
    refine truthful.2 ⟨⟨.poll 3 Unix.POLLOUT 1000, ⟨⟨1, 0⟩, Unix.POLLERR⟩⟩, ?_, ?_⟩ rfl
    · simp [polledOnce]
    · exact ⟨⟨by decide, by decide⟩, by decide⟩
  · intro truthful
    refine truthful.2 ⟨⟨.select 5 ⟨1, 0⟩, ⟨⟨1, 0⟩, 0, 1⟩⟩, ?_, ?_⟩ rfl
    · simp [selectedFailed]
    · exact ⟨⟨by decide, by decide⟩, by decide⟩

end IoBluetooth
