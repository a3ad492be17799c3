import IoBluetooth.Sys.Calls
import IoBluetooth.Sys.Failures
import IoBluetooth.Sys.Waits

/-!
# A timeout of zero

`connect_timeout` documents a zero timeout as an error, and checks for it only once the
nonblocking `connect` has turned out to be in progress.
-/
namespace IoBluetooth

open Interaction Memory Rust

/-- The nonblocking `connect` succeeded at once, and so did the switch back. -/
def ConnectedAtOnce (P : Platform) (t : Trace os) : Prop :=
  (∃ s addr len r, ⟨.connect s addr len, r⟩ ∈ t ∧ (r : Ret).value ≠ -1) ∧
    ∃ s m, P.modeEvent s false m ∈ t ∧ m.value ≠ -1

/-- Both mode switches succeeded, and the nonblocking `connect` did or is in progress. -/
def Proceeds (P : Platform) (t : Trace os) : Prop :=
  (∃ s m, P.modeEvent s true m ∈ t ∧ m.value ≠ -1) ∧
    (∃ s addr len r, ⟨.connect s addr len, r⟩ ∈ t ∧
      ((r : Ret).value ≠ -1 ∨ (r : Ret).errno = P.pending)) ∧
    ∃ s m, P.modeEvent s false m ∈ t ∧ m.value ≠ -1

/-- An `Err`, and the one for the argument if nothing else failed. -/
structure RejectsZero (P : Platform) (t : Trace os) (y : Except Exit BtStream) : Prop where
  err : ∃ e, y = .error (.err e)
  invalidInput : Proceeds P t → y = .error (.err zeroTimeout)

/-- The socket is made, then `connect_timeout` is called on it, then it is dropped on failure. -/
theorem runs_stream_connectTimeout (P : Platform) (pad : UInt8) (addr : BtAddr)
    (protocol : BtProtocol) (timeout : Duration) (t : Trace os) (y : Except Exit BtStream)
    (run : Runs (BtStream.connectTimeout P pad addr protocol timeout).run t y) :
    (∃ e, y = .error (.err e) ∧ ∀ e ∈ t, SetsUp e) ∨
    ∃ u v w s z, t = u ++ (v ++ w) ∧ (∀ e ∈ u, SetsUp e) ∧ (∀ e ∈ w, SetsUp e) ∧
      TimedConnect P pad s addr timeout v z ∧ y = z.map fun _ => ⟨s, protocol⟩ := by
  have setsUp := Socket.emits_new P protocol
  rcases (runs_run_bind _ _ _ _).mp run with ⟨x, failed, rfl⟩ | ⟨u, v, s, rfl, made, rest⟩
  · obtain ⟨e, rfl⟩ := Socket.fails_new P protocol t x failed
    exact Or.inl ⟨e, rfl, setsUp.runs t _ failed⟩
  · refine Or.inr ?_
    rcases (runs_owning _ _ _ _).mp rest with ⟨a, body, rfl⟩ | ⟨v, w, x, rfl, body, drop, rfl⟩
    · -- the stream owns the socket from here on
      rcases (runs_run_bind _ _ _ _).mp body with ⟨_, _, eq⟩ | ⟨v, w, _, rfl, inner, rfl, eq⟩
      · cases eq
      · cases eq
        exact ⟨u, v, [], s, .ok (), rfl, setsUp.runs u _ made, List.forall_mem_nil _,
          (runs_connectTimeout _ _ _ _ _ _ _).mp inner, rfl⟩
    · -- an error drops it
      rcases (runs_run_bind _ _ _ _).mp body with ⟨_, inner, eq⟩ | ⟨_, _, _, _, _, _, eq⟩
      · cases eq
        exact ⟨u, v, w, s, .error x, rfl, setsUp.runs u _ made,
          (Socket.emits_drop P s).runs w _ drop, (runs_connectTimeout _ _ _ _ _ _ _).mp inner, rfl⟩
      · cases eq

/-- The wait is over at once if there is no time to wait. -/
theorem runs_connectWait_zero (P : Platform) (self : Socket) (t : Trace os)
    (y : Except Exit Unit) (run : Runs (P.connectWait self .zero).run t y) :
    t = [] ∧ y = .error (.err zeroTimeout) := by
  cases P with
  | unix target => exact run
  | windows w => exact run

/-! ### The calls that decide -/

section Events

variable {P : Platform} {pad : UInt8} {self s : Socket} {addr : BtAddr} {m r m' n : Ret}
  {h : Handle} {a : List UInt8} {len : Nat}

theorem Platform.modeEvent_not_setsUp (P : Platform) (s : Socket) (nonblocking : Bool) (m : Ret) :
    ¬SetsUp (P.modeEvent s nonblocking m) := by
  cases P with
  | unix target => exact Bool.false_ne_true
  | windows w => exact Bool.false_ne_true

/-- The calls around the attempt are none of those that decide. -/
private theorem mem_inner {u v w : Trace os} (first : ∀ e ∈ u, SetsUp e) (last : ∀ e ∈ w, SetsUp e)
    {e : Event os} (other : ¬SetsUp e) : e ∈ u ++ (v ++ w) ↔ e ∈ v := by
  simp only [List.mem_append]
  constructor
  · rintro (before | inside | after)
    · exact absurd (first e before) other
    · exact inside
    · exact absurd (last e after) other
  · intro inside
    exact Or.inr (Or.inl inside)

private theorem connectedAtOnce_inner {u v w : Trace os} (first : ∀ e ∈ u, SetsUp e)
    (last : ∀ e ∈ w, SetsUp e) : ConnectedAtOnce P (u ++ (v ++ w)) ↔ ConnectedAtOnce P v := by
  have connect (s addr len r) : ¬SetsUp ⟨.connect s addr len, r⟩ := Bool.false_ne_true
  simp only [ConnectedAtOnce, mem_inner first last (connect _ _ _ _),
    mem_inner first last (P.modeEvent_not_setsUp _ _ _)]

private theorem proceeds_inner {u v w : Trace os} (first : ∀ e ∈ u, SetsUp e)
    (last : ∀ e ∈ w, SetsUp e) : Proceeds P (u ++ (v ++ w)) ↔ Proceeds P v := by
  have connect (s addr len r) : ¬SetsUp ⟨.connect s addr len, r⟩ := Bool.false_ne_true
  simp only [Proceeds, mem_inner first last (connect _ _ _ _),
    mem_inner first last (P.modeEvent_not_setsUp _ _ _)]

private theorem restored_mem (member : P.modeEvent s false n ∈
    [P.modeEvent self true m, P.connectEvent pad self addr r, P.modeEvent self false m']) :
    n = m' := by
  cases P <;> simp_all [Platform.modeEvent, Platform.connectEvent]

private theorem connect_mem (member : (⟨.connect h a len, n⟩ : Event os) ∈
    [P.modeEvent self true m, P.connectEvent pad self addr r, P.modeEvent self false m']) :
    n = r := by
  cases P <;> simp_all [Platform.modeEvent, Platform.connectEvent]

end Events

/-- An attempt with no time to wait succeeds only at once. -/
theorem timedConnect_zero {P : Platform} {pad : UInt8} {self : Socket} {addr : BtAddr}
    {t : Trace os} {y : Except Exit Unit} (h : TimedConnect P pad self addr .zero t y) :
    (y = .ok () ∧ ConnectedAtOnce P t) ∨
    (¬ConnectedAtOnce P t ∧ ∃ e, y = .error (.err e) ∧ (Proceeds P t → e = zeroTimeout)) := by
  cases h with
  | @unswitched m failed =>
    refine Or.inr ⟨?_, _, rfl, ?_⟩
    · rintro ⟨⟨s, a, len, r, member, _⟩, _⟩
      cases P <;> simp [Platform.modeEvent] at member
    · rintro ⟨_, ⟨s, a, len, r, member, _⟩, _⟩
      cases P <;> simp [Platform.modeEvent] at member
  | @stuck m r m' switched failed =>
    refine Or.inr ⟨?_, _, rfl, ?_⟩
    · rintro ⟨_, s, n, member, restored⟩
      exact absurd failed (restored_mem member ▸ restored)
    · rintro ⟨_, _, s, n, member, restored⟩
      exact absurd failed (restored_mem member ▸ restored)
  | @connected m r m' switched restored passed =>
    -- nothing has looked at the timeout
    exact Or.inl ⟨rfl, ⟨_, _, _, r, List.mem_cons_of_mem _ List.mem_cons_self, passed⟩,
      self, m', by simp, restored⟩
  | @refused m r m' switched restored failed other =>
    refine Or.inr ⟨?_, _, rfl, ?_⟩
    · rintro ⟨⟨s, a, len, n, member, passed⟩, _⟩
      exact absurd failed (connect_mem member ▸ passed)
    · rintro ⟨_, ⟨s, a, len, n, member, passed | going⟩, _⟩
      · exact absurd failed (connect_mem member ▸ passed)
      · exact absurd (connect_mem member ▸ going) other
  | @waited m r m' t y switched restored failed going wait =>
    -- only here is the argument checked
    obtain ⟨rfl, rfl⟩ := runs_connectWait_zero P self t y wait
    refine Or.inr ⟨?_, _, rfl, fun _ => rfl⟩
    rintro ⟨⟨s, a, len, n, member, passed⟩, _⟩
    exact absurd failed (connect_mem member ▸ passed)

/-- A zero timeout is rejected exactly where `connect` does not succeed at once. -/
theorem zero_timeout_iff (P : Platform) (pad : UInt8) (addr : BtAddr) (protocol : BtProtocol)
    (t : Trace os) (y : Except Exit BtStream)
    (run : Runs (BtStream.connectTimeout P pad addr protocol .zero).run t y) :
    RejectsZero P t y ↔ ¬ConnectedAtOnce P t := by
  rcases runs_stream_connectTimeout P pad addr protocol .zero t y run with
    ⟨e, rfl, setsUp⟩ | ⟨u, v, w, s, z, rfl, first, last, attempt, rfl⟩
  · -- no socket was made, so `connect` was not called
    have none (s a len r) : ⟨.connect s a len, r⟩ ∉ t := fun member =>
      Bool.false_ne_true (setsUp _ member)
    refine iff_of_true ⟨⟨e, rfl⟩, ?_⟩ ?_
    · rintro ⟨_, ⟨s, a, len, r, member, _⟩, _⟩
      exact absurd member (none s a len r)
    · rintro ⟨⟨s, a, len, r, member, _⟩, _⟩
      exact absurd member (none s a len r)
  · rw [connectedAtOnce_inner first last]
    rcases timedConnect_zero attempt with ⟨rfl, atOnce⟩ | ⟨later, e, rfl, argument⟩
    · -- the call succeeded at once, in spite of the argument
      refine iff_of_false ?_ (not_not.mpr atOnce)
      rintro ⟨⟨e, eq⟩, _⟩
      cases eq
    · refine iff_of_true ⟨⟨e, rfl⟩, fun proceeds => ?_⟩ later
      rw [argument ((proceeds_inner first last).mp proceeds)]
      rfl

/-- On every socket that can be made, a timeout of zero goes unnoticed if `connect` is quick. -/
private theorem runs_connected (P : Platform) (pad : UInt8) (addr : BtAddr) (protocol : BtProtocol)
    (u : Trace os) (s : Socket) (made : Runs (Socket.new P protocol).run u (.ok s)) :
    Runs (BtStream.connectTimeout P pad addr protocol .zero).run
      (u ++ [P.modeEvent s true ⟨0, 0⟩, P.connectEvent pad s addr ⟨0, 0⟩,
        P.modeEvent s false ⟨0, 0⟩]) (.ok ⟨s, protocol⟩) := by
  have passed : (⟨0, 0⟩ : Ret).value ≠ -1 := by decide
  have attempt := (runs_connectTimeout P pad s addr .zero _ _).mpr
    (.connected passed passed passed)
  refine made.run_bind (Runs.owning ?_ _)
  exact attempt.run_bind (Runs.run_pure (⟨s, protocol⟩ : BtStream))

/-- A socket on Linux, and one on Windows. -/
private theorem runs_new_three :
    Runs (Socket.new (.unix .linux) .rfcomm).run [⟨.socket true 3, ⟨3, 0⟩⟩] (.ok ⟨3⟩) :=
  (runs_sys_bind _ _ _ _).mpr ⟨⟨3, 0⟩, [], rfl, rfl, rfl⟩

private theorem runs_new_five :
    Runs (Socket.new (.windows bthdef) .rfcomm).run
      [⟨.winsockInit, ()⟩, ⟨.wsaSocketW ⟨32, 1, 3⟩, ⟨5, 0⟩⟩, ⟨.setHandleInformation 5, ⟨1, 0⟩⟩]
      (.ok ⟨5⟩) := by
  have cleared : Runs (Windows.Socket.setNoInherit ⟨5⟩).run _ (.ok ()) :=
    (Runs.sys (.setHandleInformation 5) ⟨1, 0⟩).run_bind (Runs.run_pure ())
  have wrapped : Runs (Windows.Socket.withNoInherit 5).run _ (.ok ⟨5⟩) :=
    (cleared.run_bind (Runs.run_pure (⟨5⟩ : Socket))).owning _
  exact (Runs.sys .winsockInit ()).run_bind
    ((Runs.sys (.wsaSocketW ⟨32, 1, 3⟩) ⟨5, 0⟩).run_bind wrapped)

theorem zero_timeout_accepted :
    (∃ t, Runs (BtStream.connectTimeout (.unix .linux) 0 ⟨zeroed 6⟩ .rfcomm .zero).run t
        (.ok ⟨⟨3⟩, .rfcomm⟩) ∧ ¬RejectsZero (.unix .linux) t (.ok ⟨⟨3⟩, .rfcomm⟩)) ∧
    ∃ t, Runs (BtStream.connectTimeout (.windows bthdef) 0 ⟨zeroed 6⟩ .rfcomm .zero).run t
        (.ok ⟨⟨5⟩, .rfcomm⟩) ∧ ¬RejectsZero (.windows bthdef) t (.ok ⟨⟨5⟩, .rfcomm⟩) := by
  refine ⟨⟨_, runs_connected _ 0 _ _ _ _ runs_new_three, ?_⟩,
    _, runs_connected _ 0 _ _ _ _ runs_new_five, ?_⟩
  all_goals
    rintro ⟨⟨e, eq⟩, _⟩
    cases eq

/-- A `connect` in progress, and the socket closed again. -/
def connectInProgress : Trace os :=
  [⟨.socket true 3, ⟨3, 0⟩⟩, ⟨.ioctlFionbio 3 1, ⟨0, 0⟩⟩,
    (Platform.unix .linux).connectEvent 0 ⟨3⟩ ⟨zeroed 6⟩ ⟨-1, EINPROGRESS⟩,
    ⟨.ioctlFionbio 3 0, ⟨0, 0⟩⟩, ⟨.close 3, ⟨0, 0⟩⟩]

private theorem runs_connectInProgress :
    Runs (BtStream.connectTimeout (.unix .linux) 0 ⟨zeroed 6⟩ .rfcomm .zero).run
      connectInProgress (.error (.err zeroTimeout)) := by
  have wait : Runs ((Platform.unix .linux).connectWait ⟨3⟩ .zero).run []
      (.error (.err zeroTimeout)) := ⟨rfl, rfl⟩
  have attempt := (runs_connectTimeout (.unix .linux) 0 ⟨3⟩ ⟨zeroed 6⟩ .zero _ _).mpr
    (@TimedConnect.waited (.unix .linux) _ _ _ _ ⟨0, 0⟩ ⟨-1, EINPROGRESS⟩ ⟨0, 0⟩ _ _ (by decide)
      (by decide) rfl rfl wait)
  have closed : Runs (Socket.drop (.unix .linux) ⟨3⟩) [⟨.close 3, ⟨0, 0⟩⟩] () :=
    ⟨⟨0, 0⟩, [], rfl, rfl, rfl⟩
  exact runs_new_three.run_bind ((attempt.run_bind_error _).owning_error closed)

theorem zero_timeout_rejected :
    RejectsZero (.unix .linux) connectInProgress (.error (.err zeroTimeout)) := by
  refine (zero_timeout_iff (.unix .linux) 0 ⟨zeroed 6⟩ .rfcomm _ _ runs_connectInProgress).mpr ?_
  rintro ⟨⟨s, a, len, r, member, passed⟩, _⟩
  have same : r = ⟨-1, EINPROGRESS⟩ := by
    simp [connectInProgress, Platform.connectEvent] at member
    exact member.2
  exact passed (congrArg Ret.value same)

end IoBluetooth
