import IoBluetooth.Sys.Calls

/-!
# Connecting while signals arrive

`connect` is no call that can be repeated: one that a signal interrupts has started the attempt,
and the next one reports on it. `BtStream::connect` repeats it all the same, through `cvt_r`,
and takes such a report for a failure.
-/
namespace IoBluetooth

open Interaction Memory Rust

/-! ### The kernel -/

/-- What becomes of the one attempt to connect that a socket makes. -/
inductive Fate where
  | succeeds
  | fails (errno : Int) (real : errno ≠ EINTR)
  | never

/-- How far the attempt has come. -/
inductive Progress where
  | idle
  | going
  | done
  deriving DecidableEq

/-- The attempt goes on by itself, at any time. -/
inductive Fate.Advances (fate : Fate) : Progress → Progress → Prop
  | stays (w) : Advances fate w w
  | completes : fate ≠ .never → Advances fate .going .done

/-- What `connect` reports on an attempt that has completed. -/
def Fate.reported : Fate → Ret → Prop
  | .succeeds, r => r.value = -1 ∧ r.errno = EISCONN
  | .fails errno _, r => r.value = -1 ∧ r.errno = errno
  | .never, _ => False

/-- The replies to a `connect`. -/
inductive Fate.Connects (fate : Fate) : Progress → Ret → Progress → Prop
  | succeeds {r : Ret} : fate = .succeeds → r.value ≠ -1 → Connects fate .idle r .done
  | fails {r : Ret} {errno real} : fate = .fails errno real → r.value = -1 → r.errno = errno →
      Connects fate .idle r .done
  | interrupted {r : Ret} {w} : w ≠ .done → Unix.interrupted r → Connects fate w r .going
  | already {r : Ret} : r.value = -1 → r.errno = EALREADY → Connects fate .going r .going
  | reports {r : Ret} : fate.reported r → Connects fate .done r .done

/-- The kernel as far as the attempt of one socket goes. -/
def connecting (fate : Fate) : Environment os Progress := fun w e w' =>
  match e with
  | ⟨.connect .., r⟩ => ∃ v, fate.Advances w v ∧ fate.Connects v r w'
  | _ => fate.Advances w w'

/-! ### Attempts -/

def isConnect (e : Event os) : Prop :=
  match e.call with
  | .connect .. => True
  | _ => False

/-- Before the attempt nothing but `connect` starts it. -/
theorem idle_of_no_connect (fate : Fate) (t : Trace os) (none : ∀ e ∈ t, ¬isConnect e)
    (w : Progress) (steps : Steps (connecting fate) .idle t w) : w = .idle := by
  induction t with
  | nil => exact (steps_nil _ _ _).mp steps
  | cons e t ih =>
    obtain ⟨v, first, rest⟩ := (steps_cons _ _ _ _ _).mp steps
    have advance : fate.Advances .idle v := by
      obtain ⟨c, r⟩ := e
      have other := none ⟨c, r⟩ List.mem_cons_self
      cases c <;> first | exact first | exact absurd trivial other
    cases advance
    exact ih (fun e member => none e (List.mem_cons_of_mem _ member)) rest

/-- Once the attempt is under way, `connect` never returns a success. -/
private theorem connects_of_started {fate : Fate} {w w' : Progress} {r : Ret} (started : w ≠ .idle)
    (connects : fate.Connects w r w') : r.value = -1 ∧ w' ≠ .idle := by
  cases connects with
  | succeeds _ _ => exact absurd rfl started
  | fails _ _ _ => exact absurd rfl started
  | interrupted _ signal => exact ⟨signal.1, by decide⟩
  | already failed _ => exact ⟨failed, by decide⟩
  | reports reported =>
    refine ⟨?_, by decide⟩
    cases fate with
    | succeeds => exact reported.1
    | fails errno real => exact reported.1
    | never => exact absurd reported id

section Attempts

variable (target : Target) (s : Handle) (addr : List UInt8) (len : Nat) (fate : Fate)

/-- The attempts of `cvt_r`: all on the socket `s`, and failing once the first has started. -/
private theorem attempts_of_started (t : Trace os) (res : Except IoError Int)
    (run : Runs ((Platform.unix target).cvtR (@Prog.perform os (.connect s addr len))) t res)
    (w w' : Progress) (started : w ≠ .idle) (steps : Steps (connecting fate) w t w') :
    ∃ e, res = .error e := by
  -- induction over the attempts: none of them leaves the attempt unstarted
  revert w
  refine Platform.runs_cvtR_induction ?_ ?_ t res run
  · intro t r call quiet w started steps
    obtain rfl := (@runs_perform os (.connect s addr len) t r).mp call
    obtain ⟨v, advance, connects⟩ := (steps_singleton _ _ _ _).mp steps
    have going : v ≠ .idle := by
      cases advance with
      | stays => exact started
      | completes _ => decide
    have failed := (connects_of_started going connects).1
    exact ⟨_, (cvt_eq_error_iff r _).mpr ⟨failed, rfl⟩⟩
  · intro t r u res call signal ih w started steps
    obtain rfl := (@runs_perform os (.connect s addr len) t r).mp call
    obtain ⟨x, first, rest⟩ := (steps_cons _ _ _ _ _).mp steps
    obtain ⟨v, advance, connects⟩ := first
    have going : v ≠ .idle := by
      cases advance with
      | stays => exact started
      | completes _ => decide
    exact ih x (connects_of_started going connects).2 rest

private theorem attempts_on (t : Trace os) (res : Except IoError Int)
    (run : Runs ((Platform.unix target).cvtR (@Prog.perform os (.connect s addr len))) t res) :
    ∀ e ∈ t, ∃ r, e = ⟨.connect s addr len, r⟩ :=
  ((Platform.unix target).emits_cvtR
    (@emits_perform os _ (.connect s addr len) fun r => ⟨r, rfl⟩)).runs t res run

/-- The attempts of `cvt_r` on a socket that has made none. -/
private theorem attempts_of_idle (t : Trace os) (res : Except IoError Int)
    (run : Runs ((Platform.unix target).cvtR (@Prog.perform os (.connect s addr len))) t res)
    (w : Progress) (steps : Steps (connecting fate) .idle t w) :
    (∃ e ∈ t, isConnect e) ∧
    ((∃ r v, t = [⟨.connect s addr len, r⟩] ∧ ¬Unix.interrupted r ∧ res = .ok v ∧
        fate = .succeeds) ∨
      (∃ r x, t = [⟨.connect s addr len, r⟩] ∧ ¬Unix.interrupted r ∧ res = .error x ∧
        ∃ errno real, fate = .fails errno real) ∨
      (∃ r u x, t = ⟨.connect s addr len, r⟩ :: u ∧ Unix.interrupted r ∧ res = .error x)) := by
  rcases (Platform.runs_cvtR_iff _ _ _ _).mp run with ⟨r, call, quiet, rfl⟩ |
    ⟨r, _, u, rfl, call, signal, rest⟩
  · obtain rfl := (@runs_perform os (.connect s addr len) t r).mp call
    -- the first attempt decides
    refine ⟨⟨_, List.mem_singleton_self _, trivial⟩, ?_⟩
    obtain ⟨v, advance, connects⟩ := (steps_singleton _ _ _ _).mp steps
    cases advance
    cases connects with
    | succeeds succeeds passed =>
      exact Or.inl ⟨r, _, rfl, quiet, (cvt_eq_ok_iff r _).mpr ⟨passed, rfl⟩, succeeds⟩
    | fails fails failed _ =>
      have error : cvt r = .error (.os r.errno) := (cvt_eq_error_iff r _).mpr ⟨failed, rfl⟩
      exact Or.inr (Or.inl ⟨r, _, rfl, quiet, error, _, _, fails⟩)
    | interrupted _ signal => exact absurd signal quiet
  · -- it was interrupted, so the attempt is under way and the rest fails
    obtain rfl := (@runs_perform os (.connect s addr len) _ r).mp call
    refine ⟨⟨_, List.mem_cons_self, trivial⟩, Or.inr (Or.inr ?_)⟩
    obtain ⟨x, ⟨v, advance, connects⟩, steps⟩ := (steps_cons _ _ _ _ _).mp steps
    have started : x ≠ .idle := by
      cases connects <;> decide
    obtain ⟨e, failed⟩ := attempts_of_started target s addr len fate u res rest x w started steps
    exact ⟨r, u, e, rfl, signal, failed⟩

end Attempts

/-! ### Runs -/

/-- Some `connect` of the trace was interrupted by a signal. -/
def Interrupted (t : Trace os) : Prop :=
  ∃ s addr len r, ⟨.connect s addr len, r⟩ ∈ t ∧ Unix.interrupted r

/-- An attempt that succeeds makes a stream of the socket that was connected, and nothing but a
failed attempt makes an error. -/
def Faithful (fate : Fate) (protocol : BtProtocol) (t : Trace os) (y : Except Exit BtStream) :
    Prop :=
  (∃ e ∈ t, isConnect e) →
    (fate = .succeeds → ∃ s, y = .ok ⟨⟨s⟩, protocol⟩ ∧
      ∀ s' addr len r, ⟨.connect s' addr len, r⟩ ∈ t → s' = s) ∧
    ((∃ x, y = .error x) → ∃ errno real, fate = .fails errno real)

theorem not_interrupted_of_no_connect (t : Trace os) (none : ∀ e ∈ t, ¬isConnect e) :
    ¬Interrupted t := by
  rintro ⟨s, addr, len, r, member, _⟩
  exact none _ member trivial

theorem isConnect_of_setsUp (e : Event os) (sets : SetsUp e) : ¬isConnect e := by
  obtain ⟨c, r⟩ := e
  cases c <;> simp_all [isConnect, SetsUp, Call.setsUp]

/-- What `BtStream::connect` does once it owns a socket. -/
def attemptOn (target : Target) (addr : List UInt8 × Nat) (protocol : BtProtocol)
    (socket : Socket) : Sys BtStream :=
  owning (socket.drop (.unix target)) do
    let res ← ExceptT.lift ((Platform.unix target).cvtR
      (@Prog.perform os (.connect socket.raw addr.1 addr.2)))
    let _ ← check res
    pure ⟨socket, protocol⟩

theorem connect_eq (target : Target) (addr : BtAddr) (protocol : BtProtocol) :
    BtStream.connect (.unix target) addr protocol =
      Socket.new (.unix target) protocol >>=
        attemptOn target ((Platform.unix target).toSockaddr addr) protocol := by
  unfold BtStream.connect attemptOn
  generalize (Platform.unix target).toSockaddr addr = x
  rfl

private theorem owned_attempts (target : Target) (socket : Socket) (addr : List UInt8 × Nat)
    (protocol : BtProtocol) (v : Trace os) (y : Except Exit BtStream)
    (run : Runs (attemptOn target addr protocol socket).run v y) :
    ∃ (c d : Trace os) (res : Except IoError Int), v = c ++ d ∧ (∀ e ∈ d, SetsUp e) ∧
      Runs ((Platform.unix target).cvtR (@Prog.perform os (.connect socket.raw addr.1 addr.2)))
        c res ∧
      ((∃ n, res = .ok n ∧ y = .ok ⟨socket, protocol⟩) ∨
        ∃ e, res = .error e ∧ y = .error (.err e)) := by
  rcases (runs_owning _ _ _ _).mp run with ⟨a, body, rfl⟩ | ⟨c, d, x, rfl, body, dropped, rfl⟩
  · rcases (runs_run_bind _ _ _ _).mp body with ⟨x, _, eq⟩ | ⟨c, d, res, rfl, attempts, rest⟩
    · cases eq
    · obtain ⟨res, attempts, eq⟩ := (runs_run_lift _ _ _).mp attempts
      cases eq
      rcases (runs_check_bind _ _ _ _).mp rest with ⟨e, _, _, eq⟩ | ⟨n, ok, rfl, eq⟩
      · cases eq
      · exact ⟨c, [], _, rfl, by simp, attempts, Or.inl ⟨n, ok, eq⟩⟩
  · -- the body failed, so the socket is dropped
    have quiet := (Socket.emits_drop (.unix target) socket).runs d () dropped
    rcases (runs_run_bind _ _ _ _).mp body with ⟨x, failed, eq⟩ | ⟨c, d', res, rfl, attempts, rest⟩
    · obtain ⟨_, _, eq⟩ := (runs_run_lift _ _ _).mp failed
      cases eq
    · obtain ⟨res, attempts, eq⟩ := (runs_run_lift _ _ _).mp attempts
      cases eq
      rcases (runs_check_bind _ _ _ _).mp rest with ⟨e, failed, rfl, eq⟩ | ⟨n, _, _, eq⟩
      · cases eq
        rw [List.append_nil]
        exact ⟨c, d, _, rfl, quiet, attempts, Or.inr ⟨e, failed, rfl⟩⟩
      · cases eq

/-- On Unix a signal that interrupts `connect` turns an attempt that succeeds, or one that is
still going on, into an error; without one the result is the attempt's own. -/
theorem connect_signals_iff (target : Target) (addr : BtAddr) (protocol : BtProtocol) (fate : Fate)
    (t : Trace os) (y : Except Exit BtStream) (w : Progress)
    (run : Runs (BtStream.connect (.unix target) addr protocol).run t y)
    (steps : Steps (connecting fate) .idle t w) :
    Faithful fate protocol t y ↔ ¬Interrupted t ∨ ∃ errno real, fate = .fails errno real := by
  have quietNew (u : Trace os) (z : Except Exit Socket)
      (created : Runs (Socket.new (.unix target) protocol).run u z) : ∀ e ∈ u, ¬isConnect e :=
    fun e member => isConnect_of_setsUp e
      ((Socket.emits_new (.unix target) protocol).runs u z created e member)
  rw [connect_eq] at run
  rcases (runs_run_bind _ _ _ _).mp run with ⟨x, created, rfl⟩ | ⟨u, v, socket, rfl, created, rest⟩
  · -- without a socket there is no attempt
    have quiet := quietNew t _ created
    refine iff_of_true ?_ (Or.inl (not_interrupted_of_no_connect t quiet))
    rintro ⟨e, member, connects⟩
    exact absurd connects (quiet e member)
  · have quiet := quietNew u _ created
    obtain ⟨m, first, steps⟩ := (steps_append _ _ _ _ _).mp steps
    obtain rfl := idle_of_no_connect fate u quiet m first
    obtain ⟨c, d, res, rfl, dropped, attempts, outcome⟩ :=
      owned_attempts target socket _ protocol v y rest
    obtain ⟨m, first, _⟩ := (steps_append _ _ _ _ _).mp steps
    obtain ⟨started, ending⟩ := attempts_of_idle target socket.raw _ _ fate c res attempts m first
    have quietDrop : ∀ e ∈ d, ¬isConnect e := fun e member =>
      isConnect_of_setsUp e (dropped e member)
    -- the `connect` calls of the whole run are those of `cvt_r`
    have inside (s : Handle) (a : List UInt8) (len : Nat) (r : Ret)
        (member : ⟨.connect s a len, r⟩ ∈ u ++ (c ++ d)) : ⟨.connect s a len, r⟩ ∈ c := by
      rcases List.mem_append.mp member with before | member
      · exact absurd trivial (quiet _ before)
      · rcases List.mem_append.mp member with inner | after
        · exact inner
        · exact absurd trivial (quietDrop _ after)
    have on := attempts_on target socket.raw _ _ c res attempts
    have begun : ∃ e ∈ u ++ (c ++ d), isConnect e := by
      obtain ⟨e, member, connects⟩ := started
      exact ⟨e, by simp [member], connects⟩
    rcases ending with ⟨r, n, rfl, clean, rfl, _⟩ | ⟨r, x, rfl, clean, rfl, fails⟩ |
      ⟨r, later, x, rfl, signal, rfl⟩
    · -- one attempt, which succeeded
      have uninterrupted : ¬Interrupted (u ++ ([⟨.connect socket.raw _ _, r⟩] ++ d)) := by
        rintro ⟨s, a, len, r', member, signal⟩
        cases List.mem_singleton.mp (inside s a len r' member)
        exact clean signal
      have ok : y = .ok ⟨socket, protocol⟩ := by
        rcases outcome with ⟨_, _, eq⟩ | ⟨_, wrong, _⟩
        · exact eq
        · cases wrong
      refine iff_of_true (fun _ => ⟨fun _ => ⟨socket.raw, ok, ?_⟩, ?_⟩) (Or.inl uninterrupted)
      · intro s a len r' member
        cases List.mem_singleton.mp (inside s a len r' member)
        rfl
      · rintro ⟨x, wrong⟩
        rw [ok] at wrong
        cases wrong
    · -- one attempt, which failed: `fate` is to fail
      refine iff_of_true (fun _ => ⟨fun wrong => ?_, fun _ => fails⟩) (Or.inr fails)
      obtain ⟨errno, real, eq⟩ := fails
      rw [wrong] at eq
      cases eq
    · -- a signal, after which every further attempt is an error
      have error : ∃ x, y = .error x := by
        rcases outcome with ⟨_, wrong, _⟩ | ⟨e, _, eq⟩
        · cases wrong
        · exact ⟨_, eq⟩
      have interrupted : Interrupted (u ++ (⟨.connect socket.raw _ _, r⟩ :: later ++ d)) :=
        ⟨_, _, _, r, List.mem_append_right u List.mem_cons_self, signal⟩
      constructor
      · intro faithful
        exact Or.inr ((faithful begun).2 error)
      · rintro (clean | fails)
        · exact absurd interrupted clean
        · refine fun _ => ⟨fun wrong => ?_, fun _ => fails⟩
          obtain ⟨errno, real, eq⟩ := fails
          rw [wrong] at eq
          cases eq

private theorem runs_attemptOn_ok (target : Target) (addr : List UInt8 × Nat)
    (protocol : BtProtocol) (socket : Socket) (c : Trace os) (n : Int)
    (attempts : Runs ((Platform.unix target).cvtR
      (@Prog.perform os (.connect socket.raw addr.1 addr.2))) c (.ok n)) :
    Runs (attemptOn target addr protocol socket).run c (.ok ⟨socket, protocol⟩) := by
  refine Runs.owning ?_ _
  refine (runs_run_bind _ _ _ _).mpr (Or.inr ⟨c, [], .ok n, (List.append_nil c).symm, ?_, ?_⟩)
  · exact (runs_run_lift _ _ _).mpr ⟨_, attempts, rfl⟩
  · exact (runs_check_bind _ _ _ _).mpr (Or.inr ⟨n, rfl, Runs.run_pure _⟩)

private theorem runs_attemptOn_error (target : Target) (addr : List UInt8 × Nat)
    (protocol : BtProtocol) (socket : Socket) (c : Trace os) (e : IoError) (closed : Ret)
    (attempts : Runs ((Platform.unix target).cvtR
      (@Prog.perform os (.connect socket.raw addr.1 addr.2))) c (.error e)) :
    Runs (attemptOn target addr protocol socket).run (c ++ [⟨.close socket.raw, closed⟩])
      (.error (.err e)) := by
  refine Runs.owning_error ?_ ⟨closed, [], rfl, rfl, rfl⟩
  refine (runs_run_bind _ _ _ _).mpr (Or.inr ⟨c, [], .error e, (List.append_nil c).symm, ?_, ?_⟩)
  · exact (runs_run_lift _ _ _).mpr ⟨_, attempts, rfl⟩
  · exact (runs_check_bind _ _ _ _).mpr (Or.inl ⟨e, rfl, rfl, rfl⟩)

/-- What the address 06:05:04:03:02:01 is sent as. -/
def sentAddr : List UInt8 := [31, 0, 1, 2, 3, 4, 5, 6, 1, 0]

/-- The socket 3 is created, and then `rest` follows. -/
def afterSocket3 (rest : Trace os) : Trace os := [⟨.socket true 3, ⟨3, 0⟩⟩] ++ rest

private theorem runs_afterSocket3 (rest : Trace os) (y : Except Exit BtStream)
    (run : Runs (attemptOn .linux (sentAddr, 10) .rfcomm ⟨3⟩).run rest y) :
    Runs (BtStream.connect (.unix .linux) ⟨#v[1, 2, 3, 4, 5, 6]⟩ .rfcomm).run
      (afterSocket3 rest) y := by
  have created : Runs (Socket.new (.unix .linux) .rfcomm).run [⟨.socket true 3, ⟨3, 0⟩⟩]
      (.ok ⟨3⟩) :=
    (runs_sys_bind _ _ _ _).mpr ⟨⟨3, 0⟩, [], rfl, rfl, rfl⟩
  have address : (Platform.unix .linux).toSockaddr ⟨#v[1, 2, 3, 4, 5, 6]⟩ = (sentAddr, 10) := by
    decide
  rw [connect_eq, address]
  exact created.run_bind run

/-- The signal comes while the attempt, which succeeds, is on its way, and the call is repeated
before the kernel has completed it. -/
def signalled : Trace os :=
  afterSocket3 [⟨.connect 3 sentAddr 10, ⟨-1, EINTR⟩⟩, ⟨.connect 3 sentAddr 10, ⟨-1, EALREADY⟩⟩,
    ⟨.close 3, ⟨0, 0⟩⟩]

theorem signal_fails_connect :
    Runs (BtStream.connect (.unix .linux) ⟨#v[1, 2, 3, 4, 5, 6]⟩ .rfcomm).run signalled
        (.error (.err (.os EALREADY))) ∧
      Steps (connecting .succeeds) .idle signalled .done ∧
      ¬Faithful .succeeds .rfcomm signalled (.error (.err (.os EALREADY))) := by
  refine ⟨runs_afterSocket3 _ _ ?_, ?_, ?_⟩
  · have last : Runs ((Platform.unix .linux).cvtR (@Prog.perform os (.connect 3 sentAddr 10)))
        [⟨.connect 3 sentAddr 10, ⟨-1, EALREADY⟩⟩] (.error (.os EALREADY)) :=
      Platform.runs_cvtR_last _ _ _ ⟨-1, EALREADY⟩ ((runs_perform _ _ _).mpr rfl) (by decide)
    have attempts := (Platform.runs_cvtR_iff _ _ _ _).mpr (Or.inr ⟨⟨-1, EINTR⟩, _, _, rfl,
      (@runs_perform os (.connect 3 sentAddr 10) _ _).mpr rfl, by decide, last⟩)
    exact runs_attemptOn_error .linux (sentAddr, 10) .rfcomm ⟨3⟩ _ _ ⟨0, 0⟩ attempts
  · have going : Steps (connecting .succeeds) .going
        [⟨.connect 3 sentAddr 10, ⟨-1, EALREADY⟩⟩, ⟨.close 3, ⟨0, 0⟩⟩] .done :=
      .cons ⟨_, .stays .going, .already rfl rfl⟩ (.cons (.completes nofun) (.nil _))
    exact .cons (.stays .idle)
      (.cons ⟨_, .stays .idle, .interrupted (by decide) (by decide)⟩ going)
  · intro faithful
    obtain ⟨s, wrong, _⟩ := (faithful ⟨⟨.connect 3 _ _, ⟨-1, EINTR⟩⟩,
      List.mem_cons_of_mem _ List.mem_cons_self, trivial⟩).1 rfl
    cases wrong

theorem uninterrupted_connect :
    Faithful .succeeds .rfcomm (afterSocket3 [⟨.connect 3 sentAddr 10, ⟨0, 0⟩⟩])
      (.ok ⟨⟨3⟩, .rfcomm⟩) := by
  have attempt : Runs ((Platform.unix .linux).cvtR (@Prog.perform os (.connect 3 sentAddr 10)))
      [⟨.connect 3 sentAddr 10, ⟨0, 0⟩⟩] (.ok 0) :=
    Platform.runs_cvtR_last _ _ _ ⟨0, 0⟩ ((runs_perform _ _ _).mpr rfl) (by decide)
  have run := runs_attemptOn_ok .linux (sentAddr, 10) .rfcomm ⟨3⟩ _ _ attempt
  have steps : Steps (connecting .succeeds) .idle
      (afterSocket3 [⟨.connect 3 sentAddr 10, ⟨0, 0⟩⟩]) .done :=
    .cons (.stays .idle) (.cons ⟨_, .stays .idle, .succeeds rfl (by decide)⟩ (.nil _))
  refine (connect_signals_iff .linux ⟨#v[1, 2, 3, 4, 5, 6]⟩ .rfcomm .succeeds _ _ .done
    (runs_afterSocket3 _ _ run) steps).mpr (Or.inl ?_)
  rintro ⟨s, addr, len, r, member, signal⟩
  rcases List.mem_cons.mp member with socket | member
  · cases socket
  · cases List.mem_singleton.mp member
    exact absurd signal (by decide)

end IoBluetooth
