import IoBluetooth.Interaction.Stages
import IoBluetooth.Sys.References

/-!
# The stages of a socket

The system takes most calls at some stages of a socket only: it binds a socket that is new, accepts
on one that listens, and carries bytes over one that was connected. Which calls are in their place,
what they lead to, and what a listener and a stream are to be.

A stage says what the calls on a socket have come to. What has become of a connection since, no
stage says.
-/
namespace IoBluetooth

open Interaction Rust

/-! ### Open sockets of the system -/

inductive Stage where
  | unbound
  | bound
  | listening
  -- an attempt to connect is left in progress: `connect` was interrupted, or does not wait
  | inProgress
  -- `poll` has reported that the attempt is over, with no `POLLHUP`; it may have failed
  | reported
  -- a `connect` has succeeded, or the socket was accepted
  | joined
  -- after an attempt that failed a socket is to be closed
  | unspecified
  deriving DecidableEq, Repr

def Stage.all : List Stage :=
  [unbound, bound, listening, inProgress, reported, joined, unspecified]

theorem Stage.mem_all (stage : Stage) : stage ∈ all := by
  cases stage <;> decide

/-- Beside the stage: the mode, and whether a user of the socket has asked for one. -/
structure Condition where
  stage : Stage
  nonblocking : Bool
  asked : Bool
  deriving DecidableEq, Repr

def Condition.fresh : Condition := ⟨.unbound, false, false⟩

/-- The stages at which a call is in its place. -/
def Call.stages : Call → List Stage
  | .bind .. | .setsockopt _ _ .soReuseaddr _ => [.unbound]
  | .listen .. => [.bound]
  | .accept .. | .accept4 .. => [.listening]
  | .connect .. => [.unbound, .inProgress]
  | .poll .. => [.inProgress]
  | .recv .. | .recvfrom .. | .send .. | .sendto .. | .shutdown .. | .getpeername .. =>
    [.reported, .joined]
  -- Winsock has no place on Unix
  | .wsaSocketW .. => []
  | _ => Stage.all

/-- The stage after a `connect`: an attempt that was interrupted goes on, as does one that must not
wait. -/
def Stage.connect (r : Ret) : Stage :=
  match cvt r with
  | .ok _ => .joined
  | .error (.os code) =>
    if code = EINTR ∨ code = EINPROGRESS ∨ code = EALREADY then .inProgress
    else if code = EISCONN then .joined
    else .unspecified
  | .error _ => .unspecified

/-- The stage after a `poll`, which may fail, or end with nothing to report. -/
def Stage.poll (stage : Stage) (r : PollReply) : Stage :=
  if r.ret.value = -1 ∨ r.ret.value = 0 then stage
  else if r.revents &&& Unix.POLLHUP = 0 then .reported
  else .unspecified

/-- The condition after a call; `user` where it is made for somebody who uses the socket. -/
def Condition.after (user : Bool) (x : Condition) : Event os → Condition
  | ⟨.bind .., r⟩ => if r.value = -1 then x else { x with stage := .bound }
  | ⟨.listen .., r⟩ => if r.value = -1 then x else { x with stage := .listening }
  | ⟨.connect .., r⟩ => { x with stage := .connect r }
  | ⟨.poll .., r⟩ => { x with stage := x.stage.poll r }
  | ⟨.ioctlFionbio _ nonblocking, r⟩ =>
    if r.value = -1 then x
    else { x with nonblocking := nonblocking != 0, asked := x.asked || user }
  | _ => x

/-- The calls that are in their place everywhere, and lead nowhere. -/
def Call.steady : Call → Bool
  | .socket .. | .wsaSocketW .. | .bind .. | .listen .. | .accept .. | .accept4 .. | .connect ..
  | .poll .. | .recv .. | .recvfrom .. | .send .. | .sendto .. | .shutdown .. | .getpeername ..
  | .ioctlFionbio .. => false
  | .setsockopt _ _ opt _ => opt != .soReuseaddr
  | _ => true

theorem Call.stages_of_steady {c : Call} (steady : c.steady = true) (stage : Stage) :
    stage ∈ c.stages := by
  cases c with
  | setsockopt s T opt payload =>
    cases opt with
    | soReuseaddr => cases steady
    | _ => exact stage.mem_all
  | _ => first | exact stage.mem_all | cases steady

theorem Condition.after_of_steady {e : Event os} (steady : e.call.steady = true) (user : Bool)
    (x : Condition) : x.after user e = x := by
  obtain ⟨c, r⟩ := e
  cases c <;> first | rfl | cases steady

/-! ### Sockets of the crate -/

/-- What a socket was made as. The wait for a stream may be timed. -/
inductive Kind where
  | socket
  | listener
  | stream
  | timed
  deriving DecidableEq, Repr

def Kind.stages : Kind → List Stage
  | socket => [.unbound]
  | listener => [.listening]
  | stream => [.joined]
  | timed => [.reported, .joined]

/-- What a socket of this kind refers to. Its mode is the one that it was made in, unless one of
its users has asked for another. -/
def Kind.fits (k : Kind) (x : Condition) : Prop :=
  x.stage ∈ k.stages ∧ (x.asked = false → x.nonblocking = false)

/-- The calls made for the users of a socket that are not in their place everywhere. -/
def Kind.takes (k : Kind) (c : Call) : Bool :=
  match k, c with
  | .listener, .accept .. | .listener, .accept4 .. => true
  | .stream, .recv .. | .stream, .recvfrom .. | .stream, .send .. | .stream, .sendto ..
  | .stream, .shutdown .. | .stream, .getpeername .. => true
  | .timed, .recv .. | .timed, .recvfrom .. | .timed, .send .. | .timed, .sendto ..
  | .timed, .shutdown .. | .timed, .getpeername .. => true
  | _, .ioctlFionbio .. => true
  | _, _ => false

theorem Kind.takes_timed (c : Call) : Kind.stream.takes c = Kind.timed.takes c := by
  cases c <;> rfl

theorem Kind.stages_of_takes {k : Kind} {c : Call} (takes : k.takes c = true) :
    k.stages ⊆ c.stages := by
  cases k <;> cases c <;> first | (cases takes; done) | simp [stages, Call.stages, Stage.all]

theorem Kind.fits_after {k k' : Kind} {e : Event os} (takes : k.takes e.call = true)
    {x : Condition} (fits : k'.fits x) : k'.fits (x.after true e) := by
  obtain ⟨c, r⟩ := e
  cases c with
  | ioctlFionbio s nonblocking =>
    simp only [Condition.after]
    split
    · exact fits
    · exact ⟨fits.1, by simp⟩
  | _ => cases k <;> first | exact fits | cases takes

namespace Request

/-- What the sockets that a request is about have to be. -/
def typed (kind : Socket → Kind) : Request → Prop
  | make (.accept self) => kind self = .listener
  | stream self _ => kind self.inner = .stream ∨ kind self.inner = .timed
  | listener self _ => kind self.inner = .listener
  | _ => True

/-- The kind of the socket that a request returns. -/
def kind (kind : Socket → Kind) : Request → Kind
  | make (.duplicate self) => kind self
  | make (.bind ..) | bind _ => .listener
  | make (.accept _) | make (.connect ..) | connect _ => .stream
  | make (.connectTimeout ..) => .timed
  | _ => .socket

/-- Whether a request is about a socket that has users. -/
def user (q : Request) : Bool := !q.borrows.isEmpty

end Request

/-! ### What a request makes of a socket -/

/-- A request that makes a socket knows its condition, and keeps to the calls in their place. -/
def proceed : Monitor os (Option Condition) := fun m e =>
  match e, m with
  | ⟨.socket .., r⟩, m => some (if r.value = -1 then m else some .fresh)
  | e, some x => if x.stage ∈ e.call.stages then some (some (x.after false e)) else none
  | e, none => if e.call.steady then some none else none

/-- A request that is about a socket keeps to the calls that every such socket takes. -/
def Request.takes (q : Request) (c : Call) : Bool :=
  match q with
  | make (.accept self) => c.target == some self.raw && Kind.listener.takes c
  | stream self _ => c.target == some self.inner.raw && Kind.stream.takes c
  | listener self _ => c.target == some self.inner.raw && Kind.listener.takes c
  | _ => false

def Request.conduct (q : Request) : Monitor os (Option Condition) :=
  if q.user then only fun c => c.steady || q.takes c else proceed

theorem proceed_of_steady {m : Option Condition} {e : Event os} (steady : e.call.steady = true) :
    proceed m e = some m := by
  obtain ⟨c, r⟩ := e
  have place (x : Condition) : x.stage ∈ c.stages := Call.stages_of_steady steady x.stage
  have same (x : Condition) : x.after false ⟨c, r⟩ = x := Condition.after_of_steady steady false x
  cases m with
  | none =>
    have next : (if c.steady then some none else none) = some (none : Option Condition) :=
      if_pos steady
    cases c <;> first | exact next | cases steady
  | some x =>
    have next : (if x.stage ∈ c.stages then some (some (x.after false ⟨c, r⟩)) else none) =
        some (some x) := by
      rw [if_pos (place x), same]
    cases c <;> first | exact next | cases steady

/-- What a request does with an event: only a `socket` that succeeds, and the calls on a socket
without users, tell it something. -/
inductive Conducts (q : Request) : Option Condition → Event os → Option Condition → Prop
  | steady {m e} : e.call.steady = true → Conducts q m e m
  | takes {m e} : q.user = true → q.takes e.call = true → Conducts q m e m
  | opens {m cloexec protocol r} : q.user = false →
      Conducts q m ⟨.socket cloexec protocol, r⟩ (if r.value = -1 then m else some .fresh)
  | moves {x e h} : q.user = false → e.call.steady = false → e.call.target = some h →
      x.stage ∈ e.call.stages → Conducts q (some x) e (some (x.after false e))

theorem Request.conducts {q : Request} {m m' : Option Condition} {e : Event os}
    (accepted : q.conduct m e = some m') : Conducts q m e m' := by
  cases steady : e.call.steady with
  | true =>
    have same : m = m' := by
      rw [conduct] at accepted
      split at accepted
      · exact (only_eq_some.mp accepted).2
      · exact Option.some.inj ((proceed_of_steady steady).symm.trans accepted)
    exact same ▸ .steady steady
  | false =>
    rw [conduct] at accepted
    split at accepted
    · next user =>
      obtain ⟨kind, rfl⟩ := only_eq_some.mp accepted
      rw [steady, Bool.false_or] at kind
      exact .takes user kind
    · next free =>
      have free := Bool.eq_false_iff.mpr free
      obtain ⟨c, r⟩ := e
      cases m with
      | none =>
        have stuck (read : (if c.steady then some none else none) = some m') :
            Conducts q none ⟨c, r⟩ m' := by
          cases steady.symm.trans (Option.ite_none_right_eq_some.mp read).1
        cases c <;> first
          | exact Option.some.inj accepted ▸ .opens free
          | exact stuck accepted
      | some x =>
        have moved {h : Handle} (on : c.target = some h)
            (read : (if x.stage ∈ c.stages then some (some (x.after false ⟨c, r⟩)) else none) =
              some m') : Conducts q (some x) ⟨c, r⟩ m' := by
          obtain ⟨place, same⟩ := Option.ite_none_right_eq_some.mp read
          cases same
          exact .moves free steady on place
        cases c <;> first
          | exact Option.some.inj accepted ▸ .opens free
          | exact moved rfl accepted
          | (cases steady; done)
          | cases accepted

/-- The socket that is returned fits its kind. -/
def Finds {α : Type} (k : Kind) (a : Except Exit α) (m : Option Condition) : Prop :=
  ∀ b, a = .ok b → ∃ x, m = some x ∧ k.fits x

/-- The socket that is returned is new. -/
def Opens (a : Except Exit Socket) (m : Option Condition) : Prop := ∀ s, a = .ok s → m = some .fresh

section Proceeds

variable {A : Event os → Prop} {m : Option Condition} {x : Condition} {α : Type} {k : Kind}
  {target : Target}

theorem proceeds_of_steady {p : Prog os α} (steady : Emits p fun e => e.call.steady = true) :
    Obeys A proceed m p fun _ n => n = m :=
  (steady.mono fun _ => proceed_of_steady).obeys

/-- A call that is in its place. -/
theorem proceeds_sys (c : Call) (place : x.stage ∈ c.stages)
    (read : ∀ r, proceed (some x) ⟨c, r⟩ =
      if x.stage ∈ c.stages then some (some (x.after false ⟨c, r⟩)) else none)
    {f : c.Reply → Sys α} {Q : Except Exit α → Option Condition → Prop}
    (rest : ∀ r, Obeys A proceed (some (x.after false ⟨c, r⟩)) (f r).run Q) :
    Obeys A proceed (some x) (sys c >>= f).run Q := by
  refine Obeys.lift_bind (R := fun r n => n = some (x.after false ⟨c, r⟩))
    (@obeys_perform os _ _ _ _ c _ fun r _ => ⟨_, (read r).trans (if_pos place), rfl⟩) ?_
  rintro r _ rfl
  exact rest r

theorem finds_error {e : Exit} : Finds k (.error e : Except Exit α) m := nofun

theorem proceeds_throw (e : Exit) : Obeys A proceed m (throw e : Sys α).run (Finds k) :=
  obeys_run_throw e finds_error

theorem opens_throw (e : Exit) : Obeys A proceed m (throw e : Sys Socket).run Opens :=
  obeys_run_throw e nofun

theorem proceeds_drop (fd : Handle) :
    Obeys A proceed m (Unix.FileDesc.drop ⟨fd⟩) fun _ n => n = m :=
  proceeds_of_steady ((emits_perform _ fun _ => rfl).bind fun _ => emits_pure _)

/-- A new socket, with what is still done to it. -/
theorem proceeds_socket (cloexec : Bool) (protocol : Int) {f : Ret → Sys α}
    {Q : Except Exit α → Option Condition → Prop}
    (ok : ∀ r fd, cvt r = .ok fd → Obeys A proceed (some .fresh) (f r).run Q)
    (error : ∀ r e, cvt r = .error e → Obeys A proceed m (f r).run Q) :
    Obeys A proceed m (sys (.socket cloexec protocol) >>= f).run Q := by
  refine Obeys.lift_bind (R := fun r n => n = if r.value = -1 then m else some .fresh)
    (@obeys_perform os _ _ _ _ (.socket cloexec protocol) _ fun r _ => ⟨_, rfl, rfl⟩) ?_
  rintro r _ rfl
  by_cases failed : r.value = -1
  · rw [if_pos failed]
    exact error r _ ((cvt_eq_error_iff r _).mpr ⟨failed, rfl⟩)
  · rw [if_neg failed]
    exact ok r _ ((cvt_eq_ok_iff r _).mpr ⟨failed, rfl⟩)

theorem Unix.Socket.proceeds_newFallback (protocol : BtProtocol) :
    Obeys A proceed m (Unix.Socket.newFallback target protocol).run Opens := by
  refine proceeds_socket false _ (fun r fd passed => ?_) fun r e failed => ?_
  swap
  · rw [failed]
    exact opens_throw (.err e)
  rw [passed]
  have works : Emits (FileDesc.setCloexec target ⟨fd⟩ >>= fun _ =>
      setNosigpipe target ⟨fd⟩ >>= fun _ => pure (⟨fd⟩ : IoBluetooth.Socket)).run
        fun e => e.call.steady = true := by
    refine Emits.run_bind ?_ fun _ => Emits.run_bind ?_ fun _ => emits_run_pure _
    · exact FileDesc.emits_cloexec target ⟨fd⟩ (fun _ => rfl) (fun _ => rfl) fun _ _ => rfl
    · unfold setNosigpipe
      split
      · exact emits_setsockopt _ _ _ _ fun _ => rfl
      · exact emits_run_pure _
  refine obeys_owning (proceeds_of_steady works) ?_ fun e n _ => (proceeds_drop fd).mono ?_
  · rintro s _ rfl _ _
    rfl
  · rintro _ _ _ _ ⟨⟩

theorem Unix.Socket.proceeds_new (protocol : BtProtocol) :
    Obeys A proceed m (Unix.Socket.new target protocol).run Opens := by
  unfold Unix.Socket.new
  split
  · refine proceeds_socket true _ (fun r fd passed => ?_) fun r e failed => ?_
    · rw [passed]
      exact obeys_run_pure _ fun _ _ => rfl
    · rw [failed]
      dsimp only
      split
      · exact proceeds_newFallback protocol
      · exact opens_throw (.err e)
  · exact proceeds_newFallback protocol

/-- A new socket that is worked with, and closed again where the work fails. -/
theorem proceeds_working {protocol : BtProtocol} {body : Socket → Sys α}
    (works : ∀ s, Obeys A proceed (some .fresh) (body s).run (Finds k)) :
    Obeys A proceed m (Socket.new (.unix target) protocol >>= fun s =>
      owning (s.drop (.unix target)) (body s)).run (Finds k) := by
  refine (Unix.Socket.proceeds_new protocol).run_bind ?_ fun _ _ _ => finds_error
  rintro s n opened
  cases opened s rfl
  refine obeys_owning (works s) (fun _ _ found => found) fun e n _ => ?_
  exact (proceeds_drop s.raw).mono fun _ _ _ => finds_error

/-- A call whose return value is only checked. -/
theorem proceeds_checked (c : Call) (place : x.stage ∈ c.stages)
    (read : ∀ r, proceed (some x) ⟨c, r⟩ =
      if x.stage ∈ c.stages then some (some (x.after false ⟨c, r⟩)) else none)
    (result : c.Reply → Except IoError Int) (x' : Condition)
    (leads : ∀ r n, result r = .ok n → x.after false ⟨c, r⟩ = x') {f : Sys α}
    (rest : Obeys A proceed (some x') f.run (Finds k)) :
    Obeys A proceed (some x) (sys c >>= fun r => check (result r) >>= fun _ => f).run
      (Finds k) := by
  refine proceeds_sys c place read fun r => ?_
  cases outcome : result r with
  | ok n =>
    rw [leads r n outcome]
    exact rest
  | error e => exact proceeds_throw (.err e)

theorem BtListener.proceeds_bind (addr : BtAddr) (protocol : BtProtocol) :
    Obeys A proceed m (BtListener.bind (.unix target) addr protocol).run (Finds .listener) := by
  refine proceeds_working fun s => ?_
  have reuses : Obeys A proceed (some .fresh)
      (BtListener.setReuseaddr (.unix target) s).run fun _ n => n = some .fresh := by
    refine proceeds_sys (.setsockopt s.raw .int .soReuseaddr (1 : Int)) List.mem_cons_self
      (fun _ => rfl) fun r => ?_
    exact proceeds_of_steady (Emits.run_bind (emits_check _) fun _ => emits_run_pure _)
  refine reuses.run_bind ?_ fun _ _ _ => finds_error
  rintro _ _ rfl
  refine proceeds_checked (.bind s.raw _ _) List.mem_cons_self (fun _ => rfl) cvt
    ⟨.bound, false, false⟩ ?_ ?_
  · exact fun r n passed => if_neg ((cvt_eq_ok_iff r n).mp passed).1
  refine proceeds_checked (.listen s.raw 128) List.mem_cons_self (fun _ => rfl) cvt
    ⟨.listening, false, false⟩ ?_ ?_
  · exact fun r n passed => if_neg ((cvt_eq_ok_iff r n).mp passed).1
  · exact obeys_run_pure _ fun _ _ => ⟨_, rfl, List.mem_cons_self, fun _ => rfl⟩

/-- What the attempts to connect come to; one that was interrupted goes on. -/
def Attempt (res : Except IoError Int) (m : Option Condition) : Prop :=
  match res with
  | .ok _ => m = some ⟨.joined, false, false⟩
  | .error e => e.unixKind = .interrupted → m = some ⟨.inProgress, false, false⟩

theorem Stage.connect_interrupted {r : Ret} {e : IoError} (failed : cvt r = .error e)
    (interrupted : e.unixKind = .interrupted) : Stage.connect r = .inProgress := by
  rw [connect, failed]
  cases e with
  | os code =>
    have signal : code = EINTR := by
      by_contra other
      rw [IoError.unixKind, if_neg other] at interrupted
      cases interrupted
    exact if_pos (Or.inl signal)
  | custom kind message =>
    obtain ⟨_, wrong⟩ := (cvt_eq_error_iff r _).mp failed
    cases wrong

theorem proceeds_attempts (fd : Handle) (addr : List UInt8) (len : Nat) :
    Obeys A proceed (some .fresh)
      ((Platform.unix target).cvtR (@Prog.perform os (.connect fd addr len))) Attempt := by
  refine Obeys.map _ (Unix.obeys_cvtR (Q := fun res _ n => Attempt res n) (fun _ m =>
    m = some .fresh ∨ m = some ⟨.inProgress, false, false⟩) ?_ ?_ () (Or.inl rfl))
  · -- a signal leaves the connection under way, and `cvt_r` makes the call on it again
    intro _ m fits
    have attempt (r : Ret) : Attempt (cvt r) (some ⟨.connect r, false, false⟩) := by
      cases outcome : cvt r with
      | ok n =>
        rw [Stage.connect, outcome]
        rfl
      | error e => exact fun interrupted => by rw [Stage.connect_interrupted outcome interrupted]
    refine Obeys.map _ (@obeys_perform os _ _ _ _ (.connect fd addr len) _ fun r _ => ?_)
    have step (x : Condition) (place : x.stage ∈ (Call.connect fd addr len).stages) :
        proceed (some x) ⟨.connect fd addr len, r⟩ = some (some { x with stage := .connect r }) :=
      if_pos place
    refine ⟨some ⟨.connect r, false, false⟩, ?_, attempt r⟩
    rcases fits with rfl | rfl
    · exact step _ List.mem_cons_self
    · exact step _ (List.mem_cons_of_mem _ List.mem_cons_self)
  · exact fun e _ n attempted interrupted => Or.inr (attempted interrupted)

theorem BtStream.proceeds_connect (addr : BtAddr) (protocol : BtProtocol) :
    Obeys A proceed m (BtStream.connect (.unix target) addr protocol).run (Finds .stream) := by
  refine proceeds_working fun s => ?_
  refine Obeys.lift_bind (proceeds_attempts s.raw _ _) fun res n attempted => ?_
  cases res with
  | ok _ =>
    cases attempted
    exact obeys_run_pure _ fun _ _ => ⟨_, rfl, List.mem_cons_self, fun _ => rfl⟩
  | error e => exact proceeds_throw (.err e)

/-- The wait goes on until `poll` reports something, and a hang-up is an error. -/
theorem Unix.Socket.proceeds_afterPoll (self : IoBluetooth.Socket) (reply : PollReply) :
    Obeys A proceed (some { x with stage := x.stage.poll reply })
      (Unix.Socket.afterPoll self reply).run fun a n => match a with
        | .ok (.inl ()) => n = some x
        | .ok (.inr ()) => n = some { x with stage := .reported }
        | .error _ => True := by
  unfold afterPoll
  by_cases failed : reply.ret.value = -1
  · have same : x.stage.poll reply = x.stage := if_pos (Or.inl failed)
    rw [if_pos failed, same]
    split
    · exact obeys_run_throw _ trivial
    · exact obeys_run_pure _ rfl
  · rw [if_neg failed]
    by_cases idle : reply.ret.value = 0
    · have same : x.stage.poll reply = x.stage := if_pos (Or.inr idle)
      rw [if_pos idle, same]
      exact obeys_run_pure _ rfl
    · rw [if_neg idle, Stage.poll, if_neg (not_or.mpr ⟨failed, idle⟩)]
      unfold connectReady
      by_cases hup : reply.revents &&& POLLHUP = 0
      · rw [if_pos hup, if_neg (not_not.mpr hup)]
        exact obeys_run_pure _ rfl
      · -- the error of the socket is taken, and the wait has failed whatever it is
        rw [if_pos hup]
        have took : Emits self.takeError.run fun e => e.call.steady = true :=
          emits_takeError self fun _ => rfl
        refine Obeys.run_bind (R := fun a n => ∃ e, a = .error e) ?_ ?_ ?_
        · refine (proceeds_of_steady took).run_bind (fun _ _ _ => ?_) fun _ _ _ => ⟨_, rfl⟩
          exact obeys_run_throw _ ⟨_, rfl⟩
        · rintro _ _ ⟨_, ⟨⟩⟩
        · exact fun _ _ _ => trivial

theorem Unix.Socket.proceeds_connectWait (self : IoBluetooth.Socket) (timeout : Duration)
    (going : x.stage = .inProgress) :
    Obeys A proceed (some x) (Unix.Socket.connectWait self timeout).run fun a n =>
      a = .ok () → n = some { x with stage := .reported } := by
  have reads {α : Type} (c : Call) (steady : c.steady = true) {f : c.Reply → Sys α}
      {Q : Except Exit α → Option Condition → Prop}
      (rest : ∀ r, Obeys A proceed (some x) (f r).run Q) :
      Obeys A proceed (some x) (sys c >>= f).run Q := by
    refine Obeys.lift_bind (@obeys_perform os _ _ _ _ c (fun _ n => n = some x) fun r _ =>
      ⟨_, proceed_of_steady steady, rfl⟩) ?_
    rintro r _ rfl
    exact rest r
  unfold connectWait
  split
  · exact obeys_run_throw _ nofun
  · refine reads .instantNow rfl fun _ => ?_
    refine obeys_repeating (fun _ m => m = some x) ?_ () rfl
    rintro _ _ rfl
    refine reads .elapsed rfl fun elapsed => ?_
    split
    · exact obeys_run_throw _ nofun
    · split
      · exact obeys_run_throw _ nofun
      · refine proceeds_sys (.poll self.raw POLLOUT _) (going ▸ List.mem_cons_self) (fun _ => rfl)
          fun reply => ?_
        refine (proceeds_afterPoll self reply).mono ?_
        rintro (_ | _ | _) n left
        · exact nofun
        · exact left
        · exact fun _ => left

theorem Unix.Socket.proceeds_setNonblocking (self : IoBluetooth.Socket) (nonblocking : Bool)
    (stage : Stage) (before : Bool) :
    Obeys A proceed (some ⟨stage, before, false⟩)
      (Unix.Socket.setNonblocking self nonblocking).run fun a n =>
        a = .ok () → n = some ⟨stage, nonblocking, false⟩ := by
  refine proceeds_sys (.ioctlFionbio self.raw _) stage.mem_all (fun _ => rfl) fun r => ?_
  cases outcome : cvt r with
  | error e => exact obeys_run_throw (Exit.err e) nofun
  | ok n =>
    refine obeys_run_pure _ fun _ => congrArg some ?_
    refine (if_neg ((cvt_eq_ok_iff r n).mp outcome).1).trans ?_
    cases nonblocking <;> rfl

theorem Unix.Socket.proceeds_connectTimeout (self : IoBluetooth.Socket) (pad : UInt8)
    (addr : BtAddr) (timeout : Duration) :
    Obeys A proceed (some .fresh) (Unix.Socket.connectTimeout self pad addr timeout).run
      (Finds .timed) := by
  refine (proceeds_setNonblocking self true .unbound false).run_bind ?_ fun _ _ _ => finds_error
  rintro _ _ switched
  cases switched rfl
  refine proceeds_sys (.connect self.raw _ _) List.mem_cons_self (fun _ => rfl) fun r => ?_
  -- the mode is switched back before the outcome is looked at
  refine (proceeds_setNonblocking self false (.connect r) true).run_bind ?_ fun _ _ _ =>
    finds_error
  rintro _ _ back
  cases back rfl
  have timed {stage : Stage} (same : Stage.connect r = stage) (fits : stage ∈ Kind.timed.stages) :
      Kind.timed.fits ⟨.connect r, false, false⟩ := ⟨same ▸ fits, fun _ => rfl⟩
  cases outcome : cvt r with
  | ok n =>
    have same : Stage.connect r = .joined := by rw [Stage.connect, outcome]
    exact obeys_run_pure _ fun _ _ => ⟨_, rfl, timed same (List.mem_cons_of_mem _ List.mem_cons_self)⟩
  | error e =>
    dsimp only
    by_cases progress : e.rawOsError = some EINPROGRESS
    · rw [if_pos progress]
      rw [IoError.rawOsError_eq_some] at progress
      have same : Stage.connect r = .inProgress := by
        rw [Stage.connect, outcome, progress]
        rfl
      refine (proceeds_connectWait self timeout same).mono ?_
      intro a n waited b passed
      exact ⟨_, waited passed, List.mem_cons_self, fun _ => rfl⟩
    · rw [if_neg progress]
      exact proceeds_throw (.err e)

theorem BtStream.proceeds_connectTimeout (pad : UInt8) (addr : BtAddr) (protocol : BtProtocol)
    (timeout : Duration) :
    Obeys A proceed m
      (BtStream.connectTimeout (.unix target) pad addr protocol timeout).run (Finds .timed) := by
  refine proceeds_working fun s => ?_
  refine (Unix.Socket.proceeds_connectTimeout s pad addr timeout).run_bind ?_ fun _ _ _ =>
    finds_error
  rintro _ n found
  exact obeys_run_pure _ fun _ _ => found () rfl

end Proceeds

/-! ### What a request does to a socket that has users -/

section Users

variable {A : Event os → Prop} {target : Target}

theorem Call.steady_of_copies {h : Handle} {c : Call} (copies : c.copies h = true) :
    c.steady = true := by
  cases c <;> first | rfl | cases copies

/-- A call on the socket with users. -/
abbrev Kind.conducts (k : Kind) (h : Handle) (c : Call) : Bool :=
  c.steady || (c.target == some h && k.takes c)

theorem Kind.conducts_of_carries {h : Handle} {c : Call} (carries : c.carries h = true) :
    Kind.stream.conducts h c = true := by
  cases c with
  | recv s | recvfrom s | send s | sendto s | shutdown s =>
    cases eq_of_beq carries
    simp [conducts, Call.target, takes]
  | _ => cases carries

theorem Kind.conducts_of_spares {h : Handle} {c : Call} (spares : c.spares h = true) :
    Kind.stream.conducts h c = true := by
  cases c with
  | getpeername s | ioctlFionbio s =>
    cases eq_of_beq spares
    simp [conducts, Call.target, takes]
  | _ => first | rfl | cases spares

theorem StreamFn.emits_conducted (self : BtStream) (f : StreamFn) :
    Emits (f.program (.unix target) self).run fun e =>
      Kind.stream.conducts self.inner.raw e.call = true := by
  have sets (dur : Option Duration) {opt : SockOpt} (other : opt ≠ .soReuseaddr) :
      Emits (self.inner.setTimeout (.unix target) dur opt).run fun e =>
        Kind.stream.conducts self.inner.raw e.call = true := by
    refine (self.inner.brief_setTimeout dur opt fun T payload => ?_).emits
    rw [Kind.conducts, Call.steady, bne_iff_ne.mpr other]
    rfl
  cases bytes : f.carries with
  | true => exact (f.brief_carries self bytes).emits.mono fun _ on => Kind.conducts_of_carries on
  | false =>
    cases f with
    | setReadTimeout dur | setWriteTimeout dur => exact sets dur nofun
    | _ =>
      exact (StreamFn.brief_spares self _ bytes rfl).emits.mono fun _ on =>
        Kind.conducts_of_spares on

theorem ListenerFn.emits_conducted (self : BtListener) (f : ListenerFn) :
    Emits (f.program (.unix target) self).run fun e =>
      Kind.listener.conducts self.inner.raw e.call = true := by
  cases f with
  | setNonblocking nonblocking =>
    refine Emits.run_bind (emits_sys _ fun _ => ?_) fun _ =>
      Emits.run_bind (emits_check _) fun _ => emits_run_pure _
    simp [Kind.conducts, Call.target, Kind.takes]
  | localAddr =>
    refine Emits.run_bind ?_ fun _ => emits_run_pure _
    exact Emits.run_bind (emits_sys _ fun _ => rfl) fun _ =>
      Emits.run_bind (emits_check _) fun _ => emits_run_pure _
  | takeError =>
    exact Emits.run_bind (emits_takeError self.inner fun _ => rfl) fun _ => emits_run_pure _

theorem Call.steady_of_closes {c : Call} (closes : c.closes = true) : c.steady = true := by
  cases c <;> first | rfl | cases closes

theorem Request.emits_conducted (q : Request) (user : q.user = true) :
    Emits (q.program (.unix target)).run fun e => (e.call.steady || q.takes e.call) = true := by
  cases q with
  | make op =>
    cases op with
    | accept self =>
      refine Emits.run_bind ?_ fun _ => emits_run_pure _
      refine Emits.run_bind ((Unix.Socket.emits_accept self).mono ?_) fun _ => emits_run_pure _
      rintro ⟨c, r⟩ accepts
      cases c with
      | accept s len | accept4 s len =>
        cases eq_of_beq accepts
        simp [takes, Call.target, Kind.takes]
      | _ => first | rfl | cases accepts
    | duplicate self =>
      refine Emits.run_bind ?_ fun _ => emits_run_pure _
      refine Emits.run_bind ((Unix.FileDesc.copies_duplicate ⟨self.raw⟩).mono ?_) fun _ =>
        emits_run_pure _
      intro e copies
      rw [Call.steady_of_copies copies]
      rfl
    | _ => cases user
  | stream self f => exact Emits.run_bind (f.emits_conducted self) fun _ => emits_run_pure _
  | listener self f => exact Emits.run_bind (f.emits_conducted self) fun _ => emits_run_pure _
  | _ => cases user

/-! ### Requests -/

/-- The socket that a request without users returns fits its kind. -/
theorem finds_some {α : Type} {m : Option Condition} {k : Kind} {p : Sys α} (socket : α → Socket)
    (found : Obeys A proceed m p.run (Finds k)) :
    Obeys A proceed m (do let a ← p; pure (some (socket a)) : Sys (Option Socket)).run fun a n =>
      ∀ s, a = .ok (some s) → ∃ x, n = some x ∧ k.fits x := by
  refine found.run_bind (fun a n holds => ?_) (fun e n _ => nofun)
  exact obeys_run_pure _ fun _ _ => holds a rfl

theorem finds_bind_pure {α β : Type} {m : Option Condition} {k : Kind} {p : Sys α}
    (found : Obeys A proceed m p.run (Finds k)) (f : α → β) :
    Obeys A proceed m (p >>= fun a => pure (f a)).run (Finds k) := by
  refine found.run_bind (fun a n holds => ?_) (fun e n _ => finds_error)
  exact obeys_run_pure _ fun _ _ => holds a rfl

theorem finds_eachAddr {T : Type} {m : Option Condition} {k : Kind} {f : BtAddr → Sys T}
    (found : ∀ addr m, Obeys A proceed m (f addr).run (Finds k)) :
    Obeys A proceed m (Bt.eachAddr (Bt.attempt f) ()).run (Finds k) :=
  obeys_eachAddr (fun _ => True) (fun _ _ _ => proceed_of_steady rfl) (fun addr m _ => found addr m)
    (fun _ _ _ => trivial) (fun _ _ _ => finds_error) trivial

theorem Request.obeys_conduct (q : Request) (kind : Socket → Kind) :
    Obeys A q.conduct none (q.program (.unix target)).run fun a m => q.user = false →
      ∀ s, a = .ok (some s) → ∃ x, m = some x ∧ (q.kind kind).fits x := by
  rw [conduct]
  split
  · next user =>
    refine ((q.emits_conducted user).only _).mono fun _ _ _ free => ?_
    cases user.symm.trans free
  · next free =>
    refine Obeys.mono ?_ fun _ _ found _ => found
    cases q with
    | make op =>
      refine finds_some id ?_
      cases op with
      | new protocol =>
        refine (Unix.Socket.proceeds_new protocol).mono fun a m opened s same => ?_
        exact ⟨_, opened s same, List.mem_cons_self, fun _ => rfl⟩
      | bind addr protocol => exact finds_bind_pure (BtListener.proceeds_bind addr protocol) _
      | connect addr protocol => exact finds_bind_pure (BtStream.proceeds_connect addr protocol) _
      | connectTimeout pad addr protocol timeout =>
        exact finds_bind_pure (BtStream.proceeds_connectTimeout pad addr protocol timeout) _
      | _ => exact absurd rfl free
    | bind protocol =>
      refine finds_some (fun l : Bt.BtListener => l.imp.inner) ?_
      rw [Bt.BtListener.bind, ← bind_pure_comp]
      exact finds_bind_pure (finds_eachAddr fun addr m => BtListener.proceeds_bind addr protocol) _
    | connect protocol =>
      refine finds_some (fun l : Bt.BtStream => l.imp.inner) ?_
      rw [Bt.BtStream.connect, ← bind_pure_comp]
      exact finds_bind_pure (finds_eachAddr fun addr m => BtStream.proceeds_connect addr protocol) _
    | drop self =>
      refine (proceeds_drop self.raw).lift_bind fun _ _ _ => obeys_run_pure _ ?_
      rintro _ ⟨⟩
    | _ => exact absurd rfl free

end Users

end IoBluetooth
