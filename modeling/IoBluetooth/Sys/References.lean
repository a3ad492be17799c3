import IoBluetooth.Interaction.Atomic
import IoBluetooth.Interaction.References
import IoBluetooth.Sys.TryCloexec

/-!
# What sockets refer to

On Unix a descriptor refers to an open socket of the system, which a duplicate of it shares. Which
calls each request may make to come by a descriptor, and what the threads keep between them.
-/
namespace IoBluetooth

open Interaction

/-- The descriptor that a call makes a duplicate of. -/
def Call.source : Call → Option Handle
  | .fcntlDupfd fd | .fcntlDupfdCloexec fd => some fd
  | _ => none

/-- The calls that make a descriptor. -/
def Call.acquires : Call → Bool
  | .socket .. | .accept .. | .accept4 .. | .fcntlDupfd _ | .fcntlDupfdCloexec _
  | .wsaSocketW _ => true
  | _ => false

theorem Kernel.acquires_of_effect {K : Kernel} {P : Platform} {e : Event os} {h : Handle} {g : Bool}
    (acquires : K.effect P e = .acquire h g) : e.call.acquires = true := by
  obtain ⟨c, r⟩ := e
  cases c with
  | fcntlGetfd | fcntlSetfd | ioctlFioclex | setHandleInformation =>
    simp only [Kernel.effect, Platform.effect] at acquires
    repeat' split at acquires
    all_goals cases acquires
  | _ => first | rfl | cases acquires

/-- The calls that `duplicate` makes. -/
def Call.copies (h : Handle) : Call → Bool
  | .fcntlDupfd fd | .fcntlDupfdCloexec fd => fd == h
  | .tryCloexecLoad | .tryCloexecStore _ | .fcntlGetfd _ | .fcntlSetfd .. | .ioctlFioclex _
  | .close _ => true
  | _ => false

def Call.closes : Call → Bool
  | .close _ => true
  | _ => false

/-- How a request comes by the descriptor of its own. -/
def Request.origin : Request → Origin Handle
  | make (.duplicate self) => .copied self.raw
  | drop _ => .given
  | _ => .made

/-- The calls that a request may make, according to how it comes by its descriptor. -/
def Request.admits (q : Request) (c : Call) : Bool :=
  match q.origin with
  | .made => !c.flags
  | .copied s => c.copies s
  | .given => c.closes

section Functions

variable {target : Target}

namespace Unix

theorem FileDesc.copies_makeFiledesc (h fd : Handle) :
    Emits (FileDesc.makeFiledesc target fd).run fun e => e.call.copies h = true := by
  refine emits_owning ?_ ((emits_perform _ fun _ => rfl).bind fun _ => emits_pure _)
  refine Emits.run_bind ?_ fun _ => emits_run_pure _
  exact FileDesc.emits_cloexec target ⟨fd⟩ (fun _ => rfl) (fun _ => rfl) fun _ _ => rfl

theorem FileDesc.copies_duplicateFallback (self : FileDesc) :
    Emits (FileDesc.duplicateFallback target self).run fun e => e.call.copies self.fd = true := by
  refine Emits.run_bind (emits_sys _ fun _ => beq_self_eq_true self.fd) fun r => ?_
  exact Emits.run_bind (emits_check _) fun fd => FileDesc.copies_makeFiledesc self.fd fd

theorem FileDesc.copies_duplicate (self : FileDesc) :
    Emits (FileDesc.duplicate target self).run fun e => e.call.copies self.fd = true := by
  refine Emits.run_bind (emits_sys _ fun _ => rfl) fun value => ?_
  have attempt : Emits (FileDesc.fcntlDupfdCloexec target self.fd).run fun e =>
      e.call.copies self.fd = true := by
    unfold FileDesc.fcntlDupfdCloexec
    split
    · exact emits_sys _ fun _ => beq_self_eq_true self.fd
    · exact emits_sys _ fun _ => beq_self_eq_true self.fd
  split
  · refine Emits.run_bind attempt fun r => ?_
    split
    · split
      · exact FileDesc.copies_makeFiledesc _ _
      · exact emits_run_pure _
    · split
      · exact Emits.run_bind (emits_sys _ fun _ => rfl) fun _ =>
          FileDesc.copies_duplicateFallback self
      · exact emits_run_throw _
  · exact FileDesc.copies_duplicateFallback self

end Unix

/-- A request keeps to the calls that are its own. -/
theorem Request.emits_admitted (q : Request) :
    Emits (q.program (.unix target)).run fun e => q.admits e.call = true := by
  by_cases duplicates : ∃ self, q = .make (.duplicate self)
  · obtain ⟨self, rfl⟩ := duplicates
    refine Emits.run_bind ?_ fun _ => emits_run_pure _
    exact Emits.run_bind (Unix.FileDesc.copies_duplicate ⟨self.raw⟩) fun _ => emits_run_pure _
  · cases origin : q.origin with
    | made =>
      refine (q.inert fun self same => duplicates ⟨self, same⟩).mono fun e inert => ?_
      rw [Request.admits, origin]
      exact Bool.not_eq_true' _ ▸ inert
    | copied s =>
      cases q with
      | make op =>
        cases op with
        | duplicate self => exact absurd ⟨self, rfl⟩ duplicates
        | _ => cases origin
      | _ => cases origin
    | given =>
      cases q with
      | drop self =>
        exact Emits.run_bind (emits_lift ((emits_perform _ fun _ => rfl).bind fun _ =>
          emits_pure _)) fun _ => emits_run_pure _
      | make op => cases op <;> cases origin
      | _ => cases origin

/-- What a call acquires comes as the request is to come by its descriptor. -/
theorem Request.comes {K : Kernel} {q : Request} {e : Event os} {h : Handle} {g : Bool}
    (acquires : K.effect (.unix target) e = .acquire h g) (admits : q.admits e.call = true) :
    e.call.source = none ∧ q.origin = .made ∨
      ∃ s, e.call.source = some s ∧ q.origin = .copied s := by
  obtain ⟨c, r⟩ := e
  rw [Request.admits] at admits
  cases origin : q.origin with
  | made =>
    rw [origin] at admits
    refine Or.inl ⟨?_, rfl⟩
    cases c <;> first | rfl | cases admits
  | copied s =>
    rw [origin] at admits
    refine Or.inr ⟨s, ?_, rfl⟩
    have makes := Kernel.acquires_of_effect acquires
    cases c with
    | fcntlDupfd fd | fcntlDupfdCloexec fd => exact congrArg some (eq_of_beq admits)
    | _ => first | (cases makes; done) | cases admits
  | given =>
    rw [origin] at admits
    cases c <;> first | cases acquires | cases admits

end Functions

/-! ### The crate and the table -/

variable {ι : Type}

/-- The crate on Unix, used by any number of threads, with what the descriptors refer to. -/
def referring [DecidableEq ι] (target : Target) (K : Kernel) :
    System ι Request os (Except Exit (Option Socket)) (Shared ι × Table Handle) where
  program q := (q.program (.unix target)).run
  begins running s q s' := (crate (.unix target) K).begins running s.1 q s'.1 ∧ s'.2 = s.2
  calls i q s e s' := (crate (.unix target) K).calls i q s.1 e s'.1 ∧
    s'.2 = s.2.after e.call.source (K.effect (.unix target) e)
  returns q a s s' := (crate (.unix target) K : System ι _ _ _ _).returns q a s.1 s'.1 ∧ s'.2 = s.2

/-- What the sockets that are alive refer to, as their users see it: a duplicate refers to what the
original does, every other new socket to something that no socket refers to yet. -/
inductive Refers : Object Request (Except Exit (Option Socket)) (Socket → Option Nat)
  | shares {self s n σ} : σ self = some n → σ s = none →
      Refers (.make (.duplicate self)) σ (.ok (some s)) (Function.update σ s (some n))
  | opens {q s n σ} : q.origin = .made → σ s = none → (∀ s', σ s' ≠ some n) →
      Refers q σ (.ok (some s)) (Function.update σ s (some n))
  | drops {self n σ} : σ self = some n →
      Refers (.drop self) σ (.ok none) (Function.update σ self none)
  | other {q a σ} : q.moves = none → (∀ s, a ≠ .ok (some s)) → Refers q σ a σ

/-! ### What is kept -/

/-- A request that drops a socket takes effect as it begins. -/
def Request.settled (q : Request) : Option (Except Exit (Option Socket)) :=
  q.moves.map fun _ => .ok none

/-- The descriptor of a request's own, and its result if it has taken effect. -/
abbrev Standing := Own Handle × Option (Except Exit (Option Socket))

def Request.entry (q : Request) : Standing :=
  (q.moves.map fun socket => (socket.raw, false), q.settled)

def ownOf (x : Option (Request × Standing)) : Own Handle := x.bind fun x => x.2.1

def originOf (x : Option (Request × Standing)) : Origin Handle :=
  (x.map fun x => x.1.origin).getD .given

structure Referring (target : Target) (s : Shared ι × Table Handle) (v : View ι Request Standing)
    (σ : Socket → Option Nat) : Prop where
  sound : s.1.Sound (.unix target) (ownOf ∘ v) v.running
  tells : s.2.Tells s.1.ledger (ownOf ∘ v) (originOf ∘ v)
  refers : ∀ sock, σ sock = if sock ∈ s.1.live then s.2.refers sock.raw else none
  settled : ∀ i q m, v i = some (q, m) → m.2 = q.settled

namespace Referring

variable {target : Target} {K : Kernel} {s s' : Shared ι × Table Handle}
  {v : View ι Request Standing} {σ : Socket → Option Nat} {i : ι} {q : Request}

/-- What is duplicated is alive. -/
theorem sources (kept : Referring target s v σ) (j : ι) (h : Handle)
    (copies : (originOf ∘ v) j = .copied h) : h ∈ s.1.live.map Socket.raw := by
  cases job : v j with
  | none =>
    simp only [Function.comp_apply, job] at copies
    cases copies
  | some x =>
    obtain ⟨q, m⟩ := x
    simp only [Function.comp_apply, job] at copies
    have borrows := kept.sound.borrows j q (by rw [View.running, job, Option.map_some])
    cases q with
    | make op =>
      cases op with
      | duplicate self =>
        cases copies
        exact List.mem_map_of_mem (borrows List.mem_cons_self)
      | _ => cases copies
    | _ => cases copies

/-- Every socket that is alive refers to something. -/
theorem alive (kept : Referring target s v σ) {sock : Socket} (live : sock ∈ s.1.live) :
    ∃ n, s.2.refers sock.raw = some n ∧ σ sock = some n := by
  have held := (kept.tells.held sock.raw).mp
    ((kept.sound.apart.held_iff _).mpr (Or.inl (List.mem_map_of_mem live)))
  obtain ⟨n, refers⟩ := Option.isSome_iff_exists.mp held
  exact ⟨n, refers, by rw [kept.refers, if_pos live, refers]⟩

theorem start (target : Target) :
    Referring target ((Shared.start (.unix target) : Shared ι), Table.empty) (fun _ => none)
      fun _ => none where
  sound := Shared.Sound.start (.unix target)
  tells := Table.Tells.start _
  refers sock := (if_neg List.not_mem_nil).symm
  settled := by
    rintro i q m ⟨⟩

theorem drop_of_moves {self : Socket} (moved : q.moves = some self) : q = .drop self := by
  cases q with
  | drop =>
    cases moved
    rfl
  | _ => cases moved

theorem duplicate_of_origin {h : Handle} (copies : q.origin = .copied h) :
    ∃ self, q = .make (.duplicate self) ∧ self.raw = h := by
  cases q with
  | make op =>
    cases op with
    | duplicate self =>
      cases copies
      exact ⟨self, rfl, rfl⟩
    | _ => cases copies
  | _ => cases copies

/-- A socket that is handed over refers to what it should. -/
theorem hands (kept : Referring target s v σ) {m : Standing} (busy : v i = some (q, m))
    {socket : Socket} {g : Bool} (mine : m.1 = some (socket.raw, g)) (unmoved : q.moves = none) :
    ∃ n, s.2.refers socket.raw = some n ∧
      Refers q σ (.ok (some socket)) (Function.update σ socket (some n)) := by
  have owns : (ownOf ∘ v) i = m.1 := congrArg ownOf busy
  have origin : (originOf ∘ v) i = q.origin := congrArg originOf busy
  have here : socket.raw ∈ ((ownOf ∘ v) i).map Prod.fst := by
    rw [owns, mine]
    rfl
  have away := kept.sound.apart.notMem i _ here
  have held := (kept.tells.held socket.raw).mp
    ((kept.sound.apart.held_iff _).mpr (Or.inr ⟨i, here⟩))
  obtain ⟨n, refers⟩ := Option.isSome_iff_exists.mp held
  have new : σ socket = none := by
    rw [kept.refers, if_neg fun alive => away (List.mem_map_of_mem alive)]
  refine ⟨n, refers, ?_⟩
  cases comes : q.origin with
  | made =>
    refine .opens comes new fun s' same => ?_
    rw [kept.refers] at same
    split at same
    · next alive =>
      -- nothing that is alive refers to what the request has made
      have alone := kept.tells.alone i _ here (origin.trans comes) s'.raw (same.trans refers.symm)
      exact away (alone ▸ List.mem_map_of_mem alive)
    · cases same
  | copied h =>
    obtain ⟨self, rfl, rfl⟩ := duplicate_of_origin comes
    have copied := kept.tells.copied i _ here self.raw (origin.trans comes)
    have borrowed : self ∈ s.1.live :=
      kept.sound.borrows i _ (by rw [View.running, busy, Option.map_some]) List.mem_cons_self
    refine .shares ?_ new
    rw [kept.refers, if_pos borrowed, ← copied, refers]
  | given =>
    cases q with
    | drop => cases unmoved
    | make op => cases op <;> cases comes
    | _ => cases comes

variable [DecidableEq ι]

theorem running_update (v : View ι Request Standing) (i : ι) (x : Option (Request × Standing)) :
    View.running (Function.update v i x) = Function.update v.running i (x.map Prod.fst) :=
  Function.comp_update (Option.map Prod.fst) v i x

/-- The state after a step of one thread. -/
theorem next (kept : Referring target s v σ) {x : Option (Request × Standing)}
    {σ' : Socket → Option Nat}
    (sound : s'.1.Sound (.unix target) (Function.update (ownOf ∘ v) i (ownOf x))
      (Function.update v.running i (x.map Prod.fst)))
    (tells : s'.2.Tells s'.1.ledger (Function.update (ownOf ∘ v) i (ownOf x))
      (Function.update (originOf ∘ v) i (originOf x)))
    (refers : ∀ sock, σ' sock = if sock ∈ s'.1.live then s'.2.refers sock.raw else none)
    (settled : ∀ q m, x = some (q, m) → m.2 = q.settled) :
    Referring target s' (Function.update v i x) σ' where
  sound := by
    rw [Function.comp_update, running_update]
    exact sound
  tells := by
    rw [Function.comp_update, Function.comp_update]
    exact tells
  refers := refers
  settled j q m job := by
    by_cases same : j = i
    · subst same
      exact settled q m ((Function.update_self j _ v).symm.trans job)
    · exact kept.settled j q m ((Function.update_of_ne same _ v).symm.trans job)

/-- A request that is begun, and drops a socket, takes effect at once. -/
theorem begins (kept : Referring target s v σ) (idle : v i = none)
    (admitted : (referring target K).begins v.running s q s') :
    (q.settled = none ∧ Referring target s' (Function.update v i (some (q, q.entry))) σ) ∨
      ∃ a σ', q.settled = some a ∧ Refers q σ a σ' ∧
        Referring target s' (Function.update v i (some (q, q.entry))) σ' := by
  obtain ⟨admitted, table⟩ := admitted
  have sound := kept.sound.begins (by rw [View.running, idle, Option.map_none]) admitted
  have tells : s'.2.Tells s'.1.ledger
      (Function.update (ownOf ∘ v) i (q.moves.map fun socket => (socket.raw, false)))
      (Function.update (originOf ∘ v) i q.origin) := by
    rw [table, (same_of_begins admitted).1]
    refine kept.tells.renew i _ _ fun h given => ?_
    cases q with
    | drop => rfl
    | _ => cases given
  have settled : ∀ q' m, some (q, q.entry) = some (q', m) → m.2 = q'.settled := by
    rintro _ _ ⟨⟩
    rfl
  obtain ⟨_, admitted⟩ := admitted
  cases moved : q.moves with
  | none =>
    rw [moved] at admitted
    refine Or.inl ⟨by rw [Request.settled, moved, Option.map_none], ?_⟩
    refine kept.next sound tells (fun sock => ?_) settled
    rw [admitted, table, kept.refers]
  | some self =>
    rw [moved] at admitted
    obtain ⟨member, _, live⟩ := admitted
    obtain ⟨n, _, refers⟩ := kept.alive member
    have drops : q = .drop self := by
      cases q with
      | drop => cases moved; rfl
      | _ => cases moved
    refine Or.inr ⟨.ok none, Function.update σ self none, by rw [Request.settled, moved]; rfl,
      drops ▸ .drops refers, kept.next sound tells (fun sock => ?_) settled⟩
    rw [live, table]
    have once : s.1.live.Nodup := kept.sound.apart.nodup.of_map _
    by_cases same : sock = self
    · subst same
      rw [Function.update_self, if_neg once.not_mem_erase]
    · rw [Function.update_of_ne same, kept.refers]
      simp only [List.mem_erase_of_ne same]

/-- A call takes effect on nothing that the users of a socket see. -/
theorem calls (kept : Referring target s v σ) {m n : Standing} (busy : v i = some (q, m))
    {e : Event os} (replied : (referring target K).calls i q s e s')
    (accepted : ((K.custody (.unix target) false (q.borrows.map Socket.raw)).both
      (only q.admits)) m e = some n) :
    n.2 = m.2 ∧ Referring target s' (Function.update v i (some (q, n))) σ := by
  obtain ⟨replied, table⟩ := replied
  obtain ⟨mine, admitted⟩ := (Monitor.both_eq_some _ _ _ _ _).mp accepted
  obtain ⟨admits, same⟩ := only_eq_some.mp admitted
  have running : v.running i = some q := by rw [View.running, busy, Option.map_some]
  have owns : (ownOf ∘ v) i = m.1 := congrArg ownOf busy
  have origin : (originOf ∘ v) i = q.origin := congrArg originOf busy
  have sound := kept.sound.calls running replied (owns ▸ mine)
  obtain ⟨_, moved⟩ := (custody_eq_some _ _).mp (owns ▸ mine)
  obtain ⟨_, ⟨fresh, ledger⟩, live, _⟩ := replied
  have tells : s'.2.Tells s'.1.ledger (Function.update (ownOf ∘ v) i n.1) (originOf ∘ v) := by
    rw [table, ledger]
    refine kept.tells.moves kept.sound.apart kept.sources moved fresh fun h g acquires => ?_
    rw [origin]
    exact q.comes acquires admits
  refine ⟨same ▸ rfl, kept.next ?_ ?_ (fun sock => ?_) ?_⟩
  · rw [Option.map_some, ← running, Function.update_eq_self]
    exact sound
  · have unmoved : originOf (some (q, n)) = (originOf ∘ v) i := origin.symm
    rw [unmoved, Function.update_eq_self]
    exact tells
  · rw [live, kept.refers, table]
    split
    · next alive =>
      exact (Table.Tells.after_live s.2 kept.sound.apart moved fresh _
        (List.mem_map_of_mem alive)).symm
    · rfl
  · rintro _ _ ⟨⟩
    rw [← same]
    exact kept.settled i q m busy

/-- A request that returns a socket takes effect as it returns it. -/
theorem returns (kept : Referring target s v σ) {m : Standing} (busy : v i = some (q, m))
    {a : Except Exit (Option Socket)} (left : Leaves (Platform.Covered (.unix target)) a m.1)
    (dropped : ∀ self, q = .drop self → a = .ok none)
    (ended : (referring target K).returns q a s s') :
    (m.2 = some a ∧ Referring target s' (Function.update v i none) σ) ∨
      (m.2 = none ∧ ∃ σ', Refers q σ a σ' ∧ Referring target s' (Function.update v i none) σ') := by
  obtain ⟨ended, table⟩ := ended
  have owns : (ownOf ∘ v) i = m.1 := congrArg ownOf busy
  have settled := kept.settled i q m busy
  have sound := kept.sound.returns (owns ▸ left) ended
  have tells : s'.2.Tells s'.1.ledger (Function.update (ownOf ∘ v) i none)
      (Function.update (originOf ∘ v) i .given) := by
    rw [table, (same_of_returns ended).1]
    exact kept.tells.renew i none .given nofun
  have next (σ' : Socket → Option Nat)
      (refers : ∀ sock, σ' sock = if sock ∈ s'.1.live then s'.2.refers sock.raw else none) :
      Referring target s' (Function.update v i none) σ' :=
    kept.next sound tells refers (by rintro _ _ ⟨⟩)
  have same (unchanged : s'.1 = s.1) : Referring target s' (Function.update v i none) σ :=
    next σ fun sock => by rw [unchanged, table, kept.refers]
  cases moved : q.moves with
  | some self =>
    -- a socket was dropped, which took effect before
    cases dropped self (drop_of_moves moved)
    exact Or.inl ⟨by rw [settled, Request.settled, moved]; rfl, same ended⟩
  | none =>
    refine Or.inr ⟨by rw [settled, Request.settled, moved, Option.map_none], ?_⟩
    match a with
    | .ok (some socket) =>
      obtain ⟨g, mine, _⟩ := left
      obtain ⟨n, refers, effect⟩ := kept.hands busy mine moved
      refine ⟨_, effect, next _ fun sock => ?_⟩
      rw [ended, table]
      by_cases this : sock = socket
      · subst this
        rw [Function.update_self, if_pos List.mem_cons_self, refers]
      · rw [Function.update_of_ne this, kept.refers]
        simp only [List.mem_cons, this, false_or]
    | .ok .none => exact ⟨σ, .other moved nofun, same ended⟩
    | .error e => exact ⟨σ, .other moved nofun, same ended⟩

end Referring

theorem Request.returns_of_drop {target : Target} {self : Socket} {t : Trace os}
    {a : Except Exit (Option Socket)}
    (run : Runs ((Request.drop self).program (.unix target)).run t a) : a = .ok none := by
  rcases (runs_run_bind _ _ _ _).mp run with ⟨x, failed, _⟩ | ⟨_, _, _, _, _, _, rfl⟩
  · obtain ⟨_, _, wrong⟩ := (runs_run_lift _ _ _).mp failed
    cases wrong
  · rfl

theorem referring_simulates [DecidableEq ι] (target : Target) (K : Kernel) :
    (referring target K : System ι _ _ _ _).Simulates (fun _ => True)
      (fun q => (K.custody (.unix target) false (q.borrows.map Socket.raw)).both (only q.admits))
      Request.entry
      (fun q a m => Leaves (Platform.Covered (.unix target)) a m.1 ∧
        ∀ self, q = .drop self → a = .ok none)
      (Shared.start (.unix target), Table.empty) Refers (fun _ => none) Prod.snd
      (Referring target) where
  starts := Referring.start target
  allows _ _ _ _ _ _ _ _ _ := trivial
  begins _ _ _ _ _ _ kept idle admitted := kept.begins idle admitted
  calls _ _ _ _ _ _ _ _ _ kept busy replied accepted := Or.inl (kept.calls busy replied accepted)
  returns _ _ _ _ _ _ _ _ kept busy last ended := kept.returns busy last.1 last.2 ended

theorem Request.obeys_both {target : Target} {K : Kernel} (q : Request) :
    Obeys (fun _ => True)
      ((K.custody (.unix target) false (q.borrows.map Socket.raw)).both (only q.admits)) q.entry
      (q.program (.unix target)).run fun a m => Leaves (Platform.Covered (.unix target)) a m.1 ∧
        ∀ self, q = .drop self → a = .ok none := by
  have custody : Obeys (fun _ => True) (K.custody (.unix target) false (q.borrows.map Socket.raw))
      (q.moves.map fun socket => (socket.raw, false)) (q.program (.unix target)).run
      (Leaves (Platform.Covered (.unix target))) := q.custody (by rintro ⟨⟩)
  refine (custody.both (q.emits_admitted.only _)).ran.mono ?_
  rintro a m ⟨⟨left, _⟩, t, run⟩
  refine ⟨left, ?_⟩
  rintro self rfl
  exact Request.returns_of_drop run

end IoBluetooth
