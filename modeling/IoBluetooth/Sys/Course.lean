import IoBluetooth.Sys.Stages

/-!
# The course of the open sockets

What calls lead to for the open sockets of the system, beside what descriptors refer to, and what
the threads keep between them: every call is in its place, and every socket is as its kind should
be.
-/
namespace IoBluetooth

open Interaction

/-- The conditions of the open sockets, the kinds of the crate's, and the calls so far that were
made on nothing, or out of their place. -/
structure Course where
  condition : Nat → Condition
  kind : Socket → Kind
  misplaced : List (Event os)

def Course.start : Course := ⟨fun _ => .fresh, fun _ => .socket, []⟩

section Course

variable (T : Table Handle) (condition : Nat → Condition)

/-- What a call leads to for the open socket that it is made on. -/
def touched (user : Bool) (e : Event os) : Nat → Condition :=
  match e.call.target.bind T.refers with
  | some n => Function.update condition n ((condition n).after user e)
  | none => condition

def InPlace (c : Call) : Prop :=
  ∀ h ∈ c.target, ∃ n, T.refers h = some n ∧ (condition n).stage ∈ c.stages

/-- The condition of an open socket that a call makes. But on Linux, one that is accepted is in the
mode of the listener. -/
def born (target : Target) (c : Call) : Condition :=
  match c with
  | .accept4 .. => ⟨.joined, false, false⟩
  | .accept s _ =>
    match T.refers s with
    | some n =>
      if target = .linux then ⟨.joined, false, false⟩
      else { condition n with stage := .joined }
    | none => ⟨.joined, false, false⟩
  | _ => .fresh

end Course

section Course

variable {T : Table Handle} {condition : Nat → Condition} {e : Event os} {target : Target}

theorem touched_of_refers {h : Handle} {n : Nat} (on : e.call.target = some h)
    (refers : T.refers h = some n) (user : Bool) :
    touched T condition user e =
      Function.update condition n ((condition n).after user e) := by
  rw [touched, on, Option.bind_some, refers]

theorem touched_of_steady (steady : e.call.steady = true) (user : Bool) :
    touched T condition user e = condition := by
  rw [touched]
  split
  · rw [Condition.after_of_steady steady, Function.update_eq_self]
  · rfl

theorem source_of_steady {K : Kernel} {h : Handle} {g : Bool} (steady : e.call.steady = true)
    (acquires : K.effect (.unix target) e = .acquire h g) : e.call.source ≠ none := by
  have makes := Kernel.acquires_of_effect acquires
  obtain ⟨c, r⟩ := e
  cases c with
  | fcntlDupfd fd | fcntlDupfdCloexec fd => exact Option.some_ne_none fd
  | _ => first | (cases makes; done) | cases steady

/-- What is accepted from a socket that listens is joined, in the mode that it was made in. -/
theorem fits_born {K : Kernel} {k : Kind} {h fd : Handle} {g : Bool} {n : Nat}
    (takes : k.takes e.call = true) (on : e.call.target = some h) (refers : T.refers h = some n)
    (fits : k.fits (condition n)) (acquires : K.effect (.unix target) e = .acquire fd g) :
    Kind.stream.fits (born T condition target e.call) := by
  have anew : Kind.stream.fits ⟨.joined, false, false⟩ := ⟨List.mem_cons_self, fun _ => rfl⟩
  obtain ⟨c, r⟩ := e
  -- of the calls that a socket with users takes, only those that accept make a descriptor
  cases c with
  | accept4 s len => exact anew
  | accept s len =>
    cases on
    simp only [born, refers]
    split
    · exact anew
    · exact ⟨List.mem_cons_self, fits.2⟩
  | _ => first | cases acquires | (cases k <;> cases takes)

end Course

variable {ι : Type}

/-- The crate on Unix, used by any number of threads, with the conditions of the open sockets. A
request is about a socket of the kind that it is for. -/
def staging [DecidableEq ι] (target : Target) (K : Kernel) :
    System ι Request os (Except Exit (Option Socket)) ((Shared ι × Table Handle) × Course) where
  program q := (q.program (.unix target)).run
  begins running s q s' := (referring target K).begins running s.1 q s'.1 ∧ s'.2 = s.2 ∧
    q.typed s.2.kind
  calls i q s e s' := (referring target K).calls i q s.1 e s'.1 ∧ s'.2.kind = s.2.kind ∧
    s'.2.condition = s.1.2.conditions e.call.source (K.effect (.unix target) e)
      (born s.1.2 s.2.condition target e.call) (touched s.1.2 s.2.condition q.user e) ∧
    (InPlace s.1.2 s.2.condition e.call ∧ s'.2.misplaced = s.2.misplaced ∨
      ¬InPlace s.1.2 s.2.condition e.call ∧ s'.2.misplaced = s.2.misplaced ++ [e])
  returns q a s s' := (referring target K : System ι _ _ _ _).returns q a s.1 s'.1 ∧
    match a with
    | .ok (some socket) =>
      s'.2 = { s.2 with kind := Function.update s.2.kind socket (q.kind s.2.kind) }
    | _ => s'.2 = s.2

/-! ### What is kept -/

/-- What a request knows of the socket that it has made: its condition, or after it was accepted
no more than that it is joined. -/
def Request.tracks (q : Request) (m : Option Condition) (x : Condition) : Prop :=
  if q.user = true then Kind.stream.fits x else m = some x

theorem Request.tracks_of_free {q : Request} (free : q.user = false) (m : Option Condition)
    (x : Condition) : q.tracks m x ↔ m = some x := by
  rw [tracks, if_neg (Bool.eq_false_iff.mp free)]

/-- Where the two monitors of a request are. -/
abbrev Standings := Standing × Option Condition

def mineOf (x : Option (Request × Standings)) (c : Condition) : Prop :=
  ∀ q m, x = some (q, m) → q.tracks m.2 c

theorem mineOf_some (q : Request) (m : Standings) : mineOf (some (q, m)) = q.tracks m.2 := by
  funext c
  refine propext ⟨fun mine => mine q m rfl, ?_⟩
  rintro tracks _ _ ⟨⟩
  exact tracks

def headOf (x : Option (Request × Standings)) : Option (Request × Standing) :=
  x.map fun x => (x.1, x.2.1)

/-- What a request ends with: a socket that fits its kind, where no user knew it before. -/
def HandsOver (q : Request) (a : Except Exit (Option Socket)) (m : Option Condition) : Prop :=
  ∀ s, a = .ok (some s) →
    (q.user = false → ∀ kind, ∃ x, m = some x ∧ (q.kind kind).fits x) ∧
    (q.user = true → q.origin = .made → ∀ kind, q.kind kind = .stream)

structure Staging (target : Target) (s : (Shared ι × Table Handle) × Course)
    (v : View ι Request Standings) : Prop where
  referring : ∃ σ, Referring target s.1 (headOf ∘ v) σ
  suits : s.1.2.Suits (s.1.1.live.map Socket.raw) (ownOf ∘ headOf ∘ v) (originOf ∘ headOf ∘ v)
    (fun h => (s.2.kind ⟨h⟩).fits) (mineOf ∘ v) s.2.condition
  typed : ∀ i q, v.running i = some q → q.typed s.2.kind
  placed : s.2.misplaced = []

namespace Staging

variable {target : Target} {K : Kernel} {s s' : (Shared ι × Table Handle) × Course}
  {v : View ι Request Standings} {i : ι} {q : Request}

theorem start (target : Target) :
    Staging target (((Shared.start (.unix target) : Shared ι), Table.empty), Course.start)
      fun _ => none where
  referring := ⟨_, Referring.start target⟩
  suits := Table.Suits.start _ _
  typed := by
    rintro i q ⟨⟩
  placed := rfl

theorem running_head (v : View ι Request Standings) : View.running (headOf ∘ v) = v.running := by
  funext i
  simp only [View.running, headOf, Function.comp_apply, Option.map_map]
  rfl

section Busy

variable {m : Standings}

theorem head_busy (busy : v i = some (q, m)) : (headOf ∘ v) i = some (q, m.1) := by
  rw [Function.comp_apply, busy]
  rfl

theorem running_busy (busy : v i = some (q, m)) : View.running (headOf ∘ v) i = some q := by
  rw [View.running, head_busy busy]
  rfl

theorem own_busy (busy : v i = some (q, m)) : (ownOf ∘ headOf ∘ v) i = m.1.1 :=
  congrArg ownOf (head_busy busy)

theorem origin_busy (busy : v i = some (q, m)) : (originOf ∘ headOf ∘ v) i = q.origin :=
  congrArg originOf (head_busy busy)

end Busy

variable [DecidableEq ι]

theorem head_update (v : View ι Request Standings) (i : ι) (x : Option (Request × Standings)) :
    headOf ∘ Function.update v i x = Function.update (headOf ∘ v) i (headOf x) :=
  Function.comp_update headOf v i x

theorem typed_update {x : Option (Request × Standings)} {kind : Socket → Kind}
    (typed : ∀ j q', j ≠ i → v.running j = some q' → q'.typed kind)
    (mine : ∀ q m, x = some (q, m) → q.typed kind) (j : ι) (q' : Request)
    (job : View.running (Function.update v i x) j = some q') : q'.typed kind := by
  by_cases same : j = i
  · subst same
    rw [View.running, Function.update_self] at job
    obtain ⟨⟨_, m⟩, found, rfl⟩ := Option.map_eq_some_iff.mp job
    exact mine _ m found
  · refine typed j q' same ?_
    rwa [View.running, Function.update_of_ne same] at job

theorem begins (kept : Staging target s v) (idle : v i = none)
    (admitted : (staging target K).begins v.running s q s') :
    Staging target s' (Function.update v i (some (q, q.entry, none))) := by
  obtain ⟨admitted, same, typed⟩ := admitted
  obtain ⟨σ, referring⟩ := kept.referring
  constructor
  · rw [head_update]
    rcases referring.begins (by rw [Function.comp_apply, idle]; rfl)
      (running_head v ▸ admitted) with ⟨_, kept⟩ | ⟨_, σ', _, _, kept⟩
    · exact ⟨σ, kept⟩
    · exact ⟨σ', kept⟩
  · -- what is dropped is not live any more, and what the request was given it has not made
    have fewer : s'.1.1.live ⊆ s.1.1.live := by
      obtain ⟨⟨_, admitted⟩, _⟩ := admitted
      cases moved : q.moves with
      | none =>
        rw [moved] at admitted
        exact admitted ▸ List.Subset.refl _
      | some self =>
        rw [moved] at admitted
        rw [admitted.2.2]
        exact List.erase_subset
    rw [admitted.2, same, head_update, Function.comp_update, Function.comp_update,
      Function.comp_update]
    refine kept.suits.renew i _ _ (fun h given => ?_) _ (List.map_subset _ fewer)
    cases q with
    | drop => rfl
    | _ => cases given
  · rw [same]
    refine typed_update (fun j q' _ job => kept.typed j q' job) ?_
    rintro _ _ ⟨⟩
    exact typed
  · rw [same]
    exact kept.placed

/-! #### Calls -/

omit [DecidableEq ι] in
/-- What a request borrows and what it has of its own refers to an open socket. -/
theorem refers (kept : Staging target s v) {m : Standings} (busy : v i = some (q, m)) {h : Handle}
    (reaches : h ∈ q.borrows.map Socket.raw ∨ h ∈ m.1.1.map Prod.fst) :
    ∃ n, s.1.2.refers h = some n := by
  obtain ⟨σ, referring⟩ := kept.referring
  refine Option.isSome_iff_exists.mp ((referring.tells.held h).mp ?_)
  refine (referring.sound.apart.held_iff h).mpr ?_
  rcases reaches with borrowed | own
  · exact Or.inl (List.map_subset _ (referring.sound.borrows i q (running_busy busy)) borrowed)
  · exact Or.inr ⟨i, (own_busy busy).symm ▸ own⟩

theorem takes_kind {kind : Socket → Kind} {c : Call} (takes : q.takes c = true)
    (typed : q.typed kind) :
    ∃ self ∈ q.borrows, c.target = some self.raw ∧ (kind self).takes c = true := by
  have split {self : Socket} {k : Kind} (both : (c.target == some self.raw && k.takes c) = true) :
      c.target = some self.raw ∧ k.takes c = true := by
    rw [Bool.and_eq_true] at both
    exact ⟨eq_of_beq both.1, both.2⟩
  cases q with
  | make op =>
    cases op with
    | accept self =>
      obtain ⟨on, takes⟩ := split takes
      exact ⟨self, List.mem_cons_self, on, typed ▸ takes⟩
    | _ => cases takes
  | listener self f =>
    obtain ⟨on, takes⟩ := split takes
    exact ⟨self.inner, List.mem_cons_self, on, typed ▸ takes⟩
  | stream self f =>
    obtain ⟨on, takes⟩ := split takes
    refine ⟨self.inner, List.mem_cons_self, on, ?_⟩
    rcases typed with stream | timed
    · exact stream ▸ takes
    · rw [timed]
      exact Kind.takes_timed c ▸ takes
  | _ => cases takes

omit [DecidableEq ι] in
theorem borrows_of_free (free : q.user = false) : q.borrows = [] := by
  rw [Request.user, Bool.not_eq_false'] at free
  exact List.isEmpty_iff.mp free

/-- A request without users that does more than to close a socket has made it. -/
theorem made_of_free {c : Call} (free : q.user = false) (unsteady : c.steady = false)
    (admits : q.admits c = true) : q.origin = .made := by
  cases origin : q.origin with
  | made => rfl
  | copied h =>
    obtain ⟨self, rfl, _⟩ := Referring.duplicate_of_origin origin
    cases free
  | given =>
    rw [Request.admits, origin] at admits
    cases unsteady.symm.trans (Call.steady_of_closes admits)

/-- What a call leads to: it is in its place, the conditions after it are as they should be, and
what the request knows then, be the socket new to it or not. -/
structure Touches (target : Target) (K : Kernel) (s : (Shared ι × Table Handle) × Course)
    (v : View ι Request Standings) (i : ι) (q : Request) (e : Event os) (known : Condition → Prop)
    (x : Option Condition) : Prop where
  place : InPlace s.1.2 s.2.condition e.call
  suits : s.1.2.Suits (s.1.1.live.map Socket.raw) (ownOf ∘ headOf ∘ v) (originOf ∘ headOf ∘ v)
    (fun h => (s.2.kind ⟨h⟩).fits) (Function.update (mineOf ∘ v) i known)
    (touched s.1.2 s.2.condition q.user e)
  keeps : (∀ h g, K.effect (.unix target) e ≠ .acquire h g) → ∀ c, known c → q.tracks x c
  makes : ∀ h g, K.effect (.unix target) e = .acquire h g → e.call.source = none →
    q.tracks x (born s.1.2 s.2.condition target e.call)

section Touches

variable {m : Standing} {x : Option Condition} {e : Event os}

theorem suits_same (i : ι) {condition : Nat → Condition}
    (suits : s.1.2.Suits (s.1.1.live.map Socket.raw) (ownOf ∘ headOf ∘ v) (originOf ∘ headOf ∘ v)
      (fun h => (s.2.kind ⟨h⟩).fits) (mineOf ∘ v) condition) :
    s.1.2.Suits (s.1.1.live.map Socket.raw) (ownOf ∘ headOf ∘ v) (originOf ∘ headOf ∘ v)
      (fun h => (s.2.kind ⟨h⟩).fits) (Function.update (mineOf ∘ v) i (mineOf (v i)))
      condition := by
  rwa [← Function.comp_apply (f := mineOf) (g := v), Function.update_eq_self]

theorem touch_steady (kept : Staging target s v) (busy : v i = some (q, m, x))
    (reaches : ∀ h ∈ e.call.target, ∃ n, s.1.2.refers h = some n)
    (steady : e.call.steady = true) : Touches target K s v i q e (mineOf (v i)) x where
  place h on := by
    obtain ⟨n, refers⟩ := reaches h on
    exact ⟨n, refers, Call.stages_of_steady steady _⟩
  suits := by
    rw [touched_of_steady steady]
    exact suits_same i kept.suits
  keeps _ c mine := mine q (m, x) busy
  makes h g acquires anew := absurd anew (source_of_steady steady acquires)

/-- The socket that the call is made on has users, and fits its kind before and after. -/
theorem touch_takes (kept : Staging target s v) (busy : v i = some (q, m, x))
    (reaches : ∀ h ∈ e.call.target, ∃ n, s.1.2.refers h = some n) (user : q.user = true)
    (takes : q.takes e.call = true) : Touches target K s v i q e (mineOf (v i)) x := by
  obtain ⟨σ, referring⟩ := kept.referring
  have running := running_busy busy
  obtain ⟨self, member, on, takes⟩ := takes_kind takes (kept.typed i q (running_head v ▸ running))
  have alive : self.raw ∈ s.1.1.live.map Socket.raw :=
    List.mem_map_of_mem (referring.sound.borrows i q running member)
  obtain ⟨n, refers⟩ := reaches self.raw on
  have fits : (s.2.kind self).fits (s.2.condition n) := kept.suits.live self.raw alive n refers
  constructor
  · intro h on'
    cases on.symm.trans on'
    exact ⟨n, refers, Kind.stages_of_takes takes fits.1⟩
  · rw [touched_of_refers on refers, user]
    refine suits_same i (kept.suits.touch_live referring.tells referring.sound.apart alive refers ?_)
    exact fun _ _ fits => Kind.fits_after takes fits
  · exact fun _ c mine => mine q (m, x) busy
  · intro h g acquires _
    rw [Request.tracks, if_pos user]
    exact fits_born takes on refers fits acquires

/-- Where `socket` fails, nothing is made; otherwise the request knows that it is new. -/
theorem touch_opens (kept : Staging target s v) (busy : v i = some (q, m, x))
    (free : q.user = false) (cloexec : Bool) (protocol : Int) (r : Ret) :
    Touches target K s v i q ⟨.socket cloexec protocol, r⟩ (mineOf (v i))
      (if r.value = -1 then x else some .fresh) where
  place := by rintro _ ⟨⟩
  suits := suits_same i kept.suits
  keeps unmade c mine := by
    by_cases failed : r.value = -1
    · rw [if_pos failed]
      exact mine q (m, x) busy
    · have made : K.effect (.unix target) ⟨.socket cloexec protocol, r⟩ =
          .acquire r.value cloexec := by
        change Effect.ofResult cloexec (cvt r) = _
        rw [(cvt_eq_ok_iff r _).mpr ⟨failed, rfl⟩]
        rfl
      exact absurd made (unmade _ _)
  makes h g acquires _ := by
    have passed : r.value ≠ -1 := by
      intro failed
      change Effect.ofResult cloexec (cvt r) = _ at acquires
      rw [(cvt_eq_error_iff r _).mpr ⟨failed, rfl⟩] at acquires
      cases acquires
    exact (Request.tracks_of_free free _ _).mpr (if_neg passed)

/-- The socket that the call is made on is the request's own, which knows its condition. -/
theorem touch_moves (kept : Staging target s v) {c : Condition}
    (busy : v i = some (q, m, some c)) {o : Own Handle}
    (reaches : ∀ h ∈ e.call.target, ∃ n, s.1.2.refers h = some n)
    (targets : ∀ h ∈ e.call.target, h ∈ q.borrows.map Socket.raw ∨ h ∈ m.1.map Prod.fst)
    (moved : Moves false (K.effect (.unix target) e) m.1 o) (admits : q.admits e.call = true)
    (free : q.user = false) (unsteady : e.call.steady = false) {h : Handle}
    (on : e.call.target = some h) (place : c.stage ∈ e.call.stages) :
    Touches target K s v i q e (q.tracks (some (c.after false e))) (some (c.after false e)) := by
  obtain ⟨σ, referring⟩ := kept.referring
  obtain ⟨n, refers⟩ := reaches h on
  have mine : h ∈ m.1.map Prod.fst := by
    have own := targets h on
    rw [borrows_of_free free] at own
    exact own.resolve_left List.not_mem_nil
  have owns := own_busy busy
  have origin := (origin_busy busy).trans (made_of_free free unsteady admits)
  have tracked : some c = some (s.2.condition n) := (Request.tracks_of_free free _ _).mp
    (kept.suits.own i h (owns ▸ mine) origin n refers q _ busy)
  cases tracked
  constructor
  · intro h' on'
    cases on.symm.trans on'
    exact ⟨n, refers, place⟩
  · rw [touched_of_refers on refers, free]
    refine kept.suits.touch_own referring.tells referring.sound.apart (owns ▸ mine) origin refers ?_
    exact (Request.tracks_of_free free _ _).mpr rfl
  · exact fun _ c known => known
  · intro h' g acquires _
    -- a request that has a socket of its own does not come by another
    rw [acquires] at moved
    generalize m.1 = own at moved mine
    cases moved
    cases mine

/-- A call is in its place; and what it leads to is known to the request and to the users. -/
theorem touch (kept : Staging target s v) {x' : Option Condition} (busy : v i = some (q, m, x))
    {o : Own Handle}
    (targets : ∀ h ∈ e.call.target, h ∈ q.borrows.map Socket.raw ∨ h ∈ m.1.map Prod.fst)
    (moved : Moves false (K.effect (.unix target) e) m.1 o) (admits : q.admits e.call = true)
    (conducts : Conducts q x e x') : ∃ known, Touches target K s v i q e known x' := by
  have reaches (h : Handle) (on : h ∈ e.call.target) := kept.refers busy (targets h on)
  cases conducts with
  | steady steady => exact ⟨_, kept.touch_steady busy reaches steady⟩
  | takes user takes => exact ⟨_, kept.touch_takes busy reaches user takes⟩
  | opens free => exact ⟨_, kept.touch_opens busy free _ _ _⟩
  | moves free unsteady on place =>
    exact ⟨_, kept.touch_moves busy reaches targets moved admits free unsteady on place⟩

end Touches

/-- A call of one request is in its place, and keeps what is known of the sockets of all. -/
theorem calls (kept : Staging target s v) {m n : Standings} (busy : v i = some (q, m))
    {e : Event os} (replied : (staging target K).calls i q s e s')
    (accepted : (((K.custody (.unix target) false (q.borrows.map Socket.raw)).both
      (only q.admits)).both q.conduct) m e = some n) :
    Staging target s' (Function.update v i (some (q, n))) := by
  obtain ⟨replied, kind, condition, placed⟩ := replied
  obtain ⟨first, second⟩ := (Monitor.both_eq_some _ _ _ _ _).mp accepted
  obtain ⟨mine, admitted⟩ := (Monitor.both_eq_some _ _ _ _ _).mp first
  obtain ⟨admits, _⟩ := only_eq_some.mp admitted
  obtain ⟨targets, moved⟩ := (custody_eq_some _ _).mp mine
  obtain ⟨σ, referring⟩ := kept.referring
  obtain ⟨known, touches⟩ := kept.touch (K := K) busy targets moved admits (Request.conducts second)
  constructor
  · rw [head_update]
    exact ⟨σ, (referring.calls (head_busy busy) replied first).2⟩
  · obtain ⟨⟨_, ⟨fresh, _⟩, live, _⟩, table⟩ := replied
    have owns := own_busy busy
    have origin := origin_busy busy
    rw [live, kind, table, condition, head_update, Function.comp_update, Function.comp_update,
      Function.comp_update]
    have moved' := touches.suits.moves referring.tells referring.sound.apart (owns ▸ moved) fresh
      (fun h g acquires => origin ▸ q.comes acquires admits) touches.makes
      fun unmade c mine => touches.keeps unmade c (by rwa [Function.update_self] at mine)
    have unmoved : originOf (headOf (some (q, n))) = (originOf ∘ headOf ∘ v) i := origin.symm
    rw [Function.update_idem] at moved'
    rw [unmoved, Function.update_eq_self, mineOf_some]
    exact moved'
  · rw [kind]
    refine typed_update (fun j q' _ job => kept.typed j q' job) ?_
    rintro _ _ ⟨⟩
    exact kept.typed i q (running_head v ▸ running_busy busy)
  · rcases placed with ⟨_, same⟩ | ⟨wrong, _⟩
    · exact same.trans kept.placed
    · exact absurd touches.place wrong

/-! #### Returning -/

omit [DecidableEq ι] in
theorem typed_congr {kind kind' : Socket → Kind} (same : ∀ s ∈ q.borrows, kind' s = kind s)
    (typed : q.typed kind) : q.typed kind' := by
  cases q with
  | make op =>
    cases op with
    | accept self => exact (same self List.mem_cons_self).trans typed
    | _ => trivial
  | stream self f =>
    have same := same self.inner List.mem_cons_self
    rw [Request.typed, same]
    exact typed
  | listener self f => exact (same self.inner List.mem_cons_self).trans typed
  | _ => trivial

omit [DecidableEq ι] in
/-- A socket that is handed over is as its kind should be. -/
theorem hands (kept : Staging target s v) {m : Standings} (busy : v i = some (q, m))
    {socket : Socket} {g : Bool} (mine : m.1.1 = some (socket.raw, g))
    (ends : HandsOver q (.ok (some socket)) m.2) (given : q.origin ≠ .given) {n : Nat}
    (refers : s.1.2.refers socket.raw = some n) :
    (q.kind s.2.kind).fits (s.2.condition n) := by
  obtain ⟨σ, referring⟩ := kept.referring
  have here : socket.raw ∈ ((ownOf ∘ headOf ∘ v) i).map Prod.fst := by
    rw [own_busy busy, mine]
    rfl
  have origin := origin_busy busy
  obtain ⟨free, used⟩ := ends socket rfl
  cases comes : q.origin with
  | made =>
    have tracks := kept.suits.own i _ here (origin.trans comes) n refers q m busy
    cases user : q.user with
    | true =>
      rw [used user comes]
      rwa [Request.tracks, if_pos user] at tracks
    | false =>
      obtain ⟨x, known, fits⟩ := free user s.2.kind
      cases known.symm.trans ((Request.tracks_of_free user _ _).mp tracks)
      exact fits
  | copied h =>
    obtain ⟨self, rfl, rfl⟩ := Referring.duplicate_of_origin comes
    have alive := referring.sound.borrows i _ (running_busy busy) List.mem_cons_self
    refine kept.suits.live self.raw (List.mem_map_of_mem alive) n ?_
    exact (referring.tells.copied i _ here self.raw (origin.trans comes)).symm.trans refers
  | given => exact absurd comes given

theorem suits_idle (i : ι) {live : List Handle} {kind : Socket → Kind}
    (suits : s.1.2.Suits live (ownOf ∘ headOf ∘ v) (originOf ∘ headOf ∘ v)
      (fun h => (kind ⟨h⟩).fits) (mineOf ∘ v) s.2.condition) :
    s.1.2.Suits live (ownOf ∘ headOf ∘ Function.update v i none)
      (originOf ∘ headOf ∘ Function.update v i none) (fun h => (kind ⟨h⟩).fits)
      (mineOf ∘ Function.update v i none) s.2.condition := by
  rw [head_update, Function.comp_update, Function.comp_update, Function.comp_update]
  exact suits.renew i _ _ (by rintro _ ⟨⟩) _ (List.Subset.refl _)

/-- A request returns no socket. -/
theorem returns_nothing (kept : Staging target s v)
    (referring : ∃ σ, Referring target s'.1 (headOf ∘ Function.update v i none) σ)
    (same : s'.1 = s.1) (course : s'.2 = s.2) : Staging target s' (Function.update v i none) := by
  refine ⟨referring, ?_, ?_, course ▸ kept.placed⟩
  · rw [same, course]
    exact suits_idle i kept.suits
  · rw [course]
    exact typed_update (fun j q' _ job => kept.typed j q' job) (by rintro _ _ ⟨⟩)

/-- A request hands its socket over, which was known to nobody. -/
theorem returns_socket (kept : Staging target s v) {m : Standings} (busy : v i = some (q, m))
    {socket : Socket} {g : Bool} (mine : m.1.1 = some (socket.raw, g))
    (ends : HandsOver q (.ok (some socket)) m.2) (given : q.origin ≠ .given)
    (referring' : ∃ σ, Referring target s'.1 (headOf ∘ Function.update v i none) σ)
    (live : s'.1.1.live = socket :: s.1.1.live) (table : s'.1.2 = s.1.2)
    (course : s'.2 = { s.2 with kind := Function.update s.2.kind socket (q.kind s.2.kind) }) :
    Staging target s' (Function.update v i none) := by
  obtain ⟨σ, referring⟩ := kept.referring
  have away : socket ∉ s.1.1.live := by
    intro alive
    have here : socket.raw ∈ ((ownOf ∘ headOf ∘ v) i).map Prod.fst := by
      rw [own_busy busy, mine]
      rfl
    exact referring.sound.apart.notMem i socket.raw here (List.mem_map_of_mem alive)
  have same {sock : Socket} (alive : sock ∈ s.1.1.live) :
      Function.update s.2.kind socket (q.kind s.2.kind) sock = s.2.kind sock := by
    refine Function.update_of_ne ?_ _ _
    rintro rfl
    exact away alive
  have kind : s'.2.kind = Function.update s.2.kind socket (q.kind s.2.kind) :=
    congrArg Course.kind course
  have condition : s'.2.condition = s.2.condition := by rw [course]
  refine ⟨referring', ?_, ?_, (congrArg Course.misplaced course).trans kept.placed⟩
  · rw [live, table, kind, condition]
    refine suits_idle i (kept.suits.hand (fun h member c fits => ?_) fun n refers => ?_)
    · obtain ⟨sock, alive, rfl⟩ := List.mem_map.mp member
      exact (same alive).symm ▸ fits
    · exact (Function.update_self socket _ s.2.kind).symm ▸ kept.hands busy mine ends given refers
  · rw [kind]
    refine typed_update (fun j q' _ job => ?_) (by rintro _ _ ⟨⟩)
    have borrows := referring.sound.borrows j q' (by rw [running_head]; exact job)
    exact typed_congr (fun sock member => same (borrows member)) (kept.typed j q' job)

theorem returns (kept : Staging target s v) {m : Standings} (busy : v i = some (q, m))
    {a : Except Exit (Option Socket)} (left : Leaves (Platform.Covered (.unix target)) a m.1.1)
    (dropped : ∀ self, q = .drop self → a = .ok none) (ends : HandsOver q a m.2)
    (ended : (staging target K).returns q a s s') :
    Staging target s' (Function.update v i none) := by
  obtain ⟨ended, course⟩ := ended
  obtain ⟨σ, referring⟩ := kept.referring
  have referring' : ∃ σ', Referring target s'.1 (headOf ∘ Function.update v i none) σ' := by
    rw [head_update]
    rcases referring.returns (head_busy busy) left dropped ended with ⟨_, kept⟩ | ⟨_, σ', _, kept⟩
    · exact ⟨σ, kept⟩
    · exact ⟨σ', kept⟩
  -- only a socket in the result changes who knows of what
  match a with
  | .ok (some socket) =>
    obtain ⟨g, mine, _⟩ := left
    have given : q.origin ≠ .given := by
      intro given
      cases q with
      | drop self => cases dropped self rfl
      | make op => cases op <;> cases given
      | _ => cases given
    exact kept.returns_socket busy mine ends given referring' (congrArg Shared.live ended.1)
      ended.2 course
  | .ok .none => exact kept.returns_nothing referring' (Prod.ext ended.1 ended.2) course
  | .error e => exact kept.returns_nothing referring' (Prod.ext ended.1 ended.2) course

end Staging

/-! ### Requests -/

theorem Request.kind_of_free {q : Request} (free : q.user = false) (kind kind' : Socket → Kind) :
    q.kind kind = q.kind kind' := by
  cases q with
  | make op =>
    cases op with
    | duplicate self => cases free
    | _ => rfl
  | _ => rfl

theorem none_of_runs {p : Sys Unit} {t : Trace os} {s : Socket}
    (run : Runs (do p; pure none : Sys (Option Socket)).run t (.ok (some s))) : False := by
  rcases (runs_run_bind _ _ _ _).mp run with ⟨e, _, wrong⟩ | ⟨u, v, a, _, _, last⟩
  · cases wrong
  · cases last.2

/-- The functions of a stream or a listener return no socket. -/
theorem Request.made_of_user {target : Target} {q : Request} {t : Trace os} {s : Socket}
    (run : Runs (q.program (.unix target)).run t (.ok (some s))) (user : q.user = true)
    (makes : q.origin = .made) (kind : Socket → Kind) : q.kind kind = .stream := by
  cases q with
  | make op =>
    cases op with
    | accept self => rfl
    | duplicate self => cases makes
    | _ => cases user
  | stream self f => exact (none_of_runs run).elim
  | listener self f => exact (none_of_runs run).elim
  | _ => cases user

theorem Request.obeys_ends {target : Target} {A : Event os → Prop} (q : Request) :
    Obeys A q.conduct none (q.program (.unix target)).run (HandsOver q) := by
  refine (q.obeys_conduct fun _ => .socket).ran.mono ?_
  rintro a m ⟨found, t, run⟩ s rfl
  refine ⟨fun free kind => ?_, Request.made_of_user run⟩
  obtain ⟨x, known, fits⟩ := found free s rfl
  exact ⟨x, known, Request.kind_of_free free _ _ ▸ fits⟩

theorem staging_invariant [DecidableEq ι] (target : Target) (K : Kernel) :
    (staging target K : System ι _ _ _ _).Invariant (fun _ => True)
      (fun q => ((K.custody (.unix target) false (q.borrows.map Socket.raw)).both
        (only q.admits)).both q.conduct)
      (fun q => (q.entry, none))
      (fun q a m => (Leaves (Platform.Covered (.unix target)) a m.1.1 ∧
        ∀ self, q = .drop self → a = .ok none) ∧ HandsOver q a m.2)
      ((Shared.start (.unix target), Table.empty), Course.start)
      fun _ s v => Staging target s v where
  starts := Staging.start target
  allows _ _ _ _ _ _ _ _ _ := trivial
  begins _ _ _ _ _ _ kept idle admitted := kept.begins idle admitted
  calls _ _ _ _ _ _ _ _ _ kept busy replied accepted := kept.calls busy replied accepted
  returns _ _ _ _ _ _ _ _ kept busy last ended :=
    kept.returns busy last.1.1 last.1.2 last.2 ended

end IoBluetooth
