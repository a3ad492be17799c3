import IoBluetooth.Sys.Sharing

/-!
# Threads never touch each other's descriptors

Any number of threads make, use, clone and drop sockets, their system calls interleaved in any
order and replied to in any way. At every moment the open descriptors are those of the sockets
that are alive and those that some thread is just making or closing, all different. No call is
ever made on a descriptor that is closed, or that is in the hands of another thread.
-/
namespace IoBluetooth

open Interaction

variable {ι : Type} {P : Platform} {K : Kernel}

/-- The descriptor that a thread is making or closing. -/
def own (P : Platform) (K : Kernel) (c : Threads ι Request os (Shared ι)) (i : ι) : Option Handle :=
  (c.jobs i).bind fun (q, t) => owned (K.effect P) (q.moves.map Socket.raw) t

/-- A thread may make a call on the descriptor that is its own, or on one it has borrowed. -/
def Entitled (P : Platform) (K : Kernel) (c : Threads ι Request os (Shared ι)) (i : ι)
    (fd : Handle) : Prop :=
  own P K c i = some fd ∨ ∃ q t, c.jobs i = some (q, t) ∧ ∃ s ∈ q.borrows, s.raw = fd

structure Separate (P : Platform) (K : Kernel) (c : Threads ι Request os (Shared ι)) : Prop where
  held_iff : ∀ fd, fd ∈ c.shared.ledger.held ↔
    fd ∈ c.shared.live.map Socket.raw ∨ ∃ i, own P K c i = some fd
  nodup : (c.shared.live.map Socket.raw).Nodup
  notMem : ∀ i fd, own P K c i = some fd → fd ∉ c.shared.live.map Socket.raw
  unique : ∀ i j fd, own P K c i = some fd → own P K c j = some fd → i = j
  borrows : ∀ i q t, c.jobs i = some (q, t) → q.borrows ⊆ c.shared.live
  guarded : P.Covered → ∀ s ∈ c.shared.live, s.raw ∈ c.shared.ledger.guarded
  once : c.shared.ledger.misused = false

/-- What the monitors say that the threads have of their own. -/
private def held (v : View ι Request (Own Handle)) (i : ι) : Own Handle := (v i).bind Prod.snd

/-- The state of a thread's monitor before its first call. -/
private def start (q : Request) : Own Handle := q.moves.map fun socket => (socket.raw, false)

private abbrev watching (P : Platform) (K : Kernel) (q : Request) : Monitor os (Own Handle) :=
  K.custody P false (q.borrows.map Socket.raw)

private theorem own_eq {c : Threads ι Request os (Shared ι)} {v : View ι Request (Own Handle)}
    (shows : c.Shows (watching P K) start v) (i : ι) :
    own P K c i = (held v i).map Prod.fst := by
  cases job : c.jobs i with
  | none =>
    rw [own, held, job, shows.idle job]
    rfl
  | some qt =>
    obtain ⟨q, t⟩ := qt
    obtain ⟨o, seen, read⟩ := shows.busy job
    have ends := owned_eq t o read
    rw [own, held, job, seen]
    simp only [Option.bind_some, ← ends, start, Option.map_map]
    rfl

variable [DecidableEq ι]

private theorem held_update (v : View ι Request (Own Handle)) (i : ι)
    (x : Option (Request × Own Handle)) :
    held (Function.update v i x) = Function.update (held v) i (x.bind Prod.snd) := by
  funext j
  by_cases same : j = i
  · subst same
    simp [held]
  · simp [held, same]

omit [DecidableEq ι] in
private theorem running_update [DecidableEq ι] (v : View ι Request (Own Handle)) (i : ι)
    (x : Option (Request × Own Handle)) :
    View.running (Function.update v i x) = Function.update v.running i (x.map Prod.fst) := by
  funext j
  by_cases same : j = i
  · subst same
    simp [View.running]
  · simp [View.running, same]

private theorem soundness (P : Platform) (K : Kernel) :
    (crate P K : System ι _ _ _ _).Invariant (fun _ => True) (watching P K) start
      (fun _ => Leaves P.Covered) (Shared.start P) fun _ s v => s.Sound P (held v) v.running where
  starts := Shared.Sound.start P
  allows _ _ _ _ _ _ _ _ _ := trivial
  begins h s v i q s' sound idle admitted := by
    rw [held_update, running_update]
    exact sound.begins (by rw [View.running, idle, Option.map_none]) admitted
  calls h s v i q o e s' o' sound seen replied accepted := by
    have busy : v.running i = some q := by rw [View.running, seen, Option.map_some]
    have mine : held v i = o := by rw [held, seen, Option.bind_some]
    have next := sound.calls busy replied (mine.symm ▸ accepted)
    rw [held_update, running_update, Option.map_some, ← busy, Function.update_eq_self]
    exact next
  returns h s v i q o a s' sound seen left settled := by
    have mine : held v i = o := by rw [held, seen, Option.bind_some]
    rw [held_update, running_update]
    exact sound.returns (mine.symm ▸ left) settled

private theorem obeys (P : Platform) (K : Kernel) (q : Request) :
    Obeys (fun _ => True) (watching P K q) (start q) ((crate P K : System ι _ _ _ _).program q)
      (Leaves P.Covered) := by
  have lax : false = true → Modern P K fun _ => True := nofun
  exact q.custody lax

theorem descriptors_separate (P : Platform) (K : Kernel)
    (h : List (Label ι Request os (Except Exit (Option Socket))))
    (c : Threads ι Request os (Shared ι)) (reached : (crate P K).Reached (Shared.start P) h c) :
    Separate P K c ∧
    (∀ i e c', (crate P K).Step c (.calls i e) c' → ∀ fd, e.call.target = some fd →
      fd ∈ c.shared.ledger.held ∧ Entitled P K c i fd) ∧
    ((∀ i, c.jobs i = none) →
      c.shared.ledger.held = (c.shared.live.map Socket.raw).toFinset) := by
  obtain ⟨allowed, v, shows, sound⟩ := reached.watched (soundness P K) (obeys P K)
  have owns (i : ι) (fd : Handle) : fd ∈ (held v i).map Prod.fst ↔ own P K c i = some fd := by
    rw [own_eq shows, Option.mem_def]
  have separate : Separate P K c :=
    { held_iff := fun fd => by simp only [sound.apart.held_iff, owns]
      nodup := sound.apart.nodup
      notMem := fun i fd mine => sound.apart.notMem i fd ((owns i fd).mpr mine)
      unique := fun i j fd mine yours =>
        sound.apart.unique i j fd ((owns i fd).mpr mine) ((owns j fd).mpr yours)
      borrows := fun i q t job => sound.borrows i q (by
        rw [shows.running, Threads.running, job, Option.map_some])
      guarded := fun covered s alive =>
        sound.apart.live_guarded covered _ (List.mem_map_of_mem alive)
      once := sound.apart.once }
  refine ⟨separate, fun i e c' step fd target => ?_, fun idle => ?_⟩
  · cases step with
    | @calls _ q t _ s' busy begun replied =>
      obtain ⟨o, o', seen, accepted, _⟩ :=
        shows.next (obeys P K q) busy begun fun _ _ => trivial
      have mine : held v i = o := by rw [held, seen, Option.bind_some]
      rcases ((custody_eq_some _ _).mp accepted).1 fd target with lent | kept
      · obtain ⟨x, member, rfl⟩ := List.mem_map.mp lent
        refine ⟨?_, Or.inr ⟨q, t, busy, x, member, rfl⟩⟩
        exact (separate.held_iff _).mpr
          (Or.inl (List.mem_map_of_mem (separate.borrows i q t busy member)))
      · have owner := (owns i fd).mp (mine.symm ▸ kept)
        exact ⟨(separate.held_iff fd).mpr (Or.inr ⟨i, owner⟩), Or.inl owner⟩
  · ext fd
    rw [separate.held_iff, List.mem_toFinset]
    refine or_iff_left ?_
    rintro ⟨i, mine⟩
    rw [own, idle i] at mine
    cases mine

/-! Two threads, each with a socket that it has not got hold of yet. -/

private def newSocket : Request := .make (.new .rfcomm)

private def obtained (fd : Handle) : Event os := ⟨.socket true 3, ⟨fd, 0⟩⟩

private def twoMaking : Threads Bool Request os (Shared Bool) where
  shared := ⟨(Ledger.empty.acquire 3 true).acquire 4 true, [], .new true⟩
  jobs :=
    let idle : Bool → Option (Request × Trace os) := fun _ => none
    let first := Function.update idle false (some (newSocket, []))
    let second := Function.update first true (some (newSocket, []))
    let third := Function.update second false (some (newSocket, [obtained 3]))
    Function.update third true (some (newSocket, [obtained 4]))

private theorem reached_twoMaking :
    (crate (.unix .linux) (.any false)).Reached (Shared.start (.unix .linux))
      [.begins false newSocket, .begins true newSocket, .calls false (obtained 3),
        .calls true (obtained 4)] twoMaking := by
  have first := (@System.Reached.start _ _ _ _ _ _ (crate (.unix .linux) (.any false)) _).begins
    false newSocket (Shared.start (.unix .linux)) rfl ⟨List.nil_subset _, rfl⟩
  have second := first.begins true newSocket _ rfl ⟨List.nil_subset _, rfl⟩
  have third := second.calls false (obtained 3) ⟨Ledger.empty.acquire 3 true, [], .new true⟩ rfl
    (Request.runs_new .rfcomm 3 (by decide)).begins
    ⟨trivial, ⟨fun _ _ _ => Finset.notMem_empty _, rfl⟩, rfl, rfl⟩
  exact third.calls true (obtained 4) twoMaking.shared rfl (Request.runs_new .rfcomm 4 (by decide)).begins
    ⟨trivial, ⟨by rintro _ _ ⟨⟩; decide, rfl⟩, rfl, rfl⟩

theorem two_making_separate :
    own (.unix .linux) (.any false) twoMaking false = some 3 ∧
    own (.unix .linux) (.any false) twoMaking true = some 4 ∧
    Separate (.unix .linux) (.any false) twoMaking :=
  ⟨rfl, rfl, (descriptors_separate _ _ _ _ reached_twoMaking).1⟩

end IoBluetooth
