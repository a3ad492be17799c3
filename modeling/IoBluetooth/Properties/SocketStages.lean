import IoBluetooth.Sys.Course

/-!
# Sockets are used at their stages

Any number of threads make, clone, use and drop sockets on Unix, their system calls interleaved in
any order and replied to in any way. Every call is made on a socket at a stage where it is in its
place, and what a live socket refers to is as it was made to be: a listener listens, a stream has
been connected or accepted, or `poll` has reported its attempt to be over without a hang-up, and
their mode is another than at first only where one of their users asked for it.
-/
namespace IoBluetooth

open Interaction Memory

variable {ι : Type} [DecidableEq ι]

theorem sockets_in_place (target : Target) (K : Kernel)
    (h : List (Label ι Request os (Except Exit (Option Socket))))
    (c : Threads ι Request os ((Shared ι × Table Handle) × Course))
    (reached : (staging target K).Reached
      ((Shared.start (.unix target), Table.empty), Course.start) h c) :
    c.shared.2.misplaced = [] ∧
      ∀ s ∈ c.shared.1.1.live, ∃ n, c.shared.1.2.refers s.raw = some n ∧
        (c.shared.2.kind s).fits (c.shared.2.condition n) := by
  have obeys (q : Request) := Obeys.both (s := (q.entry, none)) (@Request.obeys_both target K q)
    q.obeys_ends
  obtain ⟨_, v, _, kept⟩ := reached.watched (staging_invariant target K) obeys
  refine ⟨kept.placed, fun s alive => ?_⟩
  obtain ⟨σ, referring⟩ := kept.referring
  obtain ⟨n, refers, _⟩ := referring.alive alive
  exact ⟨n, refers, kept.suits.live s.raw (List.mem_map_of_mem alive) n refers⟩

/-! A thread makes a listener, and another asks for a mode in which it does not wait. -/

private def bindsAnew : Request := .make (.bind ⟨#v[6, 5, 4, 3, 2, 1]⟩ .rfcomm)

private def impatient : Request := .listener ⟨⟨3⟩, .rfcomm⟩ (.setNonblocking true)

private def opensThree : Event os := ⟨.socket true 3, ⟨3, 0⟩⟩

private def reusesThree : Event os := ⟨.setsockopt 3 .int .soReuseaddr (1 : Int), ⟨0, 0⟩⟩

private def bindsThree : Event os := ⟨.bind 3 [31, 0, 6, 5, 4, 3, 2, 1, 1, 0] 10, ⟨0, 0⟩⟩

private def listensThree : Event os := ⟨.listen 3 128, ⟨0, 0⟩⟩

private def switchesThree : Event os := ⟨.ioctlFionbio 3 1, ⟨0, 0⟩⟩

private def switchedListener : List (Label Bool Request os (Except Exit (Option Socket))) :=
  [.begins false bindsAnew, .calls false opensThree, .calls false reusesThree,
    .calls false bindsThree, .calls false listensThree, .returns false bindsAnew (.ok (some ⟨3⟩)),
    .begins true impatient, .calls true switchesThree, .returns true impatient (.ok none)]

private theorem runs_bindsAnew :
    Runs (bindsAnew.program (.unix .linux)).run [opensThree, reusesThree, bindsThree, listensThree]
      (.ok (some ⟨3⟩)) :=
  ⟨⟨3, 0⟩, _, rfl, ⟨0, 0⟩, _, rfl, ⟨0, 0⟩, _, rfl, ⟨0, 0⟩, _, rfl, rfl, rfl⟩

private theorem runs_impatient :
    Runs (impatient.program (.unix .linux)).run [switchesThree] (.ok none) :=
  ⟨⟨0, 0⟩, _, rfl, rfl, rfl⟩

private def madeListener : Socket → Kind := Function.update (fun _ => .socket) ⟨3⟩ .listener

/-- The socket 3 alone is open, in the condition `x`. -/
private def onlyThree (live : List Socket) (kind : Socket → Kind) (x : Condition) :
    (Shared Bool × Table Handle) × Course :=
  ((⟨Ledger.empty.acquire 3 true, live, .new true⟩,
    ⟨Function.update (fun _ => none) 3 (some 0), 1⟩),
    ⟨Function.update (fun _ => .fresh) 0 x, kind, []⟩)

private theorem calls_three {i : Bool} {q : Request} {e : Event os} (live : List Socket)
    (kind : Socket → Kind) (x : Condition) (on : e.call.target = some 3)
    (place : x.stage ∈ e.call.stages) (nothing : (Kernel.any true).effect (.unix .linux) e = .none)
    (unflagged : Flagged i (.new true) e (.new true)) :
    (staging .linux (.any true)).calls i q (onlyThree live kind x) e
      (onlyThree live kind (x.after q.user e)) := by
  have refers : (onlyThree live kind x).1.2.refers 3 = some 0 := rfl
  have inPlace : InPlace (onlyThree live kind x).1.2 (onlyThree live kind x).2.condition e.call := by
    intro h target
    cases on.symm.trans target
    exact ⟨0, refers, place⟩
  have kernel : ledgerOf ((Kernel.any true).effect (.unix .linux)) (Ledger.empty.acquire 3 true) e
      (Ledger.empty.acquire 3 true) := by
    rw [ledgerOf, nothing]
    exact ⟨nofun, rfl⟩
  refine ⟨⟨⟨trivial, kernel, rfl, unflagged⟩, ?_⟩, rfl, ?_, Or.inl ⟨inPlace, rfl⟩⟩
  · rw [nothing]
    rfl
  · rw [nothing, touched_of_refers on refers]
    exact (Function.update_idem _ _ _).symm

private theorem reached_switchedListener :
    ∃ c, (staging .linux (.any true)).Reached
        ((Shared.start (.unix .linux), Table.empty), Course.start) switchedListener c ∧
      c.shared = onlyThree [⟨3⟩] madeListener ⟨.listening, true, true⟩ := by
  have whole := runs_bindsAnew.begins
  have begun := (@System.Reached.start _ _ _ _ _ _ (staging .linux (.any true))
    ((Shared.start (.unix .linux), Table.empty), Course.start)).begins false bindsAnew
    ((Shared.start (.unix .linux), Table.empty), Course.start) rfl
    ⟨⟨⟨List.nil_subset _, rfl⟩, rfl⟩, rfl, trivial⟩
  have opened := begun.calls false opensThree (onlyThree [] (fun _ => .socket) .fresh) rfl
    (Begins.of_append (u := [reusesThree, bindsThree, listensThree]) whole)
    ⟨⟨⟨trivial, ⟨fun _ _ _ => Finset.notMem_empty _, rfl⟩, rfl, rfl⟩, rfl⟩, rfl, rfl,
      Or.inl ⟨nofun, rfl⟩⟩
  have reused := opened.calls false reusesThree (onlyThree [] (fun _ => .socket) .fresh) rfl
    (Begins.of_append (u := [bindsThree, listensThree]) whole)
    (calls_three _ _ _ rfl (by decide) rfl rfl)
  have named := reused.calls false bindsThree
    (onlyThree [] (fun _ => .socket) ⟨.bound, false, false⟩) rfl
    (Begins.of_append (u := [listensThree]) whole) (calls_three _ _ _ rfl (by decide) rfl rfl)
  have listens := named.calls false listensThree
    (onlyThree [] (fun _ => .socket) ⟨.listening, false, false⟩) rfl whole
    (calls_three _ _ _ rfl (by decide) rfl rfl)
  have made := listens.returns false bindsAnew (.ok (some ⟨3⟩))
    (onlyThree [⟨3⟩] madeListener ⟨.listening, false, false⟩) rfl runs_bindsAnew ⟨⟨rfl, rfl⟩, rfl⟩
  have asked := made.begins true impatient
    (onlyThree [⟨3⟩] madeListener ⟨.listening, false, false⟩) rfl
    ⟨⟨⟨List.Subset.refl _, rfl⟩, rfl⟩, rfl, rfl⟩
  have switched := asked.calls true switchesThree
    (onlyThree [⟨3⟩] madeListener ⟨.listening, true, true⟩) rfl runs_impatient.begins
    (calls_three _ _ _ rfl (by decide) rfl rfl)
  exact ⟨_, switched.returns true impatient (.ok none) _ rfl runs_impatient ⟨⟨rfl, rfl⟩, rfl⟩, rfl⟩

theorem switched_listener_in_place :
    ∃ c, (staging .linux (.any true)).Reached
        ((Shared.start (.unix .linux), Table.empty), Course.start) switchedListener c ∧
      c.shared.2.misplaced = [] ∧
        ∃ n, c.shared.1.2.refers 3 = some n ∧ Kind.listener.fits (c.shared.2.condition n) := by
  obtain ⟨c, reached, shared⟩ := reached_switchedListener
  obtain ⟨placed, kept⟩ := sockets_in_place _ _ _ c reached
  obtain ⟨n, same, fits⟩ := kept ⟨3⟩ (by rw [shared]; exact List.mem_cons_self)
  have kind : c.shared.2.kind ⟨3⟩ = .listener := by
    rw [shared]
    rfl
  exact ⟨c, reached, placed, n, same, kind ▸ fits⟩

end IoBluetooth
