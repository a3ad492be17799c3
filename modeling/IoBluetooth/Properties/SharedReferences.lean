import IoBluetooth.Sys.References

/-!
# Clones refer to one socket

Any number of threads make, clone, use and drop sockets on Unix, their system calls interleaved in
any order. What the requests return is explained by one order in which they take effect: a clone
refers to the open socket of the system that the original refers to, and any other new socket to
one that nothing refers to yet. An open socket of the system stays open just as long as one of the
sockets that refer to it.
-/
namespace IoBluetooth

open Interaction Memory

variable {ι : Type} [DecidableEq ι]

theorem clones_refer_alike (target : Target) (K : Kernel)
    (h : List (Label ι Request os (Except Exit (Option Socket))))
    (c : Threads ι Request os (Shared ι × Table Handle))
    (reached : (referring target K).Reached (Shared.start (.unix target), Table.empty) h c) :
    ∃ ops σ f, Refers.Explains (fun _ => none) h ops σ f ∧
      (∀ i q a, .returns i q a ∈ h → (i, q, a) ∈ ops) ∧
      (∀ s n, σ s = some n ↔ s ∈ c.shared.1.live ∧ c.shared.2.refers s.raw = some n) ∧
      (∀ s ∈ c.shared.1.live, ∃ n, σ s = some n) ∧
      ((∀ i, c.jobs i = none) →
        ∀ n, (∃ fd, c.shared.2.refers fd = some n) ↔ ∃ s, σ s = some n) := by
  obtain ⟨v, ops, σ, f, shows, explains, kept⟩ :=
    reached.explained (referring_simulates target K) Request.obeys_both
  have refers (s : Socket) (n : Nat) :
      σ s = some n ↔ s ∈ c.shared.1.live ∧ c.shared.2.refers s.raw = some n := by
    rw [kept.refers]
    by_cases alive : s ∈ c.shared.1.live
    · rw [if_pos alive]
      exact ⟨fun same => ⟨alive, same⟩, And.right⟩
    · rw [if_neg alive]
      exact ⟨nofun, fun both => absurd both.1 alive⟩
  refine ⟨ops, σ, f, explains, explains.returned.2, refers, fun s alive => ?_, fun idle n => ?_⟩
  · obtain ⟨n, _, same⟩ := kept.alive alive
    exact ⟨n, same⟩
  · constructor
    · rintro ⟨fd, same⟩
      have held := (kept.tells.held fd).mpr (by rw [same]; rfl)
      -- no request is under way, so what is held is behind a socket that is alive
      rcases (kept.sound.apart.held_iff fd).mp held with alive | ⟨i, mine⟩
      · obtain ⟨s, member, rfl⟩ := List.mem_map.mp alive
        exact ⟨s, (refers s n).mpr ⟨member, same⟩⟩
      · rw [Function.comp_apply, shows.idle (idle i)] at mine
        cases mine
    · rintro ⟨s, same⟩
      exact ⟨s.raw, ((refers s n).mp same).2⟩

/-! A thread makes a socket and clones it. -/

private def socketAt (fd : Handle) : Event os := ⟨.socket true 3, ⟨fd, 0⟩⟩

private def threeAnew : Request := .make (.new .rfcomm)

private def ofThree : Request := .make (.duplicate ⟨3⟩)

private def duplicated : Trace os :=
  [⟨.tryCloexecLoad, true⟩, ⟨.fcntlDupfdCloexec 3, ⟨4, 0⟩⟩, ⟨.ioctlFioclex 4, ⟨0, 0⟩⟩]

private def cloned : List (Label Bool Request os (Except Exit (Option Socket))) :=
  [.begins false threeAnew, .calls false (socketAt 3), .returns false threeAnew (.ok (some ⟨3⟩)),
    .begins true ofThree, .calls true ⟨.tryCloexecLoad, true⟩,
    .calls true ⟨.fcntlDupfdCloexec 3, ⟨4, 0⟩⟩, .calls true ⟨.ioctlFioclex 4, ⟨0, 0⟩⟩,
    .returns true ofThree (.ok (some ⟨4⟩))]

private theorem runs_ofThree :
    Runs (ofThree.program (.unix .linux)).run duplicated (.ok (some ⟨4⟩)) :=
  ⟨true, _, rfl, ⟨4, 0⟩, _, rfl, ⟨0, 0⟩, _, rfl, rfl, rfl⟩

private theorem reached_cloned :
    ∃ c, (referring .linux (.any true)).Reached (Shared.start (.unix .linux), Table.empty)
      cloned c ∧ c.shared.1.live = [⟨4⟩, ⟨3⟩] := by
  have made : Runs (threeAnew.program (.unix .linux)).run [socketAt 3] (.ok (some ⟨3⟩)) :=
    Request.runs_new .rfcomm 3 (by decide)
  have load : (Cell.new true : Cell Bool Bool).Loads true true
      ⟨[true], Function.update (fun _ => 0) true 0⟩ := .mk (Nat.le_refl _) rfl
  have first := (@System.Reached.start _ _ _ _ _ _ (referring .linux (.any true))
    (Shared.start (.unix .linux), Table.empty)).begins false threeAnew
    (Shared.start (.unix .linux), Table.empty) rfl ⟨⟨List.nil_subset _, rfl⟩, rfl⟩
  have second := first.calls false (socketAt 3)
    (⟨Ledger.empty.acquire 3 true, [], .new true⟩, _) rfl made.begins
    ⟨⟨trivial, ⟨fun _ _ _ => Finset.notMem_empty _, rfl⟩, rfl, rfl⟩, rfl⟩
  have third := second.returns false threeAnew (.ok (some ⟨3⟩))
    (⟨Ledger.empty.acquire 3 true, [⟨3⟩], .new true⟩, _) rfl made ⟨rfl, rfl⟩
  have fourth := third.begins true ofThree (_, _) rfl ⟨⟨List.Subset.refl _, rfl⟩, rfl⟩
  have loaded : Begins (ofThree.program (.unix .linux)).run [⟨.tryCloexecLoad, true⟩] :=
    Or.inr ⟨true, [], rfl, Or.inl rfl⟩
  have fifth := fourth.calls true ⟨.tryCloexecLoad, true⟩
    (⟨Ledger.empty.acquire 3 true, [⟨3⟩], ⟨[true], Function.update (fun _ => 0) true 0⟩⟩, _) rfl
    loaded ⟨⟨trivial, ⟨nofun, rfl⟩, rfl, load⟩, rfl⟩
  have copied : Begins (ofThree.program (.unix .linux)).run
      [⟨.tryCloexecLoad, true⟩, ⟨.fcntlDupfdCloexec 3, ⟨4, 0⟩⟩] :=
    Or.inr ⟨true, _, rfl, Or.inr ⟨⟨4, 0⟩, [], rfl, Or.inl rfl⟩⟩
  have sixth := fifth.calls true ⟨.fcntlDupfdCloexec 3, ⟨4, 0⟩⟩
    (⟨(Ledger.empty.acquire 3 true).acquire 4 true, [⟨3⟩],
      ⟨[true], Function.update (fun _ => 0) true 0⟩⟩, _) rfl copied
    ⟨⟨trivial, ⟨by rintro _ _ ⟨⟩; decide, rfl⟩, rfl, rfl⟩, rfl⟩
  have seventh := sixth.calls true ⟨.ioctlFioclex 4, ⟨0, 0⟩⟩ (_, _) rfl runs_ofThree.begins
    ⟨⟨trivial, ⟨nofun, rfl⟩, rfl, rfl⟩, rfl⟩
  have eighth := seventh.returns true ofThree (.ok (some ⟨4⟩)) (_, _) rfl runs_ofThree ⟨rfl, rfl⟩
  exact ⟨_, eighth, rfl⟩

theorem three_and_four_alike :
    ∃ c, (referring .linux (.any true)).Reached (Shared.start (.unix .linux), Table.empty)
        cloned c ∧
      ∃ ops σ f, Refers.Explains (fun _ => none) cloned ops σ f ∧
        (true, ofThree, .ok (some ⟨4⟩)) ∈ ops ∧ ∃ n, c.shared.2.refers 4 = some n := by
  obtain ⟨c, reached, live⟩ := reached_cloned
  obtain ⟨ops, σ, f, explains, returned, refers, alive, _⟩ := clones_refer_alike _ _ _ c reached
  obtain ⟨n, same⟩ := alive ⟨4⟩ (by rw [live]; exact List.mem_cons_self)
  exact ⟨c, reached, ops, σ, f, explains, returned true ofThree _ (by simp [cloned]), n,
    ((refers ⟨4⟩ n).mp same).2⟩

end IoBluetooth
