import IoBluetooth.Sys.Connection

/-!
# Bytes arrive in order, once

Any number of threads use the two ends of a connection, whichever platforms these are on and
however the threads' system calls interleave. What every function reports is explained by one order
in which the functions take effect one after the other. In that order the bytes received at one end
are those sent at the other, none lost, repeated or made up; a peek sees the next of them; and a
count of zero ends the stream only when everything that is ever sent has been received. All of this
is about a connection that is never reset.
-/
namespace IoBluetooth

open Interaction

variable {ι : Type}

/-- What the functions have happened, in the order in which they took effect. -/
def happened (ops : List (ι × Use × Except Exit (Nat × List UInt8))) : List (Side × Move UInt8) :=
  ops.map fun (_, q, a) => (q.side, q.f.move a)

private theorem steps_happened {ops : List (ι × Use × Except Exit (Nat × List UInt8))}
    {D : Duplex UInt8} (steps : stream.Steps Duplex.new ops D) : Duplex.Does.Steps (happened ops) D := by
  induction steps with
  | start => exact .start
  | step _ effect ih =>
    rw [happened, List.map_append]
    exact ih.step effect.2

variable [DecidableEq ι]

theorem bytes_in_order (P : Side → Platform) (ends : Side → BtStream → Prop)
    (h : List (Label ι Use os (Except Exit (Nat × List UInt8))))
    (c : Threads ι Use os (Duplex UInt8)) (reached : (connection P ends ι).Reached Duplex.new h c) :
    ∃ ops D f, stream.Explains Duplex.new h ops D f ∧
      (∀ i q a, .returns i q a ∈ h → (i, q, a) ∈ ops) ∧
      (∀ b, taken b (happened ops) ++ D.queue b = given b.other (happened ops)) ∧
      (∀ b data pre post, happened ops = pre ++ (b, .looked data) :: post →
        taken b pre ++ data <+: given b.other (happened ops)) ∧
      (∀ b pre post, happened ops = pre ++ (b, .atEnd) :: post →
        (∀ finish, (b, .shut finish true) ∉ pre) → taken b pre = given b.other (happened ops)) := by
  obtain ⟨ops, D, f, explains, rfl⟩ := reached.committed (connection_commits P ends ι)
  have steps := steps_happened explains.steps
  refine ⟨ops, _, f, explains, explains.returned.2, steps.conserved, ?_, ?_⟩
  · intro b data pre post whole
    rw [whole] at steps ⊢
    exact steps.looked
  · intro b pre post whole listens
    rw [whole] at steps ⊢
    exact steps.complete listens

/-! A thread on Windows sends three bytes, of which two are taken, and one on Linux receives them. -/

private def platforms : Side → Platform
  | .left => .windows bthdef
  | .right => .unix .linux

private def sending : Use := ⟨.left, ⟨⟨5⟩, .rfcomm⟩, .send [1, 2, 3]⟩

private def receiving : Use := ⟨.right, ⟨⟨9⟩, .rfcomm⟩, .recv [0, 0, 0]⟩

private def sent : Event os := ⟨.send 5 [1, 2, 3] 3, ⟨2, 0⟩⟩

private def arrived : Event os := ⟨.recv 9 3 false, ⟨⟨2, 0⟩, [1, 2]⟩⟩

private def exchange : List (Label Bool Use os (Except Exit (Nat × List UInt8))) :=
  [.begins false sending, .begins true receiving, .calls false sent, .calls true arrived,
    .returns true receiving (.ok (2, [1, 2, 0])), .returns false sending (.ok (2, [1, 2, 3]))]

private theorem reached_exchange :
    ∃ c, (connection platforms (fun _ _ => True) Bool).Reached Duplex.new exchange c := by
  have sends : Runs (sending.f.transfer (platforms .left) sending.self).run [sent]
      (.ok (2, [1, 2, 3])) := by
    exact (show Runs (sending.self.send (.windows bthdef) [1, 2, 3]).run [sent] (.ok 2) from
      (runs_sys_bind _ _ _ _).mpr ⟨⟨2, 0⟩, [], rfl, rfl, rfl⟩).run_bind (.run_pure _)
  have receives : Runs (receiving.f.transfer (platforms .right) receiving.self).run [arrived]
      (.ok (2, [1, 2, 0])) :=
    (runs_sys_bind _ _ _ _).mpr ⟨⟨⟨2, 0⟩, [1, 2]⟩, [], rfl, rfl, rfl⟩
  have first := (@System.Reached.start _ _ _ _ _ _
    (connection platforms (fun _ _ => True) Bool) Duplex.new).begins false sending _ rfl
      ⟨trivial, by decide, rfl⟩
  have second := first.begins true receiving _ rfl ⟨trivial, by decide, rfl⟩
  have third := second.calls false sent _ rfl sends.begins ⟨Or.inr (by decide), .put rfl⟩
  have fourth := third.calls true arrived _ rfl receives.begins
    ⟨⟨Or.inr (by decide), rfl⟩, @Duplex.Does.took _ _ _ _ [] rfl⟩
  have fifth := fourth.returns true receiving (.ok (2, [1, 2, 0])) _ rfl receives rfl
  have sixth := fifth.returns false sending (.ok (2, [1, 2, 3])) _ rfl sends rfl
  exact ⟨_, sixth⟩

theorem two_bytes_arrive :
    ∃ ops D f, stream.Explains Duplex.new exchange ops D f ∧
      (true, receiving, .ok (2, [1, 2, 0])) ∈ ops ∧
      taken .right (happened ops) ++ D.queue .right = given .left (happened ops) := by
  obtain ⟨c, reached⟩ := reached_exchange
  obtain ⟨ops, D, f, explains, returned, through, _⟩ := bytes_in_order _ _ _ c reached
  exact ⟨ops, D, f, explains, returned true receiving _ (by simp [exchange]), through .right⟩

end IoBluetooth
