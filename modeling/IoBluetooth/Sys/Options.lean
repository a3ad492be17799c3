import IoBluetooth.Sys.Runs

/-!
# Socket options

A system that keeps the value of every option as it was set, and what `setsockopt` and
`getsockopt` ensure in it.
-/
namespace IoBluetooth

open Interaction

/-- The values of the options of type `T`, by socket. -/
abbrev Options (T : OptType) := Handle → SockOpt → T.Slot

variable {T : OptType}

def Options.set (o : Options T) (s : Handle) (opt : SockOpt) (value : T.Slot) : Options T :=
  fun s' opt' => if s' = s ∧ opt' = opt then value else o s' opt'

@[simp] theorem Options.set_self (o : Options T) (s : Handle) (opt : SockOpt) (value : T.Slot) :
    o.set s opt value s opt = value := if_pos ⟨rfl, rfl⟩

@[simp] theorem Options.set_same (o : Options T) (s : Handle) (opt : SockOpt) :
    o.set s opt (o s opt) = o := by
  funext s' opt'
  rw [Options.set]
  split
  · next same => rw [same.1, same.2]
  · rfl

/-- Options are set and read without a failure, and a value that is read is the one last set. -/
inductive KeepsOptions (T : OptType) : Environment os (Options T)
  | set {o s opt payload} {r : Ret} : r.value ≠ -1 →
      KeepsOptions T o ⟨.setsockopt s T opt payload, r⟩ (o.set s opt payload)
  | get {o s opt} {r : GetsockoptReply T} : r.ret.value ≠ -1 → r.slot = o s opt →
      r.len = T.size → KeepsOptions T o ⟨.getsockopt s T opt, r⟩ o

theorem ensures_setsockopt (sock : Socket) (opt : SockOpt) (payload : T.Slot) (o : Options T)
    (Q : Except Exit Unit → Options T → Prop) :
    Ensures (KeepsOptions T) (setsockopt T sock opt payload).run o Q ↔
      Q (.ok ()) (o.set sock.raw opt payload) := by
  rw [setsockopt, ensures_sys_bind]
  constructor
  · rintro ⟨_, h⟩
    exact h ⟨0, 0⟩ _ (.set (by decide))
  · intro h
    refine ⟨⟨⟨0, 0⟩, _, .set (by decide)⟩, fun r o' reply => ?_⟩
    cases reply with
    | set passed =>
      rw [cvt, if_neg passed]
      exact h

theorem ensures_getsockopt (sock : Socket) (opt : SockOpt) (o : Options T)
    (Q : Except Exit T.Slot → Options T → Prop) :
    Ensures (KeepsOptions T) (getsockopt T sock opt).run o Q ↔ Q (.ok (o sock.raw opt)) o := by
  rw [getsockopt, ensures_sys_bind]
  have answer : KeepsOptions T o ⟨.getsockopt sock.raw T opt, ⟨⟨0, 0⟩, o sock.raw opt, T.size⟩⟩ o :=
    .get (show (0 : Int) ≠ -1 by decide) rfl rfl
  constructor
  · rintro ⟨_, h⟩
    have last := h _ _ answer
    rw [cvt, if_neg (show (0 : Int) ≠ -1 by decide), if_pos rfl] at last
    exact last
  · intro h
    refine ⟨⟨_, _, answer⟩, fun r o' reply => ?_⟩
    cases reply with
    | get passed same sized =>
      rw [cvt, if_neg passed, if_pos sized, same]
      exact h

end IoBluetooth
