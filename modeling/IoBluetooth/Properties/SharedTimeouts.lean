import IoBluetooth.Sys.Timeouts

/-!
# Clones share their timeouts

Any number of threads use clones of one stream, their system calls interleaved in any order. What
the functions that set and read timeouts return is explained by one order in which they take
effect one after the other. In that order each timeout reads as what the system keeps of the one
last set through any of the clones, and zero is refused and changes nothing. What a system keeps as
it is reads in the whole units of the platform.
-/
namespace IoBluetooth

open Interaction Rust

variable {ι : Type}

section InForce

variable (P : Platform) (round : P.timeoutType.Slot → P.timeoutType.Slot) (opt : SockOpt)

/-- What an operation makes of a timeout. -/
def lastSet (last : Option Duration) :
    ι × (BtStream × StreamFn) × Except Exit (Option Duration) → Option Duration
  | (_, _, .error _) => last
  | (_, (_, f), .ok _) =>
    match f.sets with
    | some (opt', dur) => if opt' = opt then P.keeps round dur else last
    | none => last

/-- The timeout that was last set, as it is kept. -/
def inForce (ops : List (ι × (BtStream × StreamFn) × Except Exit (Option Duration))) :
    Option Duration :=
  ops.foldl (lastSet P round opt) none

end InForce

variable {P : Platform} {round : P.timeoutType.Slot → P.timeoutType.Slot}

theorem Timeouts.settles {q : BtStream × StreamFn} {σ σ' : SockOpt → Option Duration}
    {a : Except Exit (Option Duration)} (effect : Timeouts P round q σ a σ') (i : ι)
    (opt : SockOpt) : σ' opt = lastSet P round opt (σ opt) (i, q, a) := by
  cases effect with
  | asked asks => rw [lastSet, StreamFn.sets_of_asks asks]
  | @set self f opt' dur _ sets _ =>
    rw [lastSet, sets]
    dsimp only
    by_cases same : opt' = opt
    · subst same
      rw [Function.update_self, if_pos rfl]
    · rw [Function.update_of_ne (Ne.symm same), if_neg same]
  | rejected | failed => rfl
  | @other self f a _ _ sets =>
    cases a with
    | ok _ => rw [lastSet, sets]
    | error _ => rfl

private theorem steps_inForce
    {ops : List (ι × (BtStream × StreamFn) × Except Exit (Option Duration))}
    {σ : SockOpt → Option Duration} (steps : (Timeouts P round).Steps (fun _ => none) ops σ)
    (opt : SockOpt) : σ opt = inForce P round opt ops := by
  induction steps with
  | start => rfl
  | @step ops σ i q a σ' _ effect ih =>
    rw [inForce, List.foldl_append, effect.settles i opt, ih]
    rfl

variable [DecidableEq ι]

theorem timeouts_shared (P : Platform) (round : P.timeoutType.Slot → P.timeoutType.Slot)
    (rounds : P.Rounds round) (same : BtStream → Prop)
    (h : List (Label ι (BtStream × StreamFn) os (Except Exit (Option Duration))))
    (c : Threads ι (BtStream × StreamFn) os (SockOpt → P.timeoutType.Slot))
    (reached : (clones P round same ι).Reached (fun _ => P.encode none) h c) :
    (∃ ops σ f, (Timeouts P round).Explains (fun _ => none) h ops σ f ∧
      (∀ i q a, .returns i q a ∈ h → (i, q, a) ∈ ops) ∧
      (∀ opt, ∃ dur, c.shared opt = round (P.encode dur) ∧
        inForce P round opt ops = P.keeps round dur) ∧
      (∀ i self f dur opt pre post, ops = pre ++ (i, (self, f), .ok dur) :: post →
        f.asks = some opt → dur = inForce P round opt pre) ∧
      (∀ i self f dur opt a, (i, (self, f), a) ∈ ops → f.sets = some (opt, dur) →
        (dur = some .zero ↔ a = .error (.err P.zeroTimeout)))) ∧
    ∀ dur, dur ≠ some .zero → round (P.encode dur) = P.encode dur →
      P.keeps round dur = dur.map P.kept := by
  refine ⟨?_, fun _ => Platform.keeps_of_exact⟩
  obtain ⟨ops, σ, f, explains, encodes⟩ := reached.committed (clones_commit P round rounds same ι)
  have steps := explains.steps
  refine ⟨ops, σ, f, explains, explains.returned.2, ?_, ?_, ?_⟩
  · intro opt
    obtain ⟨dur, _, stored, means⟩ := encodes opt
    exact ⟨dur, stored, (steps_inForce steps opt).symm.trans means⟩
  · -- what is in force is what the operations before have set
    intro i self f dur opt pre post whole asks
    rw [whole] at steps
    obtain ⟨σ₁, σ₂, before, effect⟩ := steps.at
    rw [← steps_inForce before opt]
    cases effect with
    | asked asks' =>
      cases asks.symm.trans asks'
      rfl
    | set sets _ => cases (StreamFn.sets_of_asks asks).symm.trans sets
    | other none _ => cases asks.symm.trans none
  · intro i self f dur opt a member sets
    obtain ⟨pre, post, whole⟩ := List.append_of_mem member
    rw [whole] at steps
    obtain ⟨σ₁, σ₂, before, effect⟩ := steps.at
    constructor
    · rintro rfl
      cases effect with
      | asked asks => cases (StreamFn.sets_of_asks asks).symm.trans sets
      | set sets' positive =>
        cases sets.symm.trans sets'
        exact absurd rfl positive
      | rejected _ => rfl
      | failed positive => exact absurd sets (positive opt)
      | other _ none => cases sets.symm.trans none
    · intro wrong
      cases effect with
      | asked | set => cases wrong
      | rejected sets' =>
        cases sets.symm.trans sets'
        rfl
      | failed _ => cases P <;> cases wrong
      | other _ none => cases sets.symm.trans none

/-! On Linux, where 250 ticks make a second, a thread sets a timeout of 300 nanoseconds, and
another, which uses a clone, reads 4 milliseconds. -/

private def linux : Platform := .unix .linux

private def ticked (tv : Timeval) : Timeval :=
  if tv.tvSec < (2 ^ 63 - 1) / 250 - 1 then
    let ticks := tv.tvSec * 250 + (tv.tvUsec + 3999) / 4000
    ⟨ticks / 250, ticks % 250 * 4000⟩
  -- a timeout that is too long is none
  else ⟨0, 0⟩

private theorem rounds_ticked : linux.Rounds ticked where
  none := show ticked ⟨0, 0⟩ = ⟨0, 0⟩ by decide
  proper d _ := by
    change Unix.Proper (ticked (Unix.clamped d))
    obtain ⟨nonneg, _, nonneg', lt⟩ := Unix.proper_clamped d
    rw [ticked]
    split
    · refine ⟨?_, ?_, ?_, ?_⟩
      all_goals simp only [Unix.Socket.timeTMax]
      all_goals omega
    · exact ⟨by decide, by decide, by decide, by decide⟩

private def fraction : Duration := ⟨0, 300, Duration.zero.secs_lt, by decide⟩

private def tick : Duration := ⟨0, 4000000, Duration.zero.secs_lt, by decide⟩

private def pausing : BtStream × StreamFn := (⟨⟨5⟩, .rfcomm⟩, .setReadTimeout (some fraction))

private def asking : BtStream × StreamFn := (⟨⟨9⟩, .rfcomm⟩, .readTimeout)

private def paused : Event os := ⟨.setsockopt 5 .timeval .soRcvtimeo (⟨0, 1⟩ : Timeval), ⟨0, 0⟩⟩

private def asked : Event os :=
  ⟨.getsockopt 9 .timeval .soRcvtimeo, ⟨⟨0, 0⟩, (⟨0, 4000⟩ : Timeval), 16⟩⟩

private def pause : List (Label Bool (BtStream × StreamFn) os (Except Exit (Option Duration))) :=
  [.begins false pausing, .begins true asking, .calls false paused, .calls true asked,
    .returns true asking (.ok (some tick)), .returns false pausing (.ok none)]

private theorem reached_pause :
    ∃ c, (clones linux ticked (fun _ => True) Bool).Reached (fun _ => linux.encode none)
      pause c := by
  have payload : linux.encode (some fraction) = (⟨0, 1⟩ : Timeval) :=
    show Unix.clamped fraction = ⟨0, 1⟩ by decide
  have sets : Runs (pausing.2.timeout linux pausing.1).run [paused] (.ok none) := by
    rw [StreamFn.timeout_of_sets rfl, Socket.setTimeout_eq, if_neg (by decide), payload]
    exact Runs.run_bind ((runs_checked (.setsockopt 5 .timeval .soRcvtimeo _) id _ _).mpr
      ⟨⟨0, 0⟩, rfl, Or.inr ⟨by decide, rfl⟩⟩) (.run_pure _)
  have asks : Runs (asking.2.timeout linux asking.1).run [asked] (.ok (some tick)) :=
    show Runs (Unix.Socket.timeout ⟨9⟩ .soRcvtimeo).run [asked] (.ok (some tick)) from
      ⟨⟨⟨0, 0⟩, (⟨0, 4000⟩ : Timeval), 16⟩, [], rfl, rfl, rfl⟩
  have first := (@System.Reached.start _ _ _ _ _ _ (clones linux ticked (fun _ => True) Bool)
    (fun _ => linux.encode none)).begins false pausing _ rfl ⟨trivial, rfl⟩
  have second := first.begins true asking _ rfl ⟨trivial, rfl⟩
  have third := second.calls false paused _ rfl sets.begins (.set (by decide))
  have fourth := third.calls true asked _ rfl asks.begins (.get (by decide) rfl rfl)
  have fifth := fourth.returns true asking (.ok (some tick)) _ rfl asks rfl
  have sixth := fifth.returns false pausing (.ok none) _ rfl sets rfl
  exact ⟨_, sixth⟩

theorem tick_read_back :
    ∃ ops σ f, (Timeouts linux ticked).Explains (fun _ => none) pause ops σ f ∧
      (true, asking, .ok (some tick)) ∈ ops := by
  obtain ⟨c, reached⟩ := reached_pause
  obtain ⟨⟨ops, σ, f, explains, returned, _⟩, _⟩ :=
    timeouts_shared _ _ rounds_ticked _ _ c reached
  exact ⟨ops, σ, f, explains, returned true asking _ (by simp [pause])⟩

end IoBluetooth
