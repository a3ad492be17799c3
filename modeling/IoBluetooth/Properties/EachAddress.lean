import IoBluetooth.Bt.Streams
import IoBluetooth.Sys.Exclusive
import IoBluetooth.Sys.Failures

/-!
# Trying one address after another

`each_addr` draws an address, attempts it, and goes on to the next where the attempt failed.
-/
namespace IoBluetooth.Bt

open Interaction

section EachAddr

variable {σ T : Type}

/-- One attempt: its address, the calls made for it, and how it ended. -/
structure Attempt (T : Type) where
  addr : BtAddr
  trace : Trace os
  result : Except Exit T

namespace Attempt

def Failed (a : Attempt T) : Prop := ∃ e, a.result = .error (.err e)

/-- The address is drawn and then attempted. -/
def calls (a : Attempt T) : Trace os := ⟨.next, some a.addr⟩ :: a.trace

end Attempt

variable (f : σ → BtAddr → Prog os (Except Exit T × σ))

/-- Attempts in order, each of which starts from what `f` has captured by then. -/
inductive Attempts : σ → List (Attempt T) → σ → Prop
  | nil {s} : Attempts s [] s
  | cons {s a s' tried s''} : Runs (f s a.addr) a.trace (a.result, s') → Attempts s' tried s'' →
      Attempts s (a :: tried) s''

variable {f}

/-- A turn of the loop that draws an address. -/
def turnResult (a : Attempt T) (captured : σ) : Except Exit ((Option IoError × σ) ⊕ T) :=
  match a.result with
  | .ok l => .ok (.inr l)
  | .error (.err e) => .ok (.inl (some e, captured))
  | .error (.panic message) => .error (.panic message)

/-- The loop ends with an attempt that does not fail, -/
theorem turnResult_final {a : Attempt T} {s : σ} {x : Except Exit ((Option IoError × σ) ⊕ T)}
    {y : Except Exit T} (eq : x = turnResult a s)
    (final : (∃ e, x = .error e ∧ y = .error e) ∨ ∃ b, x = .ok (.inr b) ∧ y = .ok b) :
    a.result = y ∧ ¬a.Failed := by
  obtain ⟨addr, trace, result⟩ := a
  rcases final with ⟨e, rfl, rfl⟩ | ⟨b, rfl, rfl⟩
  · match result with
    | .ok l => cases eq
    | .error (.err e) => cases eq
    | .error (.panic message) =>
      cases eq
      exact ⟨rfl, nofun⟩
  · match result with
    | .ok l =>
      cases eq
      exact ⟨rfl, nofun⟩
    | .error (.err e) => cases eq
    | .error (.panic message) => cases eq

/-- and goes on with one that does. -/
theorem turnResult_next {a : Attempt T} {s : σ} {st : Option IoError × σ}
    (eq : .ok (.inl st) = turnResult a s) : ∃ e, a.result = .error (.err e) ∧ st = (some e, s) := by
  obtain ⟨addr, trace, result⟩ := a
  match result with
  | .ok l => cases eq
  | .error (.err e) =>
    cases eq
    exact ⟨e, rfl, rfl⟩
  | .error (.panic message) => cases eq

theorem runs_eachTurn (lastErr : Option IoError) (s : σ) (t : Trace os)
    (x : Except Exit ((Option IoError × σ) ⊕ T)) (run : Runs (eachTurn f (lastErr, s)).run t x) :
    (t = [⟨.next, none⟩] ∧ x = .error (.err (lastErr.getD couldNotResolve))) ∨
    ∃ (a : Attempt T) (s' : σ), Runs (f s a.addr) a.trace (a.result, s') ∧ t = a.calls ∧
      x = turnResult a s' := by
  obtain ⟨r, u, rfl, rest⟩ := (runs_sys_bind _ _ _ _).mp run
  cases r with
  | none =>
    obtain ⟨rfl, rfl⟩ := rest
    exact Or.inl ⟨rfl, rfl⟩
  | some addr =>
    rcases (runs_run_bind _ _ _ _).mp rest with ⟨e, failed, _⟩ | ⟨v, w, ⟨y, s'⟩, rfl, tried, last⟩
    · obtain ⟨_, _, wrong⟩ := (runs_run_lift _ _ _).mp failed
      cases wrong
    · obtain ⟨_, inner, same⟩ := (runs_run_lift _ _ _).mp tried
      cases same
      have ended : w = [] ∧ x = turnResult ⟨addr, v, y⟩ s' := by
        match y with
        | .ok l => exact last
        | .error (.err e) => exact last
        | .error (.panic message) => exact last
      obtain ⟨rfl, rfl⟩ := ended
      exact Or.inr ⟨⟨addr, v, y⟩, s', inner, congrArg _ (List.append_nil v), rfl⟩

theorem begins_eachTurn (lastErr : Option IoError) (s : σ) (t : Trace os)
    (begun : Begins (eachTurn f (lastErr, s)).run t) :
    t = [] ∨ t = [⟨.next, none⟩] ∨
    ∃ addr u, t = ⟨.next, some addr⟩ :: u ∧ Begins (f s addr) u := by
  rcases begins_sys_bind _ _ _ begun with rfl | ⟨r, u, rfl, rest⟩
  · exact Or.inl rfl
  · cases r with
    | none =>
      cases rest
      exact Or.inr (Or.inl rfl)
    | some addr =>
      refine Or.inr (Or.inr ⟨addr, u, rfl, ?_⟩)
      rcases begins_bind _ _ u rest with first | ⟨v, w, y, rfl, tried, last⟩
      · exact begins_lift first
      · obtain ⟨⟨z, s'⟩, inner, rfl⟩ := (runs_run_lift _ _ _).mp tried
        have ended : w = [] := by
          match z with
          | .ok l => exact last
          | .error (.err e) => exact last
          | .error (.panic message) => exact last
        rw [ended, List.append_nil]
        exact inner.begins

/-! ### Which addresses are attempted -/

variable (f) in
/-- From `s`, of the addresses `addrs` all but `rest` are drawn and attempted. An attempt that
does not fail settles it; otherwise the last failure is passed on, or `own` where there is none. -/
inductive Outcome (s : σ) (own : Except Exit T) :
    List BtAddr → List BtAddr → Trace os → Except Exit T → Prop
  | settled {before last s' rest} : Attempts f s (before ++ [last]) s' →
      (∀ a ∈ before, a.Failed) → ¬last.Failed →
      Outcome s own ((before ++ [last]).map Attempt.addr ++ rest) rest
        ((before ++ [last]).flatMap Attempt.calls) last.result
  | exhausted {tried s'} : Attempts f s tried s' → (∀ a ∈ tried, a.Failed) →
      Outcome s own (tried.map Attempt.addr) []
        (tried.flatMap Attempt.calls ++ [⟨.next, none⟩])
        ((tried.getLast?.map Attempt.result).getD own)

theorem Outcome.single {s s' : σ} {a : Attempt T} {own : Except Exit T} {rest : List BtAddr}
    (run : Runs (f s a.addr) a.trace (a.result, s')) (settles : ¬a.Failed) :
    Outcome f s own (a.addr :: rest) rest a.calls a.result := by
  have only := @settled _ _ f s own [] a s' rest (.cons run .nil) nofun settles
  simpa using only

/-- One more failure in front. -/
theorem Outcome.cons {s s' : σ} {a : Attempt T} {own y : Except Exit T} {addrs rest : List BtAddr}
    {t : Trace os} (run : Runs (f s a.addr) a.trace (a.result, s')) (failed : a.Failed)
    (later : Outcome f s' a.result addrs rest t y) :
    Outcome f s own (a.addr :: addrs) rest (a.calls ++ t) y := by
  cases later with
  | @settled before last _ _ attempts before_failed settles =>
    exact @settled _ _ f s own (a :: before) last _ rest (.cons run attempts)
      (List.forall_mem_cons.mpr ⟨failed, before_failed⟩) settles
  | @exhausted tried _ attempts all_failed =>
    have all := @exhausted _ _ f s own (a :: tried) _ (.cons run attempts)
      (List.forall_mem_cons.mpr ⟨failed, all_failed⟩)
    have last : ((a :: tried).getLast?.map Attempt.result).getD own =
        (tried.getLast?.map Attempt.result).getD a.result := by
      rw [List.getLast?_cons]
      cases tried.getLast? <;> rfl
    rw [last] at all
    simpa using all

/-- An environment in which the caller's iterator has `left w` left in `w`. -/
structure Iterates {W : Type} (E : Environment os W) (left : W → List BtAddr) : Prop where
  replies : ∀ w, ∃ w', E w ⟨.next, (left w).head?⟩ w'
  drawn : ∀ w r w', E w ⟨.next, r⟩ w' → r = (left w).head? ∧ left w' = (left w).tail
  other : ∀ w e w', E w e w' → e.call ≠ .next → left w' = left w

section Iterator

variable {W : Type} {E : Environment os W} {left : W → List BtAddr}

theorem Iterates.kept (iterates : Iterates E left) {t : Trace os} {w w' : W}
    (others : ∀ e ∈ t, e.call ≠ .next) (steps : Steps E w t w') : left w' = left w := by
  induction steps with
  | nil w => rfl
  | cons step _ ih =>
    rw [ih fun e member => others e (List.mem_cons_of_mem _ member)]
    exact iterates.other _ _ _ step (others _ List.mem_cons_self)

/-- Only `each_addr` itself draws from the iterator. -/
def Drawless (f : σ → BtAddr → Prog os (Except Exit T × σ)) : Prop :=
  ∀ s addr, Emits (f s addr) (·.call ≠ .next)

theorem Iterates.attempted (iterates : Iterates E left) (drawless : Drawless f) {s s' : σ}
    {a : Attempt T} {w w' : W} (run : Runs (f s a.addr) a.trace (a.result, s'))
    (steps : Steps E w a.calls w') : left w = a.addr :: left w' := by
  obtain ⟨v, draw, rest⟩ := (steps_cons _ _ _ _ _).mp steps
  obtain ⟨first, tail⟩ := iterates.drawn _ _ _ draw
  have kept : left w' = left v :=
    iterates.kept ((drawless s a.addr).runs a.trace _ run) rest
  rw [kept, tail]
  exact List.eq_cons_of_mem_head? first.symm

/-- Induction over the turns of the loop that were completed. -/
theorem Iterates.outcome (iterates : Iterates E left) (drawless : Drawless f)
    (st : Option IoError × σ) (t : Trace os) (y : Except Exit T)
    (run : Runs (repeating (eachTurn f) st).run t y) (w w' : W) (steps : Steps E w t w') :
    Outcome f st.2 (.error (.err (st.1.getD couldNotResolve))) (left w) (left w') t y := by
  have none_left (lastErr : Option IoError) (s : σ) (w w' : W)
      (steps : Steps E w [⟨.next, none⟩] w') :
      Outcome f s (.error (.err (lastErr.getD couldNotResolve))) (left w) (left w')
        [⟨.next, none⟩] (.error (.err (lastErr.getD couldNotResolve))) := by
    obtain ⟨none, tail⟩ := iterates.drawn _ _ _ ((steps_singleton _ _ _ _).mp steps)
    rw [tail, List.head?_eq_none_iff.mp none.symm]
    exact .exhausted .nil nofun
  -- whatever the iterator has left when a round begins
  revert w w'
  refine runs_repeating_induction ?_ ?_ ?_ st t y run
  · -- the loop ends with an error: the iterator is finished, or an attempt panicked
    rintro ⟨lastErr, s⟩ t e round w w' steps
    rcases runs_eachTurn lastErr s t _ round with ⟨rfl, eq⟩ | ⟨a, s', inner, rfl, eq⟩
    · cases eq
      exact none_left lastErr s w w' steps
    · obtain ⟨result, settles⟩ := turnResult_final eq (Or.inl ⟨e, rfl, rfl⟩)
      rw [iterates.attempted drawless inner steps, ← result]
      exact .single inner settles
  · -- it ends with the first success
    rintro ⟨lastErr, s⟩ t b round w w' steps
    rcases runs_eachTurn lastErr s t _ round with ⟨rfl, eq⟩ | ⟨a, s', inner, rfl, eq⟩
    · cases eq
    · obtain ⟨result, settles⟩ := turnResult_final eq (Or.inr ⟨b, rfl, rfl⟩)
      rw [iterates.attempted drawless inner steps, ← result]
      exact .single inner settles
  · -- a failed attempt goes in front of what the later rounds do
    rintro ⟨lastErr, s⟩ st' t u y round _ ih w w' steps
    rcases runs_eachTurn lastErr s t _ round with ⟨rfl, eq⟩ | ⟨a, s'', inner, rfl, eq⟩
    · cases eq
    · obtain ⟨e, failed, rfl⟩ := turnResult_next eq
      obtain ⟨v, before, after⟩ := (steps_append _ _ _ _ _).mp steps
      rw [iterates.attempted drawless inner before]
      refine .cons inner ⟨e, failed⟩ ?_
      rw [failed]
      exact ih v w' after

/-- Where every attempt returns, so does the loop: each turn but the last draws an address. -/
theorem Iterates.returns (iterates : Iterates E left) (drawless : Drawless f)
    (returns : ∀ s addr, Returns E (f s addr)) (s : σ) : Returns E (eachAddr f s).run := by
  intro w
  refine ensures_repeating (fun _ _ => True) (fun _ w => (left w).length) ?_ _ w trivial
  rintro ⟨lastErr, s⟩ w _
  refine (ensures_sys_bind _ _ _).mpr ⟨⟨_, iterates.replies w⟩, fun r u draw => ?_⟩
  obtain ⟨rfl, tail⟩ := iterates.drawn w r u draw
  cases first : (left w).head? with
  | none => exact trivial
  | some addr =>
    refine (ensures_run_bind _ _ _).mpr ((ensures_run_lift _ _).mpr ?_)
    refine (returns s addr u).traced.mono ?_
    rintro ⟨y, s'⟩ v ⟨_, t, run, steps⟩
    have kept : left v = left u := iterates.kept ((drawless s addr).runs t _ run) steps
    have fewer : (left v).length < (left w).length := by
      rw [kept, tail, List.eq_cons_of_mem_head? first]
      exact Nat.lt_succ_self _
    match y with
    | .ok l => exact trivial
    | .error (.err e) => exact ⟨trivial, fewer⟩
    | .error (.panic message) => exact trivial

end Iterator
end EachAddr

/-! ### The sockets of the attempts -/

section Sockets

variable {P : Platform} {T U : Type} {handle : T → Handle} {g : BtAddr → Sys T}

/-- A failed attempt has closed what it opened. -/
theorem neutral_turn (constructs : ∀ addr, Constructs P.effect handle (g addr))
    (st st' : Option IoError × Unit) (t : Trace os) (L M : Ledger Handle)
    (round : Runs (eachTurn (attempt g) st).run t (.ok (.inl st')))
    (steps : Steps (ledgerOf P.effect) L t M) : M = L := by
  rcases runs_eachTurn st.1 st.2 t _ round with ⟨_, eq⟩ | ⟨a, s', run, rfl, eq⟩
  · cases eq
  · obtain ⟨e, failed, _⟩ := turnResult_next eq
    obtain ⟨N, ⟨_, drawn⟩, rest⟩ := (steps_cons _ _ _ _ _).mp steps
    obtain ⟨y, inner, same⟩ := (runs_map _ _ _ _).mp run
    obtain rfl : y = .error (.err e) := failed ▸ (congrArg Prod.fst same).symm
    exact constructs a.addr L N a.trace _ M drawn inner rest

theorem atMostOne_turn (atMostOne : ∀ addr, AtMostOne P.effect (g addr).run)
    (st : Option IoError × Unit) : AtMostOne P.effect (eachTurn (attempt g) st).run := by
  intro L t M begun steps
  rcases begins_eachTurn st.1 st.2 t begun with rfl | rfl | ⟨addr, u, rfl, tried⟩
  · exact Or.inl ((steps_nil _ _ _).mp steps)
  · exact Or.inl ((steps_singleton _ _ _ _).mp steps).2
  · obtain ⟨N, ⟨_, drawn⟩, rest⟩ := (steps_cons _ _ _ _ _).mp steps
    rw [show N = L from drawn] at rest
    exact (atMostOne addr).map _ L u M tried rest

/-- The place of one event in two traces. -/
private theorem append_eq_append_cons {t t' u v : Trace os} {e : Event os}
    (same : t ++ t' = u ++ e :: v) :
    (∃ x, u = t ++ x ∧ t' = x ++ e :: v) ∨ ∃ x, t = u ++ e :: x := by
  rcases List.append_eq_append_iff.mp same with ⟨x, before, after⟩ | ⟨x, before, after⟩
  · exact Or.inl ⟨x, before, after⟩
  · cases x with
    | nil => exact Or.inl ⟨[], by simp [before], after.symm⟩
    | cons e' x =>
      obtain ⟨rfl, _⟩ := List.cons.inj after
      exact Or.inr ⟨x, before⟩

/-- Whenever an address is drawn, nothing is open that was not open before. -/
theorem closed_at_draw (constructs : ∀ addr, Constructs P.effect handle (g addr))
    (drawless : Drawless (attempt g)) (st : Option IoError × Unit) (t : Trace os)
    (begun : Begins (repeating (eachTurn (attempt g)) st).run t) (u v : Trace os)
    (r : Option BtAddr) (drawn : t = u ++ ⟨.next, r⟩ :: v) (L M : Ledger Handle)
    (steps : Steps (ledgerOf P.effect) L u M) : M = L := by
  -- within a turn there is only the draw that begins it
  have within (st : Option IoError × Unit) (t u v : Trace os) (M : Ledger Handle)
      (begun : Begins (eachTurn (attempt g) st).run t) (drawn : t = u ++ ⟨.next, r⟩ :: v)
      (steps : Steps (ledgerOf P.effect) L u M) : M = L := by
    cases u with
    | nil => exact (steps_nil _ _ _).mp steps
    | cons e u =>
      rcases begins_eachTurn st.1 st.2 t begun with rfl | rfl | ⟨addr, w, rfl, tried⟩
      · cases drawn
      · simp at drawn
      · obtain ⟨_, rfl⟩ := List.cons.inj drawn
        exact absurd rfl (drawless st.2 addr _ tried ⟨.next, r⟩ (by simp))
  revert u v M
  refine begins_repeating_induction ?_ ?_ st t begun
  · intro st t first u v drawn M steps
    exact within st t u v M first drawn steps
  · intro st st' t t' round ih u v drawn M steps
    rcases append_eq_append_cons drawn with ⟨x, rfl, later⟩ | ⟨x, inner⟩
    · -- the draw is in a later round, and this one has closed what it opened
      obtain ⟨N, before, after⟩ := (steps_append _ _ _ _ _).mp steps
      obtain rfl := neutral_turn constructs st st' t L N round before
      exact ih x v later M after
    · -- it is the draw of this round
      exact within st t u x M round.begins inner steps

theorem fails_turn (fails : ∀ addr, Fails (g addr) Exit.IsErr) (st : Option IoError × Unit) :
    Fails (eachTurn (attempt g) st) Exit.IsErr := by
  intro t x round
  rcases runs_eachTurn st.1 st.2 t _ round with ⟨_, eq⟩ | ⟨a, s', run, _, eq⟩
  · cases eq
    exact ⟨_, rfl⟩
  · obtain ⟨result, settles⟩ := turnResult_final eq (Or.inl ⟨x, rfl, rfl⟩)
    obtain ⟨y, inner, same⟩ := (runs_map _ _ _ _).mp run
    rw [show y = .error x from (congrArg Prod.fst same).symm.trans result] at inner
    obtain ⟨e, rfl⟩ := fails a.addr _ x inner
    exact absurd ⟨e, result⟩ settles

end Sockets

/-! ### Both together -/

variable {T U : Type}

/-- A function of the crate that attempts `g` on each of the caller's addresses. -/
structure TriesEach (P : Platform) (g : BtAddr → Sys T) (make : T → U) (p : Sys U) : Prop where
  outcome {W : Type} {E : Environment os W} {left : W → List BtAddr} : Iterates E left →
    ∀ w t y w', Runs p.run t y → Steps E w t w' →
      ∃ z, y = z.map make ∧ Outcome (attempt g) () (.error (.err couldNotResolve))
        (left w) (left w') t z
  returns {W : Type} {E : Environment os W} {left : W → List BtAddr} : Iterates E left →
    (∀ addr, Returns E (g addr).run) → ∀ w, Ensures E p.run w fun y w' =>
      ∃ t z, y = z.map make ∧ Outcome (attempt g) () (.error (.err couldNotResolve))
        (left w) (left w') t z
  fails : Fails p Exit.IsErr
  closed {u v r L M} : Begins p.run (u ++ ⟨.next, r⟩ :: v) → Steps (ledgerOf P.effect) L u M →
    M = L
  open_le {t L M} : Begins p.run t → Steps (ledgerOf P.effect) L t M →
    L.held ⊆ M.held ∧ (M.held \ L.held).card ≤ 1

theorem ne_next_of_opens (e : Event os) (opens : e.call.opens = true) : e.call ≠ .next := by
  intro draws
  rw [draws] at opens
  cases opens

theorem ne_next_of_setsUp (e : Event os) (setsUp : SetsUp e) : e.call ≠ .next := by
  intro draws
  rw [SetsUp, draws] at setsUp
  cases setsUp

theorem triesEach {P : Platform} {protocol : BtProtocol} {handle : T → Handle} {g : BtAddr → Sys T}
    (make : T → U) (uses : ∀ addr, UsesSocket P protocol handle (·.call.opens = true) (g addr))
    (fails : ∀ addr, Fails (g addr) Exit.IsErr) :
    TriesEach P g make (make <$> eachAddr (attempt g) ()) := by
  have constructs (addr : BtAddr) := ((uses addr).mono effect_of_opens).constructs
  have atMostOne (addr : BtAddr) := ((uses addr).mono effect_of_opens).atMostOne
  have drawless : Drawless (attempt g) := fun _ addr =>
    (((uses addr).mono ne_next_of_opens).emits ne_next_of_setsUp).map _
  constructor
  · intro W E left iterates w t y w' run steps
    rw [ExceptT.run_map] at run
    obtain ⟨z, inner, rfl⟩ := (runs_map _ _ _ _).mp run
    exact ⟨z, rfl, iterates.outcome drawless _ t z inner w w' steps⟩
  · intro W E left iterates returns w
    have attempts (s : Unit) (addr : BtAddr) : Returns E (attempt g s addr) :=
      fun w => (ensures_map _ _ _).mpr (returns addr w)
    rw [ExceptT.run_map, ensures_map]
    refine (iterates.returns drawless attempts () w).traced.mono ?_
    rintro z w' ⟨_, t, run, steps⟩
    exact ⟨t, z, rfl, iterates.outcome drawless _ t z run w w' steps⟩
  · intro t x run
    rw [ExceptT.run_map] at run
    obtain ⟨z, inner, eq⟩ := (runs_map _ _ _ _).mp run
    cases z with
    | ok a => cases eq
    | error e =>
      cases eq
      exact fails_repeating (fails_turn fails) _ t x inner
  · intro u v r L M begun steps
    rw [ExceptT.run_map] at begun
    exact closed_at_draw constructs drawless _ _ (begins_map begun) u v r rfl L M steps
  · intro t L M begun steps
    rw [ExceptT.run_map] at begun
    have one : AtMostOne P.effect (eachAddr (attempt g) ()).run :=
      atMostOne_repeating (atMostOne_turn atMostOne)
        (fun st L t st' M round steps => neutral_turn constructs st st' t L M round steps) _
    rcases one L t M (begins_map begun) steps with rfl | ⟨h, _, fresh, rfl⟩
    · simp
    · simp [Ledger.acquire, fresh]

/-- `each_addr` attempts the addresses in order until one attempt does not fail, and so do `bind`
and `connect`, which close the socket of a failed attempt before they go on. -/
theorem each_address (P : Platform) (protocol : BtProtocol) :
    (∀ {σ T W : Type} (f : σ → BtAddr → Prog os (Except Exit T × σ)) (E : Environment os W)
      (left : W → List BtAddr), Drawless f → Iterates E left → ∀ s w,
      (∀ t y w', Runs (eachAddr f s).run t y → Steps E w t w' →
        Outcome f s (.error (.err couldNotResolve)) (left w) (left w') t y) ∧
      ((∀ s addr, Returns E (f s addr)) →
        Ensures E (eachAddr f s).run w fun y w' => ∃ t,
          Outcome f s (.error (.err couldNotResolve)) (left w) (left w') t y)) ∧
    TriesEach P (fun addr => IoBluetooth.BtListener.bind P addr protocol) BtListener.mk
      (BtListener.bind P protocol) ∧
    TriesEach P (fun addr => IoBluetooth.BtStream.connect P addr protocol) BtStream.mk
      (BtStream.connect P protocol) := by
  refine ⟨?_, ?_, ?_⟩
  · intro σ T W f E left drawless iterates s w
    constructor
    · intro t y w' run steps
      exact iterates.outcome drawless _ t y run w w' steps
    · intro returns
      refine (iterates.returns drawless returns s w).traced.mono ?_
      rintro y w' ⟨_, t, run, steps⟩
      exact ⟨t, iterates.outcome drawless _ t y run w w' steps⟩
  · exact triesEach _ (fun addr => IoBluetooth.BtListener.uses_bind addr protocol)
      fun addr => IoBluetooth.BtListener.fails_bind P addr protocol
  · exact triesEach _ (fun addr => IoBluetooth.BtStream.uses_connect addr protocol)
      fun addr => IoBluetooth.BtStream.fails_connect P addr protocol

/-- A list of addresses, drawn from the front. The system may give any reply. -/
def iterator : Environment os (List BtAddr) := fun addrs e addrs' =>
  match e with
  | ⟨.next, r⟩ => r = addrs.head? ∧ addrs' = addrs.tail
  | _ => addrs' = addrs

theorem iterates_iterator : Iterates iterator id where
  replies addrs := ⟨addrs.tail, rfl, rfl⟩
  drawn _ _ _ draw := draw
  other addrs e addrs' step ne := by
    obtain ⟨c, r⟩ := e
    cases c <;> first | exact step | exact absurd rfl ne

theorem responds_iterator : Responds iterator := by
  intro addrs c
  obtain ⟨r⟩ := c.replied
  cases c with
  | next => exact ⟨addrs.head?, addrs.tail, rfl, rfl⟩
  | _ => exact ⟨r, addrs, rfl⟩

/-- An attempt that fails once and counts. -/
def secondTime (n : Nat) (_ : BtAddr) : Prog os (Except Exit Nat × Nat) :=
  pure (if n = 0 then .error (.err (.os EINVAL)) else .ok n, n + 1)

def twoAddresses : List BtAddr := [.napSap 0 1, .napSap 0 2]

theorem two_addresses :
    (Ensures iterator (eachAddr secondTime 0).run twoAddresses fun y left =>
      ∃ t, Outcome secondTime 0 (.error (.err couldNotResolve)) twoAddresses left t y) ∧
    Ensures iterator (BtListener.bind (.unix .linux) .rfcomm).run twoAddresses fun y left =>
      ∃ t z, y = z.map BtListener.mk ∧ Outcome
        (attempt fun addr => IoBluetooth.BtListener.bind (.unix .linux) addr .rfcomm) ()
        (.error (.err couldNotResolve)) twoAddresses left t z := by
  obtain ⟨each, bind, _⟩ := each_address (.unix .linux) .rfcomm
  constructor
  · exact (each secondTime iterator id (fun _ _ => emits_pure _) iterates_iterator 0 _).2
      fun _ _ _ => trivial
  · have attempts (addr : BtAddr) := IoBluetooth.BtListener.returns_bind (.unix .linux) addr .rfcomm
      responds_iterator
    exact bind.returns iterates_iterator attempts twoAddresses

end IoBluetooth.Bt
