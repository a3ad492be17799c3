import IoBluetooth.Interaction.Total
import IoBluetooth.Sys.Common
import IoBluetooth.Sys.Discovery

/-!
# Runs of the crate's functions

How one foreign call, the `?` operator and `cvt_r` run. Everything said below about a
function of the crate is derived from its runs.
-/
namespace IoBluetooth

open Interaction

theorem runs_sys (c : Call) (t : Trace os) (y : Except Exit c.Reply) :
    Runs (sys c).run t y ↔ ∃ r, t = [⟨c, r⟩] ∧ y = .ok r := by
  rw [sys, runs_run_lift]
  constructor
  · rintro ⟨r, ht, hy⟩
    exact ⟨r, (runs_perform _ _ _).mp ht, hy⟩
  · rintro ⟨r, ht, hy⟩
    exact ⟨r, (runs_perform _ _ _).mpr ht, hy⟩

theorem Runs.sys (c : Call) (r : c.Reply) : Runs (IoBluetooth.sys c).run [⟨c, r⟩] (.ok r) :=
  (runs_sys c _ _).mpr ⟨r, rfl, rfl⟩

variable {α : Type}

/-- A call followed by a continuation on its reply. The reply's type reduces once the call is
known, so it must not be part of the pattern that `simp` looks for. -/
theorem runs_sys_bind (c : Call) (f : c.Reply → Sys α) (t : Trace os) (y : Except Exit α) :
    Runs (@bind Sys _ (no_index c.Reply) α (sys c) f).run t y ↔
      ∃ r u, t = ⟨c, r⟩ :: u ∧ Runs (f r).run u y := by
  rw [runs_run_bind]
  constructor
  · rintro (⟨e, he, _⟩ | ⟨u, v, a, rfl, hc, hf⟩)
    · obtain ⟨r, _, eq⟩ := (runs_sys _ _ _).mp he
      cases eq
    · obtain ⟨r, rfl, eq⟩ := (runs_sys _ _ _).mp hc
      cases eq
      exact ⟨a, v, rfl, hf⟩
  · rintro ⟨r, u, rfl, hf⟩
    exact Or.inr ⟨[⟨c, r⟩], u, r, rfl, (runs_sys _ _ _).mpr ⟨r, rfl, rfl⟩, hf⟩

theorem begins_sys_bind (c : Call) (f : c.Reply → Sys α) (t : Trace os)
    (h : Begins (@bind Sys _ (no_index c.Reply) α (sys c) f).run t) :
    t = [] ∨ ∃ r u, t = ⟨c, r⟩ :: u ∧ Begins (f r).run u := by
  rcases h with rfl | ⟨r, u, rfl, rest⟩
  · exact Or.inl rfl
  · exact Or.inr ⟨r, u, rfl, rest⟩

/-- `?` followed by a continuation on the value. -/
theorem runs_check_bind {β : Type} (r : Except IoError α) (f : α → Sys β) (t : Trace os)
    (y : Except Exit β) :
    Runs (check r >>= f).run t y ↔
      (∃ e, r = .error e ∧ t = [] ∧ y = .error (.err e)) ∨
      ∃ a, r = .ok a ∧ Runs (f a).run t y := by
  cases r with
  | ok a => simp [check]
  | error e => simp [check, runs_pure]

theorem cvt_eq_ok_iff (r : Ret) (v : Int) : cvt r = .ok v ↔ r.value ≠ -1 ∧ v = r.value := by
  unfold cvt
  split <;> simp_all [eq_comm]

theorem cvt_eq_error_iff (r : Ret) (e : IoError) :
    cvt r = .error e ↔ r.value = -1 ∧ e = .os r.errno := by
  unfold cvt
  split <;> simp_all [eq_comm]

/-- A call whose return value is only checked. -/
theorem runs_checked (c : Call) (ret : c.Reply → Ret) (t : Trace os) (y : Except Exit Unit) :
    Runs (do let r ← sys c; let _ ← check (cvt (ret r)); pure () : Sys Unit).run t y ↔
      ∃ r, t = [⟨c, r⟩] ∧ ((ret r).value = -1 ∧ y = .error (.err (.os (ret r).errno)) ∨
        (ret r).value ≠ -1 ∧ y = .ok ()) := by
  simp only [runs_sys_bind, runs_check_bind, runs_run_pure, cvt_eq_ok_iff, cvt_eq_error_iff]
  constructor
  · rintro ⟨r, u, rfl, ⟨e, ⟨failed, rfl⟩, rfl, rfl⟩ | ⟨v, ⟨passed, _⟩, rfl, rfl⟩⟩
    · exact ⟨r, rfl, Or.inl ⟨failed, rfl⟩⟩
    · exact ⟨r, rfl, Or.inr ⟨passed, rfl⟩⟩
  · rintro ⟨r, rfl, ⟨failed, rfl⟩ | ⟨passed, rfl⟩⟩
    · exact ⟨r, [], rfl, Or.inl ⟨_, ⟨failed, rfl⟩, rfl, rfl⟩⟩
    · exact ⟨r, [], rfl, Or.inr ⟨_, ⟨passed, rfl⟩, rfl, rfl⟩⟩

theorem Runs.checked (c : Call) (ret : c.Reply → Ret) (r : c.Reply) (passed : (ret r).value ≠ -1) :
    Runs (do let r ← IoBluetooth.sys c; let _ ← check (cvt (ret r)); pure () : Sys Unit).run
      [⟨c, r⟩] (.ok ()) :=
  (runs_checked c ret _ _).mpr ⟨r, rfl, Or.inr ⟨passed, rfl⟩⟩

/-! ### What a call ensures -/

section Ensures

variable {W : Type} {E : Environment os W} {w : W}

theorem ensures_sys_bind (c : Call) (f : c.Reply → Sys α) (Q : Except Exit α → W → Prop) :
    Ensures E (@bind Sys _ (no_index c.Reply) α (sys c) f).run w Q ↔
      (∃ r u, E w ⟨c, r⟩ u) ∧ ∀ r u, E w ⟨c, r⟩ u → Ensures E (f r).run u Q := Iff.rfl

theorem ensures_check_bind {β : Type} (r : Except IoError α) (f : α → Sys β)
    (Q : Except Exit β → W → Prop) :
    Ensures E (check r >>= f).run w Q ↔ match r with
      | .ok a => Ensures E (f a).run w Q
      | .error e => Q (.error (.err e)) w := by
  cases r with
  | ok a => exact Iff.rfl
  | error e => exact Iff.rfl

theorem returns_sys (responds : Responds E) (c : Call) : Returns E (sys c).run :=
  (returns_perform responds c).run_lift

theorem returns_check (r : Except IoError α) : Returns E (check r).run := by
  cases r with
  | ok a => exact returns_run_pure a
  | error e => exact returns_run_throw _

/-- A call whose return value is only checked. -/
theorem returns_checked (responds : Responds E) (c : Call) (result : c.Reply → Except IoError α) :
    Returns E (do let r ← sys c; let _ ← check (result r); pure () : Sys Unit).run :=
  (returns_sys responds c).run_bind fun _ => (returns_check _).run_bind fun _ =>
    returns_run_pure ()

end Ensures

/-! ### `cvt_r` -/

namespace Unix

/-- A system call that a signal interrupted. -/
def interrupted (r : Ret) : Prop := r.value = -1 ∧ r.errno = EINTR

instance (r : Ret) : Decidable (interrupted r) := inferInstanceAs (Decidable (_ ∧ _))

variable {σ : Type}

private theorem runs_cvtRTurn (f : σ → Prog os (Ret × σ)) (s : σ) (t : Trace os)
    (x : σ ⊕ (Except IoError Int × σ)) :
    Runs (cvtRTurn f s) t x ↔
      ∃ r s', Runs (f s) t (r, s') ∧ x = if interrupted r then .inl s' else .inr (cvt r, s') := by
  rw [cvtRTurn, runs_bind]
  constructor
  · rintro ⟨u, v, ⟨r, s'⟩, rfl, hf, hm⟩
    refine ⟨r, s', ?_⟩
    by_cases failed : r.value = -1
    · by_cases eintr : r.errno = EINTR
      all_goals
        simp only [cvt, failed, eintr, if_true, if_false, IoError.unixKind, runs_pure,
          reduceCtorEq] at hm
        obtain ⟨rfl, rfl⟩ := hm
        simp [hf, cvt, failed, eintr, interrupted]
    · simp only [cvt, failed, if_false, runs_pure] at hm
      obtain ⟨rfl, rfl⟩ := hm
      simp [hf, cvt, failed, interrupted]
  · rintro ⟨r, s', hf, rfl⟩
    refine ⟨t, [], (r, s'), (List.append_nil t).symm, hf, ?_⟩
    by_cases failed : r.value = -1
    · by_cases eintr : r.errno = EINTR <;>
        simp [cvt, failed, eintr, interrupted, IoError.unixKind, runs_pure]
    · simp [cvt, failed, interrupted, runs_pure]

/-- One attempt of `cvt_r`: it is repeated exactly when a signal interrupted it. -/
theorem runs_cvtR_iff (f : σ → Prog os (Ret × σ)) (s : σ) (t : Trace os)
    (y : Except IoError Int × σ) :
    Runs (cvtR f s) t y ↔
      (∃ r s', Runs (f s) t (r, s') ∧ ¬interrupted r ∧ y = (cvt r, s')) ∨
      ∃ r s' u v, t = u ++ v ∧ Runs (f s) u (r, s') ∧ interrupted r ∧ Runs (cvtR f s') v y := by
  rw [cvtR, runs_loop_iff]
  simp only [runs_cvtRTurn]
  constructor
  · rintro (⟨r, s', hf, eq⟩ | ⟨s₁, u, v, rfl, ⟨r, s', hf, eq⟩, rest⟩)
    · split at eq
      · cases eq
      · next quiet =>
        cases eq
        exact Or.inl ⟨r, s', hf, quiet, rfl⟩
    · split at eq
      · next signal =>
        cases eq
        exact Or.inr ⟨r, s₁, u, v, rfl, hf, signal, rest⟩
      · cases eq
  · rintro (⟨r, s', hf, quiet, rfl⟩ | ⟨r, s', u, v, rfl, hf, signal, rest⟩)
    · exact Or.inl ⟨r, s', hf, (if_neg quiet).symm⟩
    · exact Or.inr ⟨s', u, v, rfl, ⟨r, s', hf, (if_pos signal).symm⟩, rest⟩

/-- Induction over the attempts of `cvt_r`. -/
@[elab_as_elim]
theorem runs_cvtR_induction {f : σ → Prog os (Ret × σ)}
    {P : σ → Trace os → Except IoError Int × σ → Prop}
    (last : ∀ s t r s', Runs (f s) t (r, s') → ¬interrupted r → P s t (cvt r, s'))
    (again : ∀ s t r s' u y, Runs (f s) t (r, s') → interrupted r → P s' u y → P s (t ++ u) y)
    (s : σ) (t : Trace os) (y : Except IoError Int × σ) (h : Runs (cvtR f s) t y) : P s t y := by
  refine runs_loop_induction ?_ ?_ s t y h
  · intro s t y h
    obtain ⟨r, s', hf, eq⟩ := (runs_cvtRTurn f s t _).mp h
    split at eq
    · cases eq
    · next quiet =>
      cases eq
      exact last s t r s' hf quiet
  · intro s s₁ t u y h _ ih
    obtain ⟨r, s', hf, eq⟩ := (runs_cvtRTurn f s t _).mp h
    split at eq
    · next signal =>
      cases eq
      exact again s t r s₁ u y hf signal ih
    · cases eq

end Unix

/-- `cvt_r` of Unix around a call that captures nothing. -/
private theorem Platform.runs_cvtR (target : Target) (f : Prog os Ret) (t : Trace os)
    (y : Except IoError Int) :
    Runs ((Platform.unix target).cvtR f) t y ↔
      Runs (Unix.cvtR (fun _ : Unit => (·, ()) <$> f) ()) t (y, ()) := by
  rw [Platform.cvtR, runs_map]
  constructor
  · rintro ⟨⟨z, _⟩, run, rfl⟩
    exact run
  · intro run
    exact ⟨(y, ()), run, rfl⟩

/-- Induction over the attempts of such a call. -/
@[elab_as_elim]
theorem Platform.runs_cvtR_induction {target : Target} {f : Prog os Ret}
    {P : Trace os → Except IoError Int → Prop}
    (last : ∀ t r, Runs f t r → ¬Unix.interrupted r → P t (cvt r))
    (again : ∀ t r u y, Runs f t r → Unix.interrupted r → P u y → P (t ++ u) y)
    (t : Trace os) (y : Except IoError Int) (h : Runs ((Platform.unix target).cvtR f) t y) :
    P t y := by
  rw [Platform.runs_cvtR] at h
  refine @Unix.runs_cvtR_induction Unit _ (fun _ t y => P t y.1) ?_ ?_ () t (y, ()) h
  · intro _ t r _ run quiet
    obtain ⟨r', inner, eq⟩ := (runs_map _ _ _ _).mp run
    cases eq
    exact last t r inner quiet
  · intro _ t r _ u y run signal ih
    obtain ⟨r', inner, eq⟩ := (runs_map _ _ _ _).mp run
    cases eq
    exact again t r u y.1 inner signal ih

/-- One attempt of such a call. -/
theorem Platform.runs_cvtR_iff (target : Target) (f : Prog os Ret) (t : Trace os)
    (y : Except IoError Int) :
    Runs ((Platform.unix target).cvtR f) t y ↔
      (∃ r, Runs f t r ∧ ¬Unix.interrupted r ∧ y = cvt r) ∨
      ∃ r u v, t = u ++ v ∧ Runs f u r ∧ Unix.interrupted r ∧
        Runs ((Platform.unix target).cvtR f) v y := by
  rw [Platform.runs_cvtR, Unix.runs_cvtR_iff]
  simp only [runs_map, Platform.runs_cvtR]
  constructor
  · rintro (⟨r, _, ⟨r', run, eq⟩, quiet, eq'⟩ | ⟨r, _, u, v, rfl, ⟨r', run, eq⟩, signal, rest⟩)
    · cases eq
      cases eq'
      exact Or.inl ⟨r, run, quiet, rfl⟩
    · cases eq
      exact Or.inr ⟨r, u, v, rfl, run, signal, rest⟩
  · rintro (⟨r, run, quiet, rfl⟩ | ⟨r, u, v, rfl, run, signal, rest⟩)
    · exact Or.inl ⟨r, (), ⟨r, run, rfl⟩, quiet, rfl⟩
    · exact Or.inr ⟨r, (), u, v, rfl, ⟨r, run, rfl⟩, signal, rest⟩

/-- On both platforms an attempt that was not interrupted is the last. -/
theorem Platform.runs_cvtR_last (P : Platform) (f : Prog os Ret) (t : Trace os) (r : Ret)
    (run : Runs f t r) (quiet : ¬Unix.interrupted r) : Runs (P.cvtR f) t (cvt r) := by
  cases P with
  | unix target => exact (Platform.runs_cvtR_iff target f t _).mpr (Or.inl ⟨r, run, quiet, rfl⟩)
  | windows w => exact (runs_map _ _ _ _).mpr ⟨r, run, rfl⟩

end IoBluetooth
