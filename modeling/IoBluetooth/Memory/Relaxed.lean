import Mathlib.Data.List.InsertIdx
import Mathlib.Logic.Function.Basic

/-!
# Relaxed memory locations

A location that threads load and store with relaxed ordering. All that is promised is
coherence: the values take effect in one order, and a thread never goes back in it. Which of
the values that are no older it loads is open, and a store may take effect before one that
another thread made earlier.
-/
namespace Memory

variable {ι α : Type}

/-- The values of a location, oldest first, and how far each thread has got among them. -/
@[ext] structure Cell (ι α : Type) where
  values : List α
  seen : ι → Nat

namespace Cell

def new (a : α) : Cell ι α := ⟨[a], fun _ => 0⟩

variable [DecidableEq ι]

inductive Loads (c : Cell ι α) (i : ι) : α → Cell ι α → Prop
  | mk {k a} : c.seen i ≤ k → c.values[k]? = some a →
      Loads c i a ⟨c.values, Function.update c.seen i k⟩

inductive Stores (c : Cell ι α) (i : ι) (a : α) : Cell ι α → Prop
  | mk {k} : c.seen i < k → k ≤ c.values.length →
      Stores c i a ⟨c.values.insertIdx k a,
        Function.update (fun j => if k ≤ c.seen j then c.seen j + 1 else c.seen j) i k⟩

/-- A location that has `a` at first and is set to `b` only. -/
def Latched (c : Cell ι α) (a b : α) : Prop := ∃ n, c.values = a :: List.replicate n b

variable {c c' : Cell ι α} {a b x : α} {i : ι}

omit [DecidableEq ι] in
theorem latched_new (a b : α) : (new a : Cell ι α).Latched a b := ⟨0, rfl⟩

omit [DecidableEq ι] in
theorem Latched.value (latched : c.Latched a b) {k : Nat} (at_k : c.values[k]? = some x) :
    k = 0 ∧ x = a ∨ 0 < k ∧ x = b := by
  obtain ⟨n, values⟩ := latched
  rw [values] at at_k
  cases k with
  | zero => exact Or.inl ⟨rfl, (Option.some.inj at_k).symm⟩
  | succ k =>
    rw [List.getElem?_cons_succ, List.getElem?_replicate, Option.ite_none_right_eq_some] at at_k
    exact Or.inr ⟨Nat.succ_pos k, (Option.some.inj at_k.2).symm⟩

theorem Latched.loads (latched : c.Latched a b) (loads : c.Loads i x c') : c'.Latched a b := by
  cases loads
  exact latched

/-- A thread that got as far as `b` stays there. -/
theorem Latched.loads_eq (latched : c.Latched a b) (loads : c.Loads i x c') :
    x = a ∧ c.seen i = 0 ∨ x = b ∧ 0 < c'.seen i := by
  cases loads with
  | @mk k _ after at_k =>
    rcases latched.value at_k with ⟨rfl, rfl⟩ | ⟨later, rfl⟩
    · exact Or.inl ⟨rfl, Nat.le_zero.mp after⟩
    · refine Or.inr ⟨rfl, ?_⟩
      simpa using later

private theorem insertIdx_replicate {k n : Nat} (bound : k ≤ n) :
    (List.replicate n b).insertIdx k b = List.replicate (n + 1) b := by
  rw [List.eq_replicate_iff, List.length_insertIdx_of_le_length (by simpa using bound)]
  refine ⟨by simp, fun x member => ?_⟩
  rcases List.eq_or_mem_of_mem_insertIdx member with rfl | member
  · rfl
  · exact List.eq_of_mem_replicate member

theorem Latched.stores (latched : c.Latched a b) (stores : c.Stores i b c') :
    c'.Latched a b ∧ 0 < c'.seen i := by
  obtain ⟨n, values⟩ := latched
  cases stores with
  | @mk k after bound =>
    simp only [Function.update_self]
    refine ⟨⟨n + 1, ?_⟩, Nat.lt_of_le_of_lt (Nat.zero_le _) after⟩
    -- it takes effect somewhere after the first
    obtain ⟨k, rfl⟩ := Nat.exists_eq_succ_of_ne_zero (Nat.ne_of_gt (Nat.zero_lt_of_lt after))
    have later : k ≤ n := by simpa [values] using bound
    rw [values, List.insertIdx_succ_cons, insertIdx_replicate later]

theorem Loads.seen_le (loads : c.Loads i x c') (j : ι) : c.seen j ≤ c'.seen j := by
  cases loads with
  | @mk k _ after _ =>
    by_cases same : j = i
    · subst same
      simpa using after
    · simp [same]

theorem Stores.seen_le (stores : c.Stores i x c') (j : ι) : c.seen j ≤ c'.seen j := by
  cases stores with
  | @mk k after _ =>
    by_cases same : j = i
    · subst same
      simpa using Nat.le_of_lt after
    · simp only [ne_eq, same, not_false_eq_true, Function.update_of_ne]
      split
      · exact Nat.le_succ _
      · exact Nat.le_refl _

/-- Where nothing was stored, the first value is all there is. -/
theorem Loads.eq_of_values (loads : c.Loads i x c') (values : c.values = [a]) :
    x = a ∧ c'.values = [a] := by
  cases loads with
  | @mk k _ _ at_k =>
    rw [values, List.getElem?_singleton, Option.ite_none_right_eq_some] at at_k
    exact ⟨(Option.some.inj at_k.2).symm, values⟩

end Cell
end Memory
