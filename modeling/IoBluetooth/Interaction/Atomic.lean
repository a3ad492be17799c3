import IoBluetooth.Interaction.Brief
import IoBluetooth.Interaction.Threads
import Mathlib.Data.Set.Basic

/-!
# Objects whose operations take effect at once

An object says what each operation may return and what it leaves. Threads whose requests take
many calls implement it if each request can be thought to take effect at one moment between its
beginning and its end, with what it returns. Whatever the threads do is then explained by their
operations one after the other.
-/
namespace Interaction

variable {ι R α σ S M : Type} {I : Interface}

abbrev Object (R α σ : Type) := R → σ → α → σ → Prop

namespace Object

variable (obj : Object R α σ) (σ₀ : σ)

/-- Operations with what they returned, by the threads that asked for them, the latest last. -/
inductive Steps : List (ι × R × α) → σ → Prop
  | start : Steps [] σ₀
  | step {ops σ i q a σ'} : Steps ops σ → obj q σ a σ' → Steps (ops ++ [(i, q, a)]) σ'

/-- The state in which an operation took effect. -/
theorem Steps.at {obj : Object R α σ} {σ₀ σ : σ} {pre post : List (ι × R × α)} {i : ι} {q : R}
    {a : α} (steps : Steps obj σ₀ (pre ++ (i, q, a) :: post) σ) :
    ∃ σ₁ σ₂, Steps obj σ₀ pre σ₁ ∧ obj q σ₁ a σ₂ := by
  induction post using List.reverseRecOn generalizing σ with
  | nil =>
    generalize eq : pre ++ [(i, q, a)] = ops at steps
    cases steps with
    | start => simp at eq
    | step before effect =>
      obtain ⟨rfl, same⟩ := List.append_inj' eq rfl
      cases same
      exact ⟨_, _, before, effect⟩
  | append_singleton post op ih =>
    rw [← List.cons_append, ← List.append_assoc] at steps
    generalize eq : pre ++ (i, q, a) :: post ++ [op] = ops at steps
    cases steps with
    | start => simp at eq
    | step before _ =>
      obtain ⟨rfl, _⟩ := List.append_inj' eq rfl
      exact ih before

variable [DecidableEq ι]

/-- The operations explain the history: each request takes effect once, after it has begun and
before it returns, and returns what it did when it took effect. Of a request that is not over it
is known whether it has taken effect. -/
inductive Explains : List (Label ι R I α) → List (ι × R × α) → σ → (ι → Option (R × Option α)) →
    Prop
  | start : Explains [] [] σ₀ fun _ => none
  | begins {h ops σ f i q} : Explains h ops σ f → f i = none →
      Explains (h ++ [.begins i q]) ops σ (Function.update f i (some (q, none)))
  | calls {h ops σ f i e} : Explains h ops σ f → Explains (h ++ [.calls i e]) ops σ f
  | effect {h ops σ f i q a σ'} : Explains h ops σ f → f i = some (q, none) → obj q σ a σ' →
      Explains h (ops ++ [(i, q, a)]) σ' (Function.update f i (some (q, some a)))
  | returns {h ops σ f i q a} : Explains h ops σ f → f i = some (q, some a) →
      Explains (h ++ [.returns i q a]) ops σ (Function.update f i none)

variable {obj σ₀} {h : List (Label ι R I α)} {ops : List (ι × R × α)} {σ : σ}
  {f : ι → Option (R × Option α)}

theorem Explains.steps (explains : Explains obj σ₀ h ops σ f) : Steps obj σ₀ ops σ := by
  induction explains with
  | start => exact .start
  | begins _ _ ih => exact ih
  | calls _ ih => exact ih
  | effect _ _ effect ih => exact ih.step effect
  | returns _ _ ih => exact ih

/-- What has been returned is the result of an operation. -/
theorem Explains.returned (explains : Explains obj σ₀ h ops σ f) :
    (∀ i q a, f i = some (q, some a) → (i, q, a) ∈ ops) ∧
      ∀ i q a, .returns i q a ∈ h → (i, q, a) ∈ ops := by
  induction explains with
  | start => exact ⟨nofun, nofun⟩
  | @begins h ops σ f i q _ _ ih =>
    refine ⟨fun j q' a done => ?_, fun j q' a member => ?_⟩
    · by_cases same : j = i
      · subst same
        cases (Function.update_self j _ f).symm.trans done
      · exact ih.1 j q' a ((Function.update_of_ne same _ f).symm.trans done)
    · refine ih.2 j q' a ((List.mem_append.mp member).resolve_right fun last => ?_)
      cases List.mem_singleton.mp last
  | calls _ ih =>
    refine ⟨ih.1, fun j q' a member => ?_⟩
    refine ih.2 j q' a ((List.mem_append.mp member).resolve_right fun last => ?_)
    cases List.mem_singleton.mp last
  | @effect h ops σ f i q a σ' _ _ _ ih =>
    refine ⟨fun j q' a' done => ?_, fun j q' a' member => List.mem_append_left _ (ih.2 j q' a' member)⟩
    by_cases same : j = i
    · subst same
      cases (Function.update_self j _ f).symm.trans done
      exact List.mem_append_right _ List.mem_cons_self
    · exact List.mem_append_left _ (ih.1 j q' a' ((Function.update_of_ne same _ f).symm.trans done))
  | @returns h ops σ f i q a _ done ih =>
    refine ⟨fun j q' a' still => ?_, fun j q' a' member => ?_⟩
    · by_cases same : j = i
      · subst same
        cases (Function.update_self j _ f).symm.trans still
      · exact ih.1 j q' a' ((Function.update_of_ne same _ f).symm.trans still)
    · rcases List.mem_append.mp member with before | last
      · exact ih.2 j q' a' before
      · cases List.mem_singleton.mp last
        exact ih.1 i q a done

end Object

/-! ### Threads that implement an object -/

variable [DecidableEq ι]

/-- A result for each request that has taken effect, of those that its monitor leaves possible. -/
def View.Foretold (results : M → Option (Set α)) (v : View ι R M) (f : ι → Option (R × Option α)) :
    Prop :=
  ∀ i, Option.Rel (fun x y => y.1 = x.1 ∧ Option.Rel (fun X a => a ∈ X) (results x.2) y.2)
    (v i) (f i)

section Foretold

variable {results : M → Option (Set α)} {v : View ι R M} {f : ι → Option (R × Option α)} {i : ι}
  {q : R} {m : M}

omit [DecidableEq ι] in
theorem View.Foretold.idle (foretold : v.Foretold results f) (idle : v i = none) : f i = none := by
  have here := foretold i
  rw [idle] at here
  generalize f i = y at here
  cases here
  rfl

omit [DecidableEq ι] in
theorem View.Foretold.busy (foretold : v.Foretold results f) (busy : v i = some (q, m)) :
    ∃ x, f i = some (q, x) ∧ Option.Rel (fun X a => a ∈ X) (results m) x := by
  have here := foretold i
  rw [busy] at here
  generalize f i = y at here
  cases here with
  | @some _ y fits =>
    obtain ⟨q', x⟩ := y
    obtain ⟨rfl, fits⟩ := fits
    exact ⟨x, rfl, fits⟩

omit [DecidableEq ι] in
theorem View.Foretold.before [DecidableEq ι] {x : Option (R × M)}
    (foretold : View.Foretold results (Function.update v i x) f) (busy : v i = some (q, m))
    {y : Option α} (fits : Option.Rel (fun X a => a ∈ X) (results m) y) :
    v.Foretold results (Function.update f i (some (q, y))) := by
  intro j
  by_cases same : j = i
  · subst same
    rw [Function.update_self, busy]
    exact .some ⟨rfl, fits⟩
  · have there := foretold j
    rw [Function.update_of_ne same] at there
    rwa [Function.update_of_ne same]

end Foretold

/-- The object explains a history, whichever of the results that are left to them the requests
that have taken effect come to have. -/
def Object.Accounts (obj : Object R α σ) (σ₀ : σ) (results : M → Option (Set α))
    (h : List (Label ι R I α)) (v : View ι R M) (s : σ) : Prop :=
  ∀ f, v.Foretold results f → ∃ ops, obj.Explains σ₀ h ops s f

namespace Object.Accounts

variable {obj : Object R α σ} {σ₀ s s' : σ} {results : M → Option (Set α)}
  {h : List (Label ι R I α)} {v : View ι R M} {i : ι} {q : R} {m n : M}

theorem start : obj.Accounts σ₀ results ([] : List (Label ι R I α)) (fun _ => none) σ₀ := by
  intro f foretold
  obtain rfl : f = fun _ => none := funext fun i => foretold.idle rfl
  exact ⟨[], .start⟩

theorem begun (accounts : obj.Accounts σ₀ results h v s) (idle : v i = none)
    {f : ι → Option (R × Option α)}
    (foretold : View.Foretold results (Function.update v i (some (q, m))) f) :
    ∃ ops, obj.Explains σ₀ (h ++ [.begins i q]) ops s (Function.update f i (some (q, none))) := by
  have before : v.Foretold results (Function.update f i none) := by
    intro j
    by_cases same : j = i
    · subst same
      rw [idle, Function.update_self]
      exact .none
    · have there := foretold j
      rw [Function.update_of_ne same] at there
      rwa [Function.update_of_ne same]
  obtain ⟨ops, explains⟩ := accounts _ before
  have begun := explains.begins (i := i) (q := q) (Function.update_self i _ _)
  rw [Function.update_idem] at begun
  exact ⟨ops, begun⟩

theorem begins (accounts : obj.Accounts σ₀ results h v s) (idle : v i = none)
    (pending : results m = none) :
    obj.Accounts σ₀ results (h ++ [.begins i q]) (Function.update v i (some (q, m))) s := by
  intro f foretold
  obtain ⟨ops, begun⟩ := accounts.begun idle foretold
  obtain ⟨x, here, fits⟩ := foretold.busy (Function.update_self i _ v)
  rw [pending] at fits
  cases fits
  rw [← here, Function.update_eq_self] at begun
  exact ⟨ops, begun⟩

/-- A request takes effect as it begins. -/
theorem begins_acting (accounts : obj.Accounts σ₀ results h v s) (idle : v i = none) {X : Set α}
    (done : results m = some X) (effect : ∀ a ∈ X, obj q s a s') :
    obj.Accounts σ₀ results (h ++ [.begins i q]) (Function.update v i (some (q, m))) s' := by
  intro f foretold
  obtain ⟨ops, begun⟩ := accounts.begun idle foretold
  obtain ⟨x, here, fits⟩ := foretold.busy (Function.update_self i _ v)
  rw [done] at fits
  cases fits with
  | @some _ a among =>
    have acted := begun.effect (Function.update_self i _ _) (effect a among)
    rw [Function.update_idem, ← here, Function.update_eq_self] at acted
    exact ⟨_, acted⟩

/-- The object knows nothing of a call that leaves no more results than there were. -/
theorem calls (accounts : obj.Accounts σ₀ results h v s) (e : Event I)
    (seen : v i = some (q, m)) (fewer : Option.Rel (fun X Y => Y ⊆ X) (results m) (results n)) :
    obj.Accounts σ₀ results (h ++ [.calls i e]) (Function.update v i (some (q, n))) s := by
  intro f foretold
  obtain ⟨x, here, fits⟩ := foretold.busy (Function.update_self i _ v)
  have fitted : Option.Rel (fun X a => a ∈ X) (results m) x := by
    generalize results m = y at fewer
    generalize results n = z at fewer fits
    cases fewer with
    | none => exact fits
    | some less =>
      cases fits with
      | some among => exact .some (less among)
  obtain ⟨ops, explains⟩ := accounts _ (foretold.before seen fitted)
  rw [← here, Function.update_eq_self] at explains
  exact ⟨ops, explains.calls⟩

/-- A request takes effect with a call. -/
theorem calls_acting (accounts : obj.Accounts σ₀ results h v s) (e : Event I)
    (seen : v i = some (q, m)) (pending : results m = none) {X : Set α}
    (done : results n = some X) (effect : ∀ a ∈ X, obj q s a s') :
    obj.Accounts σ₀ results (h ++ [.calls i e]) (Function.update v i (some (q, n))) s' := by
  intro f foretold
  obtain ⟨x, here, fits⟩ := foretold.busy (Function.update_self i _ v)
  rw [done] at fits
  cases fits with
  | @some _ a among =>
    have nothing : Option.Rel (fun X a => a ∈ X) (results m) (none : Option α) := pending ▸ .none
    obtain ⟨ops, explains⟩ := accounts _ (foretold.before seen nothing)
    have called := explains.calls (i := i) (e := e)
    have acted := called.effect (Function.update_self i _ _) (effect a among)
    rw [Function.update_idem, ← here, Function.update_eq_self] at acted
    exact ⟨_, acted⟩

theorem returns (accounts : obj.Accounts σ₀ results h v s) (seen : v i = some (q, m)) {X : Set α}
    {a : α} (done : results m = some X) (among : a ∈ X) :
    obj.Accounts σ₀ results (h ++ [.returns i q a]) (Function.update v i none) s := by
  intro f foretold
  have here := foretold.idle (Function.update_self i _ v)
  have fits : Option.Rel (fun X a => a ∈ X) (results m) (some a) := done ▸ .some among
  obtain ⟨ops, explains⟩ := accounts _ (foretold.before seen fits)
  have returned := explains.returns (Function.update_self i _ _)
  rw [Function.update_idem, ← here, Function.update_eq_self] at returned
  exact ⟨ops, returned⟩

/-- A request takes effect as it returns. -/
theorem returns_acting (accounts : obj.Accounts σ₀ results h v s) (seen : v i = some (q, m)) {a : α}
    (pending : results m = none) (effect : obj q s a s') :
    obj.Accounts σ₀ results (h ++ [.returns i q a]) (Function.update v i none) s' := by
  intro f foretold
  have here := foretold.idle (Function.update_self i _ v)
  have nothing : Option.Rel (fun X a => a ∈ X) (results m) (none : Option α) := pending ▸ .none
  obtain ⟨ops, explains⟩ := accounts _ (foretold.before seen nothing)
  have acted := explains.effect (Function.update_self i _ _) effect
  have returned := acted.returns (Function.update_self i _ _)
  rw [Function.update_idem, Function.update_idem, ← here, Function.update_eq_self] at returned
  exact ⟨_, returned⟩

end Object.Accounts

/-- The threads' state simulates the object's. A step that its monitor takes for the moment at
which the request takes effect is one of the object's operations, whichever of the results that
are left it comes to have, and so is a return of a request that has not taken effect yet. Every
other step leaves the object alone, and leaves no more results than there were. -/
structure System.Foresees (sys : System ι R I α S) (A : Event I → Prop) (δ : R → Monitor I M)
    (start : R → M) (Q : R → α → M → Prop) (s₀ : S) (obj : Object R α σ) (σ₀ : σ)
    (results : M → Option (Set α)) (sim : S → View ι R M → σ → Prop) : Prop where
  starts : sim s₀ (fun _ => none) σ₀
  allows : ∀ s v σ i q e s', sim s v σ → sys.calls i q s e s' → A e
  begins : ∀ s v σ i q s', sim s v σ → v i = none → sys.begins v.running s q s' →
    (results (start q) = none ∧ sim s' (Function.update v i (some (q, start q))) σ) ∨
    ∃ X σ', results (start q) = some X ∧ (∀ a ∈ X, obj q σ a σ') ∧
      sim s' (Function.update v i (some (q, start q))) σ'
  calls : ∀ s v σ i q m e s' n, sim s v σ → v i = some (q, m) → sys.calls i q s e s' →
    δ q m e = some n →
      (Option.Rel (fun X Y => Y ⊆ X) (results m) (results n) ∧
        sim s' (Function.update v i (some (q, n))) σ) ∨
      (results m = none ∧ ∃ X σ', results n = some X ∧ (∀ a ∈ X, obj q σ a σ') ∧
        sim s' (Function.update v i (some (q, n))) σ')
  returns : ∀ s v σ i q m a s', sim s v σ → v i = some (q, m) → Q q a m → sys.returns q a s s' →
    ((∃ X, results m = some X ∧ a ∈ X) ∧ sim s' (Function.update v i none) σ) ∨
    (results m = none ∧ ∃ σ', obj q σ a σ' ∧ sim s' (Function.update v i none) σ')

section Simulation

variable {A : Event I → Prop} {δ : R → Monitor I M} {start : R → M} {Q : R → α → M → Prop}
  {sys : System ι R I α S} {s₀ : S} {obj : Object R α σ} {σ₀ : σ} {results : M → Option (Set α)}
  {status : M → Option α} {sim : S → View ι R M → σ → Prop}

/-- Whatever the requests that have taken effect come to return, the object explains it. -/
theorem System.Foresees.invariant (foresees : sys.Foresees A δ start Q s₀ obj σ₀ results sim) :
    sys.Invariant A δ start Q s₀ fun h s v => ∃ σ, sim s v σ ∧ obj.Accounts σ₀ results h v σ where
  starts := ⟨σ₀, foresees.starts, .start⟩
  allows := by
    rintro h s v i q e s' ⟨σ, holds, _⟩ replied
    exact foresees.allows s v σ i q e s' holds replied
  begins := by
    rintro h s v i q s' ⟨σ, holds, accounts⟩ idle admitted
    rcases foresees.begins s v σ i q s' holds idle admitted with
      ⟨pending, kept⟩ | ⟨X, σ', done, effect, kept⟩
    · exact ⟨σ, kept, accounts.begins idle pending⟩
    · exact ⟨σ', kept, accounts.begins_acting idle done effect⟩
  calls := by
    rintro h s v i q m e s' n ⟨σ, holds, accounts⟩ seen replied accepted
    rcases foresees.calls s v σ i q m e s' n holds seen replied accepted with
      ⟨fewer, kept⟩ | ⟨pending, X, σ', done, effect, kept⟩
    · exact ⟨σ, kept, accounts.calls e seen fewer⟩
    · exact ⟨σ', kept, accounts.calls_acting e seen pending done effect⟩
  returns := by
    rintro h s v i q m a s' ⟨σ, holds, accounts⟩ seen last ended
    rcases foresees.returns s v σ i q m a s' holds seen last ended with
      ⟨⟨X, done, among⟩, kept⟩ | ⟨pending, σ', effect, kept⟩
    · exact ⟨σ, kept, accounts.returns seen done among⟩
    · exact ⟨σ', kept, accounts.returns_acting seen pending effect⟩

/-- Every history of the threads is explained by the object, if each request that has taken
effect can come to a result. -/
theorem System.Reached.foreseen (foresees : sys.Foresees A δ start Q s₀ obj σ₀ results sim)
    (obeys : ∀ q, Obeys A (δ q) (start q) (sys.program q) (Q q))
    (some_left : ∀ m X, results m = some X → X.Nonempty) {h : List (Label ι R I α)}
    {c : Threads ι R I S} (reached : sys.Reached s₀ h c) :
    ∃ v ops σ f, c.Shows δ start v ∧ obj.Explains σ₀ h ops σ f ∧ sim c.shared v σ := by
  obtain ⟨_, v, shows, σ, holds, explained⟩ := reached.watched foresees.invariant obeys
  have some_result (m : M) : ∃ x, Option.Rel (fun X a => a ∈ X) (results m) x := by
    cases left : results m with
    | none => exact ⟨none, .none⟩
    | some X =>
      obtain ⟨a, among⟩ := some_left m X left
      exact ⟨some a, .some among⟩
  choose result fits using some_result
  have foretold : v.Foretold results fun i => (v i).map fun x => (x.1, result x.2) := by
    intro i
    dsimp only
    cases v i with
    | none => exact .none
    | some x => exact .some ⟨rfl, fits x.2⟩
  obtain ⟨ops, explains⟩ := explained _ foretold
  exact ⟨v, ops, σ, _, shows, explains, holds⟩

/-! ### Requests whose result is known when they take effect -/

/-- What each request has come to: whether it has taken effect, according to its monitor. -/
def View.progress (status : M → Option α) (v : View ι R M) (i : ι) : Option (R × Option α) :=
  (v i).map fun (q, m) => (q, status m)

/-- As `System.Foresees`, where one result is left when a request takes effect. -/
structure System.Simulates (sys : System ι R I α S) (A : Event I → Prop) (δ : R → Monitor I M)
    (start : R → M) (Q : R → α → M → Prop) (s₀ : S) (obj : Object R α σ) (σ₀ : σ)
    (status : M → Option α) (sim : S → View ι R M → σ → Prop) : Prop where
  starts : sim s₀ (fun _ => none) σ₀
  allows : ∀ s v σ i q e s', sim s v σ → sys.calls i q s e s' → A e
  begins : ∀ s v σ i q s', sim s v σ → v i = none → sys.begins v.running s q s' →
    (status (start q) = none ∧ sim s' (Function.update v i (some (q, start q))) σ) ∨
    ∃ a σ', status (start q) = some a ∧ obj q σ a σ' ∧
      sim s' (Function.update v i (some (q, start q))) σ'
  calls : ∀ s v σ i q m e s' n, sim s v σ → v i = some (q, m) → sys.calls i q s e s' →
    δ q m e = some n →
      (status n = status m ∧ sim s' (Function.update v i (some (q, n))) σ) ∨
      (status m = none ∧ ∃ a σ', status n = some a ∧ obj q σ a σ' ∧
        sim s' (Function.update v i (some (q, n))) σ')
  returns : ∀ s v σ i q m a s', sim s v σ → v i = some (q, m) → Q q a m → sys.returns q a s s' →
    (status m = some a ∧ sim s' (Function.update v i none) σ) ∨
    (status m = none ∧ ∃ σ', obj q σ a σ' ∧ sim s' (Function.update v i none) σ')

theorem System.Simulates.foresees (simulates : sys.Simulates A δ start Q s₀ obj σ₀ status sim) :
    sys.Foresees A δ start Q s₀ obj σ₀ (fun m => (status m).map fun a => {a}) sim where
  starts := simulates.starts
  allows := simulates.allows
  begins := by
    intro s v σ i q s' holds idle admitted
    rcases simulates.begins s v σ i q s' holds idle admitted with
      ⟨pending, kept⟩ | ⟨a, σ', done, effect, kept⟩
    · exact Or.inl ⟨by rw [pending, Option.map_none], kept⟩
    · refine Or.inr ⟨{a}, σ', by rw [done, Option.map_some], ?_, kept⟩
      rintro _ rfl
      exact effect
  calls := by
    intro s v σ i q m e s' n holds seen replied accepted
    rcases simulates.calls s v σ i q m e s' n holds seen replied accepted with
      ⟨same, kept⟩ | ⟨pending, a, σ', done, effect, kept⟩
    · refine Or.inl ⟨?_, kept⟩
      rw [same]
      cases status m with
      | none => exact .none
      | some a => exact .some (Set.Subset.refl _)
    · refine Or.inr ⟨by rw [pending, Option.map_none], {a}, σ', by rw [done, Option.map_some], ?_,
        kept⟩
      rintro _ rfl
      exact effect
  returns := by
    intro s v σ i q m a s' holds seen last ended
    rcases simulates.returns s v σ i q m a s' holds seen last ended with
      ⟨done, kept⟩ | ⟨pending, σ', effect, kept⟩
    · exact Or.inl ⟨⟨{a}, by rw [done, Option.map_some], rfl⟩, kept⟩
    · exact Or.inr ⟨by rw [pending, Option.map_none], σ', effect, kept⟩

theorem System.Reached.explained (simulates : sys.Simulates A δ start Q s₀ obj σ₀ status sim)
    (obeys : ∀ q, Obeys A (δ q) (start q) (sys.program q) (Q q)) {h : List (Label ι R I α)}
    {c : Threads ι R I S} (reached : sys.Reached s₀ h c) :
    ∃ v ops σ f, c.Shows δ start v ∧ obj.Explains σ₀ h ops σ f ∧ sim c.shared v σ := by
  refine reached.foreseen simulates.foresees obeys ?_
  rintro m _ left
  obtain ⟨a, _, rfl⟩ := Option.map_eq_some_iff.mp left
  exact Set.singleton_nonempty a

end Simulation

/-! ### Requests of at most one call -/

open Classical in
/-- The monitor that takes the one call for the moment at which a request takes effect. -/
noncomputable def once (p : Prog I α) : Monitor I (Option α)
  | none, e => if run : ∃ a, Runs p [e] a then some (some run.choose) else none
  | some _, _ => none

theorem once_eq_some {p : Prog I α} {m n : Option α} {e : Event I}
    (accepted : once p m e = some n) : m = none ∧ ∃ a, n = some a ∧ Runs p [e] a := by
  cases m with
  | some a => cases accepted
  | none =>
    rw [once] at accepted
    split at accepted
    · next run =>
      cases accepted
      exact ⟨rfl, _, rfl, run.choose_spec⟩
    · cases accepted

theorem Brief.once {p : Prog I α} {on : I.Call → Prop} (brief : Brief on p) {A : Event I → Prop} :
    Obeys A (Interaction.once p) none p fun a m => m = some a ∨ m = none ∧ Runs p [] a := by
  have reads (e : Event I) (a : α) (run : Runs p [e] a) :
      (Interaction.once p).read none [e] = some (some a) := by
    rw [Monitor.read_singleton, Interaction.once, dif_pos ⟨a, run⟩]
    exact congrArg _ (congrArg _ (brief.unique (Exists.choose_spec _) run))
  constructor
  · intro t begun _
    rcases brief.begins begun with rfl | ⟨e, a, rfl, _, run⟩
    · exact ⟨none, rfl⟩
    · exact ⟨_, reads e a run⟩
  · intro t a run _
    rcases brief.begins run.begins with rfl | ⟨e, _, rfl, _, _⟩
    · exact ⟨none, rfl, Or.inr ⟨rfl, run⟩⟩
    · exact ⟨_, reads e a run, Or.inl rfl⟩

/-- Requests of at most one call implement an object if what such a call does to the state is what
the request does to the object. -/
structure System.Commits (sys : System ι R I α S) (s₀ : S) (obj : Object R α σ) (σ₀ : σ)
    (proper : R → Prop) (sim : S → σ → Prop) : Prop where
  brief : ∀ q, ∃ on, Brief on (sys.program q)
  starts : sim s₀ σ₀
  begins : ∀ running s σ q s', sim s σ → sys.begins running s q s' → proper q ∧ sim s' σ
  calls : ∀ s σ i q e a s', sim s σ → proper q → Runs (sys.program q) [e] a →
    sys.calls i q s e s' → ∃ σ', obj q σ a σ' ∧ sim s' σ'
  quiet : ∀ s σ q a, sim s σ → proper q → Runs (sys.program q) [] a → ∃ σ', obj q σ a σ' ∧ sim s σ'
  returns : ∀ s σ q a s', sim s σ → sys.returns q a s s' → sim s' σ

section Commits

variable {sys : System ι R I α S} {s₀ : S} {obj : Object R α σ} {σ₀ : σ} {proper : R → Prop}
  {sim : S → σ → Prop}

theorem System.Commits.simulates (commits : sys.Commits s₀ obj σ₀ proper sim) :
    sys.Simulates (fun _ => True) (fun q => once (sys.program q)) (fun _ => none)
      (fun q a m => m = some a ∨ m = none ∧ Runs (sys.program q) [] a) s₀ obj σ₀ id
      fun s v σ => sim s σ ∧ ∀ i q m, v i = some (q, m) → proper q where
  starts := ⟨commits.starts, nofun⟩
  allows _ _ _ _ _ _ _ _ _ := trivial
  begins := by
    rintro s v σ i q s' ⟨holds, fits⟩ idle admitted
    obtain ⟨proper, kept⟩ := commits.begins _ s σ q s' holds admitted
    refine Or.inl ⟨rfl, kept, fun j q' m seen => ?_⟩
    by_cases same : j = i
    · subst same
      cases (Function.update_self j _ v).symm.trans seen
      exact proper
    · exact fits j q' m ((Function.update_of_ne same _ v).symm.trans seen)
  calls := by
    rintro s v σ i q m e s' n ⟨holds, fits⟩ seen replied accepted
    obtain ⟨pending, a, done, run⟩ := once_eq_some accepted
    obtain ⟨σ', effect, kept⟩ := commits.calls s σ i q e a s' holds (fits i q m seen) run replied
    refine Or.inr ⟨pending, a, σ', done, effect, kept, fun j q' m' seen' => ?_⟩
    by_cases same : j = i
    · subst same
      cases (Function.update_self j _ v).symm.trans seen'
      exact fits j q m seen
    · exact fits j q' m' ((Function.update_of_ne same _ v).symm.trans seen')
  returns := by
    rintro s v σ i q m a s' ⟨holds, fits⟩ seen last ended
    have others (j q' m') (seen' : Function.update v i none j = some (q', m')) : proper q' := by
      by_cases same : j = i
      · subst same
        cases (Function.update_self j _ v).symm.trans seen'
      · exact fits j q' m' ((Function.update_of_ne same _ v).symm.trans seen')
    rcases last with rfl | ⟨rfl, run⟩
    · exact Or.inl ⟨rfl, commits.returns s σ q a s' holds ended, others⟩
    · obtain ⟨σ', effect, kept⟩ := commits.quiet s σ q a holds (fits i q none seen) run
      exact Or.inr ⟨rfl, σ', effect, commits.returns s σ' q a s' kept ended, others⟩

/-- Every history of the threads is explained by the object. -/
theorem System.Reached.committed (commits : sys.Commits s₀ obj σ₀ proper sim)
    {h : List (Label ι R I α)} {c : Threads ι R I S} (reached : sys.Reached s₀ h c) :
    ∃ ops σ f, obj.Explains σ₀ h ops σ f ∧ sim c.shared σ := by
  obtain ⟨_, ops, σ, f, _, explains, holds, _⟩ :=
    reached.explained commits.simulates fun q => (commits.brief q).choose_spec.once
  exact ⟨ops, σ, f, explains, holds⟩

end Commits
end Interaction
