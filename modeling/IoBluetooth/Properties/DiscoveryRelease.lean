import IoBluetooth.Interaction.Ledger
import IoBluetooth.Sys.Runs

/-!
# What discovery opens and closes

`discover_devices` opens one device descriptor (Unix) or one lookup (Windows). Nothing owns
it: it is closed by the last statement of the function, which two early returns skip.
-/
namespace IoBluetooth

open Interaction

/-- What a call does to the descriptors and lookups that discovery holds. -/
def discoveryEffect : Event os → Effect Handle
  | ⟨.hciOpenDev _, r⟩ => if (r : Ret).value = -1 then .none else .acquire (r : Ret).value false
  | ⟨.hciCloseDev s, _⟩ => .release s
  | ⟨.wsaLookupServiceBeginW, r⟩ =>
    if (r : LookupBeginReply).ret.value = 0 then .acquire (r : LookupBeginReply).handle false
    else .none
  | ⟨.wsaLookupServiceEnd h, _⟩ => .release h
  | _ => .none

/-- The OS outcomes after which discovery returns early: a failed inquiry, and a lookup that
fails with another code than the two that the loop knows. -/
def skipsClosing : Event os → Bool
  | ⟨.hciInquiry .., r⟩ => (r : InquiryReply).ret.value = -1
  | ⟨.wsaLookupServiceNextW .., r⟩ =>
    (r : LookupNextReply).ret.value ≠ 0 && (r : LookupNextReply).ret.errno ≠ WSA_E_NO_MORE &&
      (r : LookupNextReply).ret.errno ≠ WSAEFAULT
  | _ => false

/-- All that was opened along `t` was closed, once, and nothing else was. -/
def ClosesWhatItOpened (t : Trace os) : Prop :=
  released discoveryEffect t = acquired discoveryEffect t

/-! ### Runs on Unix -/

theorem Unix.runs_discoverDevices (t : Trace os) (y : Except Exit (List BtAddr))
    (h : Runs Unix.discoverDevices.run t y) :
    (∃ route, t = [⟨.hciGetRoute, route⟩]) ∨
    (∃ route dev, t = [⟨.hciGetRoute, route⟩, ⟨.hciOpenDev route.value, dev⟩] ∧ dev.value = -1) ∨
    (∃ route dev inquiry, t = [⟨.hciGetRoute, route⟩, ⟨.hciOpenDev route.value, dev⟩,
        ⟨.hciInquiry route.value Unix.inquiryTimeout Unix.maxResponses, inquiry⟩] ∧
      dev.value ≠ -1 ∧ inquiry.ret.value = -1) ∨
    (∃ route dev inquiry closed, t = [⟨.hciGetRoute, route⟩, ⟨.hciOpenDev route.value, dev⟩,
        ⟨.hciInquiry route.value Unix.inquiryTimeout Unix.maxResponses, inquiry⟩,
        ⟨.hciCloseDev dev.value, closed⟩] ∧
      dev.value ≠ -1 ∧ inquiry.ret.value ≠ -1) := by
  simp only [Unix.discoverDevices, runs_sys_bind, runs_check_bind, runs_run_pure,
    cvt_eq_ok_iff, cvt_eq_error_iff] at h
  obtain ⟨route, u, rfl, ⟨_, _, rfl, _⟩ | ⟨_, ⟨_, rfl⟩, dev, u, rfl, h⟩⟩ := h
  · exact Or.inl ⟨route, rfl⟩
  · rcases h with ⟨_, ⟨failed, _⟩, rfl, _⟩ | ⟨_, ⟨opened, rfl⟩, inquiry, u, rfl, h⟩
    · exact Or.inr (Or.inl ⟨route, dev, rfl, failed⟩)
    · rcases h with ⟨_, ⟨failed, _⟩, rfl, _⟩ | ⟨_, ⟨answered, _⟩, closed, u, rfl, h⟩
      · exact Or.inr (Or.inr (Or.inl ⟨route, dev, inquiry, rfl, opened, failed⟩))
      · rcases h with ⟨_, _, rfl, _⟩ | ⟨_, _, rfl, _⟩
        all_goals
          exact Or.inr (Or.inr (Or.inr ⟨route, dev, inquiry, closed, rfl, opened, answered⟩))

/-! ### Runs on Windows -/

/-- One turn of the lookup loop fails exactly where it skips the closing call. -/
private theorem runs_lookupTurn (w : Bthdef) (handle : Handle) (s : Windows.Lookup) (t : Trace os)
    (y : Except Exit (Windows.Lookup ⊕ List BtAddr))
    (h : Runs (Windows.lookupTurn w handle s).run t y) :
    ∃ r, t = [⟨.wsaLookupServiceNextW handle s.len, r⟩] ∧
      ((∃ e, y = .error e) ↔ skipsClosing ⟨.wsaLookupServiceNextW handle s.len, r⟩ = true) := by
  rw [Windows.lookupTurn, runs_sys_bind] at h
  obtain ⟨r, u, rfl, h⟩ := h
  refine ⟨r, ?_⟩
  by_cases found : r.ret.value = 0
  · simp only [found, if_true, runs_run_pure] at h
    obtain ⟨rfl, rfl⟩ := h
    simp [skipsClosing, found]
  · by_cases last : r.ret.errno = WSA_E_NO_MORE
    · simp only [found, last, if_true, if_false, runs_run_pure] at h
      obtain ⟨rfl, rfl⟩ := h
      simp [skipsClosing, last]
    · by_cases small : r.ret.errno = WSAEFAULT
      · simp only [found, small, if_true, if_false] at h
        rw [if_neg (by decide)] at h
        obtain ⟨rfl, rfl⟩ := h
        simp [skipsClosing, small]
      · simp only [found, last, small, if_false, runs_run_throw] at h
        obtain ⟨rfl, rfl⟩ := h
        simp [skipsClosing, found, last, small]

theorem runs_lookupLoop (w : Bthdef) (handle : Handle) (s : Windows.Lookup) (t : Trace os)
    (y : Except Exit (List BtAddr))
    (h : Runs (repeating (Windows.lookupTurn w handle) s).run t y) :
    (∀ e ∈ t, ∃ len r, e = ⟨.wsaLookupServiceNextW handle len, r⟩) ∧
      ((∃ e, y = .error e) ↔ ∃ e ∈ t, skipsClosing e = true) := by
  refine runs_repeating_induction ?_ ?_ ?_ s t y h
  · intro s t e h
    obtain ⟨r, rfl, failed⟩ := runs_lookupTurn w handle s t _ h
    simpa using failed
  · intro s t b h
    obtain ⟨r, rfl, failed⟩ := runs_lookupTurn w handle s t _ h
    simpa using failed
  · intro s s' t u y h _ ih
    obtain ⟨r, rfl, failed⟩ := runs_lookupTurn w handle s t _ h
    have going : skipsClosing ⟨.wsaLookupServiceNextW handle s.len, r⟩ = false := by
      simpa using failed
    refine ⟨?_, ?_⟩
    · intro e member
      rcases List.mem_append.mp member with first | rest
      · exact ⟨s.len, r, by simpa using first⟩
      · exact ih.1 e rest
    · rw [ih.2]
      simp [going]

private theorem lookup_quiet (handle : Handle) (t : Trace os)
    (next : ∀ e ∈ t, ∃ len r, e = ⟨.wsaLookupServiceNextW handle len, r⟩) :
    ∀ e ∈ t, discoveryEffect e = .none := by
  intro e member
  obtain ⟨len, r, rfl⟩ := next e member
  rfl

/-! ### What a discovery leaves open -/

/-- Some call of the trace had an outcome after which discovery returns early. -/
def Leaks (t : Trace os) : Prop := ∃ e ∈ t, skipsClosing e = true

theorem not_leaks_nil : ¬Leaks [] := by
  rintro ⟨e, member, _⟩
  cases member

theorem not_leaks_cons {e : Event os} {t : Trace os} (kept : skipsClosing e = false)
    (rest : ¬Leaks t) : ¬Leaks (e :: t) := by
  rintro ⟨e', member, skips⟩
  rcases List.mem_cons.mp member with rfl | later
  · exact absurd skips (by rw [kept]; decide)
  · exact rest ⟨e', later, skips⟩

theorem not_leaks_append {t u : Trace os} (first : ¬Leaks t) (rest : ¬Leaks u) :
    ¬Leaks (t ++ u) := by
  rintro ⟨e, member, skips⟩
  rcases List.mem_append.mp member with before | after
  · exact first ⟨e, before, skips⟩
  · exact rest ⟨e, after, skips⟩

/-- The three ways a discovery can end: nothing was opened; something was opened and is left
open; something was opened and was closed last. -/
inductive DiscoveryShape : Trace os → Prop
  | idle {t} : (∀ e ∈ t, discoveryEffect e = .none) → ¬Leaks t → DiscoveryShape t
  | leaking {u a v h} : (∀ e ∈ u, discoveryEffect e = .none) →
      discoveryEffect a = .acquire h false → (∀ e ∈ v, discoveryEffect e = .none) →
      Leaks (u ++ a :: v) → DiscoveryShape (u ++ a :: v)
  | closing {u a v c h} : (∀ e ∈ u, discoveryEffect e = .none) →
      discoveryEffect a = .acquire h false → (∀ e ∈ v, discoveryEffect e = .none) →
      discoveryEffect c = .release h → ¬Leaks (u ++ a :: v ++ [c]) →
      DiscoveryShape (u ++ a :: v ++ [c])

theorem Unix.discovery_shape (t : Trace os) (y : Except Exit (List BtAddr))
    (h : Runs Unix.discoverDevices.run t y) : DiscoveryShape t := by
  rcases Unix.runs_discoverDevices t y h with ⟨route, rfl⟩ | ⟨route, dev, rfl, failed⟩ |
    ⟨route, dev, inquiry, rfl, opened, failed⟩ |
    ⟨route, dev, inquiry, closed, rfl, opened, answered⟩
  · have quiet : ∀ e ∈ [(⟨.hciGetRoute, route⟩ : Event os)], discoveryEffect e = .none :=
      List.forall_mem_singleton.mpr rfl
    exact .idle quiet (not_leaks_cons rfl not_leaks_nil)
  · -- the open failed, so that there is nothing to close
    have none : discoveryEffect ⟨.hciOpenDev route.value, dev⟩ = .none := if_pos failed
    exact .idle (List.forall_mem_cons.mpr ⟨rfl, List.forall_mem_singleton.mpr none⟩)
      (not_leaks_cons rfl (not_leaks_cons rfl not_leaks_nil))
  · -- the failed inquiry returns before the device is closed
    have opens : discoveryEffect ⟨.hciOpenDev route.value, dev⟩ = .acquire dev.value false :=
      if_neg opened
    have leaks : Leaks ([⟨.hciGetRoute, route⟩] ++ ⟨.hciOpenDev route.value, dev⟩ ::
        [⟨.hciInquiry route.value Unix.inquiryTimeout Unix.maxResponses, inquiry⟩]) :=
      ⟨⟨.hciInquiry route.value Unix.inquiryTimeout Unix.maxResponses, inquiry⟩,
        List.mem_append_right _ (List.mem_cons_of_mem _ List.mem_cons_self), decide_eq_true failed⟩
    exact .leaking (List.forall_mem_singleton.mpr rfl) opens (List.forall_mem_singleton.mpr rfl)
      leaks
  · have opens : discoveryEffect ⟨.hciOpenDev route.value, dev⟩ = .acquire dev.value false :=
      if_neg opened
    refine .closing (u := [_]) (v := [_]) (List.forall_mem_singleton.mpr rfl) opens
      (List.forall_mem_singleton.mpr rfl) rfl ?_
    have kept : ¬Leaks [(⟨.hciInquiry route.value Unix.inquiryTimeout Unix.maxResponses,
        inquiry⟩ : Event os)] := not_leaks_cons (decide_eq_false answered) not_leaks_nil
    exact not_leaks_append (not_leaks_cons rfl (not_leaks_cons rfl kept))
      (not_leaks_cons rfl not_leaks_nil)

theorem Windows.discovery_shape (w : Bthdef) (t : Trace os) (y : Except Exit (List BtAddr))
    (h : Runs (Windows.discoverDevices w).run t y) : DiscoveryShape t := by
  simp only [Windows.discoverDevices, runs_sys_bind, runs_check_bind] at h
  obtain ⟨_, _, rfl, start, u, rfl, h⟩ := h
  by_cases begun : start.ret.value = 0
  · have acquires : discoveryEffect ⟨.wsaLookupServiceBeginW, start⟩ =
        .acquire start.handle false := if_pos begun
    rcases h with ⟨_, failed, _⟩ | ⟨_, _, h⟩
    · simp [Windows.checkZero, begun] at failed
    · rcases (runs_run_bind _ _ _ _).mp h with
        ⟨e, looked, rfl⟩ | ⟨v, rest, found, rfl, looked, ending⟩
      · -- the loop failed, so one of its calls skipped the closing one
        obtain ⟨next, failed⟩ := runs_lookupLoop w _ _ _ _ looked
        obtain ⟨e, member, skips⟩ := failed.mp ⟨_, rfl⟩
        exact .leaking (u := [_]) (List.forall_mem_singleton.mpr rfl) acquires
          (lookup_quiet _ _ next)
          ⟨e, List.mem_append_right _ (List.mem_cons_of_mem _ member), skips⟩
      · obtain ⟨next, failed⟩ := runs_lookupLoop w _ _ _ _ looked
        have kept : ¬Leaks v := fun leak => by simpa using failed.mpr leak
        rw [runs_sys_bind] at ending
        obtain ⟨ended, last, rfl, checked⟩ := ending
        obtain rfl : last = [] := by
          rcases (runs_check_bind _ _ _ _).mp checked with ⟨_, _, rfl, _⟩ | ⟨_, _, rfl, _⟩ <;> rfl
        refine .closing (u := [_]) (v := v) (List.forall_mem_singleton.mpr rfl) acquires
          (lookup_quiet _ _ next) rfl ?_
        exact not_leaks_append (not_leaks_cons rfl (not_leaks_cons rfl kept))
          (not_leaks_cons rfl not_leaks_nil)
  · rcases h with ⟨_, _, rfl, _⟩ | ⟨_, passed, _⟩
    · have none : discoveryEffect ⟨.wsaLookupServiceBeginW, start⟩ = .none := if_neg begun
      exact .idle (List.forall_mem_cons.mpr ⟨rfl, List.forall_mem_singleton.mpr none⟩)
        (not_leaks_cons rfl (not_leaks_cons rfl not_leaks_nil))
    · simp [Windows.checkZero, begun] at passed

theorem discovery_shape (P : Platform) (t : Trace os) (y : Except Exit (List BtAddr))
    (h : Runs (discoverDevices P).run t y) : DiscoveryShape t := by
  cases P with
  | unix target => exact Unix.discovery_shape t y h
  | windows w => exact Windows.discovery_shape w t y h

theorem DiscoveryShape.closes_iff {t : Trace os} (shape : DiscoveryShape t) :
    ClosesWhatItOpened t ↔ ¬Leaks t := by
  cases shape with
  | idle quiet kept =>
    simp [ClosesWhatItOpened, acquired_of_quiet t quiet, released_of_quiet t quiet, kept]
  | @leaking u a v h before opens after leaks =>
    have held : acquired discoveryEffect (u ++ a :: v) = [h] := by
      rw [acquired_append, acquired_of_quiet u before, acquired, List.filterMap_cons, opens]
      exact congrArg (h :: ·) (acquired_of_quiet v after)
    have freed : released discoveryEffect (u ++ a :: v) = [] := by
      rw [released_append, released_of_quiet u before, released, List.filterMap_cons, opens]
      exact released_of_quiet v after
    rw [ClosesWhatItOpened, held, freed]
    exact iff_of_false (List.cons_ne_nil h []).symm (fun kept => kept leaks)
  | @closing u a v c h before opens after closes kept =>
    have held : acquired discoveryEffect (u ++ a :: v ++ [c]) = [h] := by
      rw [acquired_append, acquired_append, acquired_of_quiet u before, acquired,
        List.filterMap_cons, opens]
      have inner := acquired_of_quiet v after
      simp only [acquired] at inner ⊢
      simp [inner, closes]
    have freed : released discoveryEffect (u ++ a :: v ++ [c]) = [h] := by
      rw [released_append, released_append, released_of_quiet u before, released,
        List.filterMap_cons, opens]
      have inner := released_of_quiet v after
      simp only [released] at inner ⊢
      simp [inner, closes]
    rw [ClosesWhatItOpened, held, freed]
    exact iff_of_true rfl kept

/-- A discovery adds to the ledger exactly what it leaks. -/
theorem DiscoveryShape.steps {t : Trace os} (shape : DiscoveryShape t) (L L' : Ledger Handle)
    (steps : Steps (ledgerOf discoveryEffect) L t L') :
    (¬Leaks t ∧ L' = L) ∨ (Leaks t ∧ ∃ h, h ∉ L.held ∧ L' = L.acquire h false) := by
  cases shape with
  | idle quiet kept => exact Or.inl ⟨kept, steps_of_quiet _ t quiet L L' steps⟩
  | @leaking u a v h before opens after leaks =>
    obtain ⟨M, first, rest⟩ := (steps_append _ _ _ _ _).mp steps
    obtain ⟨N, ⟨fresh, rfl⟩, last⟩ := (steps_cons _ _ _ _ _).mp rest
    obtain rfl := steps_of_quiet _ u before L M first
    rw [opens] at last
    exact Or.inr ⟨leaks, h, fresh h false opens, steps_of_quiet _ v after _ L' last⟩
  | @closing u a v c h before opens after closes kept =>
    obtain ⟨K, opened, closed⟩ := (steps_append _ _ _ _ _).mp steps
    obtain ⟨M, first, rest⟩ := (steps_append _ _ _ _ _).mp opened
    obtain ⟨N, ⟨fresh, rfl⟩, last⟩ := (steps_cons _ _ _ _ _).mp rest
    obtain rfl := steps_of_quiet _ u before L M first
    rw [opens] at last
    obtain rfl := steps_of_quiet _ v after _ K last
    obtain ⟨_, rfl⟩ := (steps_singleton _ _ _ _).mp closed
    rw [closes]
    exact Or.inl ⟨kept, Ledger.release_acquire _ h false (fresh h false opens)⟩

instance : DecidablePred Leaks := fun t =>
  inferInstanceAs (Decidable (∃ e ∈ t, skipsClosing e = true))

/-- Discoveries one after another: each that leaks leaves one handle more, none closes a
handle that is not its own. -/
private theorem discoveries_held (P : Platform) (ts : List (Trace os))
    (runs : ∀ t ∈ ts, ∃ y, Runs (discoverDevices P).run t y) (L L' : Ledger Handle)
    (steps : Steps (ledgerOf discoveryEffect) L ts.flatten L') :
    L'.held.card = L.held.card + ts.countP (Leaks ·) ∧ L'.misused = L.misused := by
  induction ts generalizing L with
  | nil =>
    obtain rfl := (steps_nil _ _ _).mp steps
    exact ⟨rfl, rfl⟩
  | cons t ts ih =>
    obtain ⟨M, first, rest⟩ := (steps_append _ _ _ _ _).mp steps
    obtain ⟨y, run⟩ := runs t List.mem_cons_self
    have later := ih (fun u member => runs u (List.mem_cons_of_mem t member)) M rest
    rcases (discovery_shape P t y run).steps L M first with ⟨kept, rfl⟩ | ⟨leaks, h, fresh, rfl⟩
    · rw [later.1, later.2, List.countP_cons_of_neg (by simpa using kept)]
      exact ⟨rfl, rfl⟩
    · rw [later.1, later.2, List.countP_cons_of_pos (by simpa using leaks)]
      refine ⟨?_, rfl⟩
      simp only [Ledger.acquire, Finset.card_insert_of_notMem fresh]
      omega

/-- A discovery closes what it opened unless an inquiry fails or a lookup fails with an error
that the loop does not know; each one that does leaves one more handle open for good. -/
theorem discovery_closes_iff (P : Platform) :
    (∀ t y, Runs (discoverDevices P).run t y → (ClosesWhatItOpened t ↔ ¬Leaks t)) ∧
    (∀ (ts : List (Trace os)) (L L' : Ledger Handle),
      (∀ t ∈ ts, ∃ y, Runs (discoverDevices P).run t y) →
      Steps (ledgerOf discoveryEffect) L ts.flatten L' →
      L'.held.card = L.held.card + ts.countP (Leaks ·) ∧ L'.misused = L.misused ∧
      (L'.held.card ≤ L.held.card ↔ ∀ t ∈ ts, ¬Leaks t)) := by
  refine ⟨fun t y run => (discovery_shape P t y run).closes_iff, ?_⟩
  intro ts L L' runs steps
  obtain ⟨card, misused⟩ := discoveries_held P ts runs L L' steps
  refine ⟨card, misused, ?_⟩
  rw [card]
  constructor
  · intro bound t member leaks
    have counted : 0 < ts.countP (Leaks ·) :=
      List.countP_pos_iff.mpr ⟨t, member, by simpa using leaks⟩
    omega
  · intro kept
    rw [List.countP_eq_zero.mpr (by simpa using kept)]
    omega

/-- A discovery whose inquiry fails after the device was opened as `fd`. -/
def failedInquiry (fd : Handle) : Trace os :=
  [⟨.hciGetRoute, ⟨0, 0⟩⟩, ⟨.hciOpenDev 0, ⟨fd, 0⟩⟩, ⟨.hciInquiry 0 4 256, ⟨⟨-1, 5⟩, []⟩⟩]

private theorem runs_failedInquiry (target : Target) (fd : Handle) (opened : fd ≠ -1) :
    Runs (discoverDevices (.unix target)).run (failedInquiry fd) (.error (.err (.os 5))) := by
  simp only [discoverDevices, Unix.discoverDevices, runs_sys_bind, runs_check_bind,
    cvt_eq_ok_iff, cvt_eq_error_iff]
  exact ⟨⟨0, 0⟩, _, rfl, Or.inr ⟨0, ⟨by decide, rfl⟩, ⟨fd, 0⟩, _, rfl, Or.inr ⟨fd, ⟨opened, rfl⟩,
    ⟨⟨-1, 5⟩, []⟩, _, rfl, Or.inl ⟨_, ⟨rfl, rfl⟩, rfl, rfl⟩⟩⟩⟩

/-- A discovery whose first lookup fails with `WSATRY_AGAIN`. -/
def failedLookup (handle : Handle) : Trace os :=
  [⟨.winsockInit, ()⟩, ⟨.wsaLookupServiceBeginW, ⟨⟨0, 0⟩, handle⟩⟩,
    ⟨.wsaLookupServiceNextW handle 120, ⟨⟨-1, 11002⟩, 120, []⟩⟩]

private theorem runs_failedLookup (w : Bthdef) (handle : Handle) :
    Runs (discoverDevices (.windows w)).run (failedLookup handle) (.error (.err (.os 11002))) := by
  simp only [discoverDevices, Windows.discoverDevices, runs_sys_bind, runs_check_bind]
  refine ⟨(), _, rfl, ⟨⟨0, 0⟩, handle⟩, _, rfl, Or.inr ⟨(), rfl, ?_⟩⟩
  refine (runs_run_bind _ _ _ _).mpr (Or.inl ⟨_, ?_, rfl⟩)
  rw [Windows.lookupLoop, runs_repeating_iff]
  refine Or.inl ⟨_, ?_, rfl⟩
  rw [Windows.lookupTurn, runs_sys_bind]
  exact ⟨⟨⟨-1, 11002⟩, 120, []⟩, [], rfl, rfl, rfl⟩

theorem discovery_leaks :
    Runs (discoverDevices (.unix .linux)).run (failedInquiry 3) (.error (.err (.os 5))) ∧
    ¬ClosesWhatItOpened (failedInquiry 3) ∧
    Runs (discoverDevices (.windows bthdef)).run (failedLookup 7) (.error (.err (.os 11002))) ∧
    ¬ClosesWhatItOpened (failedLookup 7) := by
  refine ⟨runs_failedInquiry _ 3 (by decide), ?_, runs_failedLookup _ 7, ?_⟩
  · intro closes
    have wrong : ([] : List Handle) = [3] := closes
    cases wrong
  · intro closes
    have wrong : ([] : List Handle) = [7] := closes
    cases wrong

theorem two_failed_inquiries :
    ∃ L', Steps (ledgerOf discoveryEffect) Ledger.empty
      [failedInquiry 3, failedInquiry 4].flatten L' ∧ L'.held.card = 2 := by
  have steps : Steps (ledgerOf discoveryEffect) Ledger.empty
      [failedInquiry 3, failedInquiry 4].flatten
      ((Ledger.empty.acquire 3 false).acquire 4 false) := by
    simp [failedInquiry, steps_cons, steps_nil, ledgerOf, discoveryEffect, Ledger.apply,
      Ledger.acquire, Ledger.empty]
  have runs : ∀ t ∈ [failedInquiry 3, failedInquiry 4],
      ∃ y, Runs (discoverDevices (.unix .linux)).run t y := by
    simp only [List.mem_cons, List.not_mem_nil, or_false, forall_eq_or_imp, forall_eq]
    exact ⟨⟨_, runs_failedInquiry _ 3 (by decide)⟩, ⟨_, runs_failedInquiry _ 4 (by decide)⟩⟩
  have counted := ((discovery_closes_iff (.unix .linux)).2 _ _ _ runs steps).1
  refine ⟨_, steps, counted.trans ?_⟩
  decide

end IoBluetooth
