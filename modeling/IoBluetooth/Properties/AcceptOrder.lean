import IoBluetooth.Sys.Backlog

/-!
# Connections are accepted in the order in which they came

Any number of threads accept connections from clones of one listener, their system calls
interleaved in any order. What they return is explained by one order in which they take effect:
each connection that does not go away goes to one `accept`, in the order in which the connections
came, with the address of the device that made it. Where the kernel has `accept4`, every
connection that was taken off the queue is returned; elsewhere each one that is missing is an
error that was returned.
-/
namespace IoBluetooth

open Interaction Memory

variable {ι : Type}

abbrev Operations (ι : Type) :=
  List (ι × Incoming × Except Exit (Option (BtStream × BtAddr)))

def arrival : ι × Incoming × Except Exit (Option (BtStream × BtAddr)) → Option BtAddr
  | (_, .connects peer, _) => some peer
  | _ => none

def acceptance : ι × Incoming × Except Exit (Option (BtStream × BtAddr)) → Option (Handle × BtAddr)
  | (_, _, .ok (some (stream, peer))) => some (stream.inner.raw, peer)
  | _ => none

def departure : ι × Incoming × Except Exit (Option (BtStream × BtAddr)) → Bool
  | (_, .leaves _, _) => true
  | _ => false

def erred : ι × Incoming × Except Exit (Option (BtStream × BtAddr)) → Bool
  | (_, _, .error _) => true
  | _ => false

/-- The devices that connected, in order. -/
def arrivals (ops : Operations ι) : List BtAddr := ops.filterMap arrival

/-- The descriptors that were returned, each with the address beside it, in order. -/
def accepted (ops : Operations ι) : List (Handle × BtAddr) := ops.filterMap acceptance

def departures (ops : Operations ι) : Nat := ops.countP departure

def errors (ops : Operations ι) : Nat := ops.countP erred

section Concat

variable (ops : Operations ι) (op : ι × Incoming × Except Exit (Option (BtStream × BtAddr)))

theorem filterMap_concat {α β : Type} (f : α → Option β) (l : List α) (a : α) :
    (l ++ [a]).filterMap f = l.filterMap f ++ (f a).toList := by
  rw [List.filterMap_append, List.filterMap_cons, List.filterMap_nil]
  cases f a <;> rfl

@[simp] theorem arrivals_concat : arrivals (ops ++ [op]) = arrivals ops ++ (arrival op).toList :=
  filterMap_concat arrival ops op

@[simp] theorem accepted_concat : accepted (ops ++ [op]) = accepted ops ++ (acceptance op).toList :=
  filterMap_concat acceptance ops op

@[simp] theorem departures_concat :
    departures (ops ++ [op]) = departures ops + if departure op then 1 else 0 := by
  rw [departures, List.countP_append, List.countP_singleton, departures]

@[simp] theorem errors_concat : errors (ops ++ [op]) = errors ops + if erred op then 1 else 0 := by
  rw [errors, List.countP_append, List.countP_singleton, errors]

end Concat

/-- Every connection that came was taken off the queue, in order, or still waits there, or has gone
away; and what was taken off is returned, or makes up for an error. -/
structure Backlog.Tells (s : Backlog) (direct : Bool) (ops : Operations ι) : Prop where
  arrived : (s.served.map Prod.snd ++ s.pending).Sublist (arrivals ops)
  waited : (arrivals ops).length = s.served.length + s.pending.length + departures ops
  returned : (accepted ops).Sublist s.served
  accounted : s.served.length ≤ (accepted ops).length + errors ops
  kept : direct = true → accepted ops = s.served

theorem Accepting.tells {direct : Bool} {ops : Operations ι} {s : Backlog}
    (steps : (Accepting direct).Steps ⟨[], []⟩ ops s) : s.Tells direct ops := by
  induction steps with
  | start => exact ⟨List.Sublist.refl _, rfl, List.Sublist.refl _, Nat.le_refl _, fun _ => rfl⟩
  | @step _ σ _ _ _ _ _ effect ih =>
    obtain ⟨arrived, waited, returned, accounted, kept⟩ := ih
    cases effect with
    | connects =>
      constructor
      · simpa [arrival] using arrived.append (List.Sublist.refl _)
      · simp [arrival, departure]
        omega
      · simpa [acceptance] using returned
      · simpa [acceptance, erred] using accounted
      · simpa [acceptance] using kept
    | @leaves place _ inside =>
      constructor
      · have fewer := (List.Sublist.refl (σ.served.map Prod.snd)).append
          (List.eraseIdx_sublist σ.pending place)
        simpa [arrival] using fewer.trans arrived
      · simp [arrival, departure, List.length_eraseIdx_of_lt inside]
        omega
      · simpa [acceptance] using returned
      · simpa [acceptance, erred] using accounted
      · simpa [acceptance] using kept
    | accepts =>
      dsimp only at accounted waited
      constructor
      · simpa [arrival] using arrived
      · simp [arrival, departure] at waited ⊢
        omega
      · simpa [acceptance] using returned
      · simp [acceptance, erred]
        omega
      · simpa [acceptance] using kept
    | lost slow =>
      -- off the queue, but its descriptor was closed again: the error makes up for it
      dsimp only at accounted waited
      constructor
      · simpa [arrival] using arrived
      · simp [arrival, departure] at waited ⊢
        omega
      · simpa [acceptance] using returned.trans (List.sublist_append_left _ _)
      · simp [acceptance, erred]
        omega
      · simp [slow]
    | refused =>
      constructor
      · simpa [arrival] using arrived
      · simpa [arrival, departure] using waited
      · simpa [acceptance] using returned
      · simp [acceptance, erred]
        omega
      · simpa [acceptance] using kept

variable [DecidableEq ι]

theorem accepted_in_order (P : Platform) (known : Bool) (same : BtListener → Prop)
    (h : List (Label ι Incoming os (Except Exit (Option (BtStream × BtAddr)))))
    (c : Threads ι Incoming os Backlog)
    (reached : (listening P known same ι).Reached ⟨[], []⟩ h c) :
    ∃ ops f, (Accepting (P.direct known)).Explains ⟨[], []⟩ h ops c.shared f ∧
      (∀ i q a, .returns i q a ∈ h → (i, q, a) ∈ ops) ∧
      (c.shared.served.map Prod.snd ++ c.shared.pending).Sublist (arrivals ops) ∧
      (arrivals ops).length =
        c.shared.served.length + c.shared.pending.length + departures ops ∧
      (accepted ops).Sublist c.shared.served ∧
      c.shared.served.length ≤ (accepted ops).length + errors ops ∧
      (P.direct known = true → accepted ops = c.shared.served) := by
  obtain ⟨_, ops, _, f, _, explains, rfl⟩ := reached.foreseen
    (listening_foresees P known same) (Incoming.obeys P known) (Outcome.possible_nonempty _)
  obtain ⟨arrived, waited, returned, accounted, kept⟩ := Accepting.tells explains.steps
  exact ⟨ops, f, explains, explains.returned.2, arrived, waited, returned, accounted, kept⟩

/-! On a Linux kernel that has `accept4`, two devices connect while two threads accept. The thread
that called first is interrupted, and gets the second connection. -/

private def firstDevice : BtAddr := ⟨#v[1, 2, 3, 4, 5, 6]⟩

private def secondDevice : BtAddr := ⟨#v[7, 2, 3, 4, 5, 6]⟩

private def clone (fd : Handle) : BtListener := ⟨⟨fd⟩, .rfcomm⟩

/-- The socket address of a device whose first byte is `b`. -/
private def deviceBytes (b : UInt8) : List UInt8 := [31, 0, b, 2, 3, 4, 5, 6, 1, 0]

private def got (s fd : Handle) (b : UInt8) : Event os :=
  ⟨.accept4 s 10, ⟨⟨fd, 0⟩, deviceBytes b, 10⟩⟩

private def cutShort : Event os := ⟨.accept4 3 10, ⟨⟨-1, EINTR⟩, [], 10⟩⟩

private def twoAccept : List (Label Bool Incoming os (Except Exit (Option (BtStream × BtAddr)))) :=
  [.begins true (.accepts (clone 3)), .calls true cutShort,
    .begins false (.connects firstDevice), .returns false (.connects firstDevice) (.ok none),
    .begins false (.connects secondDevice), .returns false (.connects secondDevice) (.ok none),
    .begins false (.accepts (clone 4)), .calls false (got 4 5 1), .calls true (got 3 6 7),
    .returns true (.accepts (clone 3)) (.ok (some (⟨⟨6⟩, .rfcomm⟩, secondDevice))),
    .returns false (.accepts (clone 4)) (.ok (some (⟨⟨5⟩, .rfcomm⟩, firstDevice)))]

private theorem runs_accepts (s fd : Handle) (t : Trace os)
    (storage : Block Unix.sizeofSockaddrRc × Nat)
    (run : Runs (Unix.cvtR (Unix.Socket.acceptInto fun len => @Prog.perform os (.accept4 s len))
      Unix.unwritten) t (.ok fd, storage)) :
    Runs ((Incoming.accepts (clone s)).program (.unix .linux)).run t
      (.ok (some (⟨⟨fd⟩, .rfcomm⟩, Unix.rcBdaddr storage.1))) := by
  have socket : Runs (Unix.Socket.accept .linux ⟨s⟩).run t
      (.ok (⟨fd⟩, Unix.rcBdaddr storage.1)) :=
    (runs_run_bind _ _ _ _).mpr (Or.inr ⟨t, [], _, (List.append_nil t).symm,
      (runs_run_lift _ _ _).mpr ⟨_, run, rfl⟩, rfl, rfl⟩)
  have stream : Runs ((clone s).accept (.unix .linux)).run t
      (.ok (⟨⟨fd⟩, .rfcomm⟩, Unix.rcBdaddr storage.1)) :=
    (runs_run_bind _ _ _ _).mpr (Or.inr ⟨t, [], _, (List.append_nil t).symm, socket, rfl, rfl⟩)
  exact (runs_run_bind _ _ _ _).mpr
    (Or.inr ⟨t, [], _, (List.append_nil t).symm, stream, rfl, rfl⟩)

private theorem reached_twoAccept :
    ∃ c, (listening (.unix .linux) true (fun _ => True) Bool).Reached ⟨[], []⟩ twoAccept c ∧
      c.shared = ⟨[(5, firstDevice), (6, secondDevice)], []⟩ := by
  have direct (s fd : Handle) (b : UInt8) (valid : fd ≠ -1) :
      Runs (Unix.cvtR (Unix.Socket.acceptInto fun len => @Prog.perform os (.accept4 s len))
        Unix.unwritten) [got s fd b] (.ok fd, fill (zeroed _) (deviceBytes b), 10) :=
    (Unix.runs_cvtR_iff _ _ _ _).mpr (Or.inl ⟨⟨fd, 0⟩, _, ⟨_, _, rfl, rfl, rfl⟩,
      fun signal => valid signal.1, by rw [(cvt_eq_ok_iff ⟨fd, 0⟩ fd).mpr ⟨valid, rfl⟩]; rfl⟩)
  have first : Runs ((Incoming.accepts (clone 4)).program (.unix .linux)).run [got 4 5 1]
      (.ok (some (⟨⟨5⟩, .rfcomm⟩, firstDevice))) :=
    runs_accepts 4 5 _ _ (direct 4 5 1 (by decide))
  have second : Runs ((Incoming.accepts (clone 3)).program (.unix .linux)).run
      [cutShort, got 3 6 7] (.ok (some (⟨⟨6⟩, .rfcomm⟩, secondDevice))) :=
    runs_accepts 3 6 _ _ ((Unix.runs_cvtR_iff _ _ _ _).mpr
      (Or.inr ⟨⟨-1, EINTR⟩, _, [cutShort], _, rfl, ⟨_, _, rfl, rfl, rfl⟩, ⟨rfl, rfl⟩,
        direct 3 6 7 (by decide)⟩))
  have interrupted : Begins ((Incoming.accepts (clone 3)).program (.unix .linux)).run
      [cutShort] := Begins.of_append (u := [got 3 6 7]) second.begins
  have takes (s fd : Handle) (b : UInt8) (valid : fd ≠ -1) (served : List (Handle × BtAddr))
      (device : BtAddr) (rest : List BtAddr)
      (named : PeerSockaddr device (deviceBytes b) (.unix .linux)) :
      Serves (.unix .linux) true ⟨served, device :: rest⟩ (got s fd b)
        ⟨served ++ [(fd, device)], rest⟩ :=
    @Serves.takes _ _ served device rest _ (got s fd b) true 10 ⟨⟨fd, 0⟩, deviceBytes b, 10⟩ rfl
      valid named rfl
  have takesFirst := takes 4 5 1 (by decide) [] firstDevice [secondDevice] ⟨by decide, by decide⟩
  have takesSecond := takes 3 6 7 (by decide) [(5, firstDevice)] secondDevice []
    ⟨by decide, by decide⟩
  have queue := (@System.Reached.start _ _ _ _ _ _
    (listening (.unix .linux) true (fun _ => True) Bool) ⟨[], []⟩)
  have begun := (queue.begins true (.accepts (clone 3)) ⟨[], []⟩ rfl ⟨trivial, rfl⟩).calls true
    cutShort ⟨[], []⟩ rfl interrupted (.fails rfl rfl rfl rfl fun _ => nofun)
  have came := ((begun.begins false (.connects firstDevice) _ rfl rfl).returns false _ (.ok none) _
    rfl ⟨rfl, rfl⟩ rfl).begins false (.connects secondDevice) _ rfl rfl
  have accepting := (came.returns false _ (.ok none) _ rfl ⟨rfl, rfl⟩ rfl).begins false
    (.accepts (clone 4)) _ rfl ⟨trivial, rfl⟩
  have both := (accepting.calls false (got 4 5 1) _ rfl first.begins takesFirst).calls true
    (got 3 6 7) _ rfl second.begins takesSecond
  exact ⟨_, (both.returns true _ _ _ rfl second rfl).returns false _ _ _ rfl first rfl, rfl⟩

theorem overtaken_gets_second :
    ∃ c ops f, (listening (.unix .linux) true (fun _ => True) Bool).Reached ⟨[], []⟩ twoAccept c ∧
      (Accepting true).Explains ⟨[], []⟩ twoAccept ops c.shared f ∧
      accepted ops = [(5, firstDevice), (6, secondDevice)] := by
  obtain ⟨c, reached, shared⟩ := reached_twoAccept
  obtain ⟨ops, f, explains, _, _, _, _, _, kept⟩ := accepted_in_order _ _ _ _ c reached
  exact ⟨c, ops, f, reached, explains, (kept rfl).trans (by rw [shared])⟩

end IoBluetooth
