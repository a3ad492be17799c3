import IoBluetooth.Sys.Interface

/-! `cvt_r` and `FileDesc`, from `src/sys/unix/mod.rs` and `src/sys/unix/fd.rs`. -/
namespace IoBluetooth.Unix

open Interaction

variable {σ : Type}

/-- One turn of the `loop` in `cvt_r`. The closure's captured variables are the state `σ`, so
what one attempt wrote through them is there for the next. -/
def cvtRTurn (f : σ → Prog os (Ret × σ)) (s : σ) : Prog os (σ ⊕ (Except IoError Int × σ)) := do
  let (ret, s) ← f s
  match cvt ret with
  | .error e =>
    if e.unixKind = .interrupted then pure (.inl s) else pure (.inr (.error e, s))
  | .ok fd => pure (.inr (.ok fd, s))

def cvtR (f : σ → Prog os (Ret × σ)) (s : σ) : Prog os (Except IoError Int × σ) :=
  Prog.loop (cvtRTurn f) s

structure FileDesc where
  fd : Handle
  deriving DecidableEq, Repr

namespace FileDesc

/-- `Drop for FileDesc`: the result of `close` is ignored. -/
def drop (self : FileDesc) : Prog os Unit := do
  let _ ← @Prog.perform os (.close self.fd)
  pure ()

/-- The flags of a descriptor with `FD_CLOEXEC` among them; a `c_int` has 32 bits. -/
def withCloexec (previous : Int) : Int := (BitVec.ofInt 32 previous ||| FD_CLOEXEC).toInt

theorem withCloexec_idem (previous : Int) :
    withCloexec (withCloexec previous) = withCloexec previous := by
  rw [withCloexec, withCloexec, BitVec.ofInt_toInt, BitVec.or_assoc, BitVec.or_self]

def setCloexec (target : Target) (self : FileDesc) : Sys Unit := do
  if target.fioclex then
    let _ ← check (cvt (← sys (.ioctlFioclex self.fd)))
    pure ()
  else
    let previous ← check (cvt (← sys (.fcntlGetfd self.fd)))
    if withCloexec previous = previous then pure ()
    else
      let _ ← check (cvt (← sys (.fcntlSetfd self.fd (withCloexec previous))))
      pure ()

def makeFiledesc (target : Target) (fd : Handle) : Sys FileDesc :=
  owning (drop ⟨fd⟩) do
    setCloexec target ⟨fd⟩
    pure ⟨fd⟩

def duplicateFallback (target : Target) (self : FileDesc) : Sys FileDesc := do
  let fd ← check (cvt (← sys (.fcntlDupfd self.fd)))
  makeFiledesc target fd

/-- `fcntl(fd, F_DUPFD_CLOEXEC, 0)`; on Android and Haiku that name is `F_DUPFD`. -/
def fcntlDupfdCloexec (target : Target) (fd : Handle) : Sys Ret :=
  if target = .android ∨ target = .haiku then sys (.fcntlDupfd fd) else sys (.fcntlDupfdCloexec fd)

def duplicate (target : Target) (self : FileDesc) : Sys FileDesc := do
  let tryCloexec : Bool ← sys .tryCloexecLoad
  if tryCloexec then
    match cvt (← fcntlDupfdCloexec target self.fd) with
    -- on Linux the flag is set once more, for kernels that report it without setting it
    | .ok fd => if target = .linux then makeFiledesc target fd else pure ⟨fd⟩
    | .error e =>
      if e.rawOsError = some EINVAL then do
        sys (.tryCloexecStore false)
        duplicateFallback target self
      else throw (.err e)
  else duplicateFallback target self

end FileDesc
end IoBluetooth.Unix
