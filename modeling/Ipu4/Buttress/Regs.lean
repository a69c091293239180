import Ipu4.Buttress.Ipc
import Ipu4.Lib.Prog

/-!
# The buttress as a register program

The functions of `ipu6-buttress.c` as programs: accesses to the registers, locks, runtime
PM, the interrupt handlers of the two sub-devices and the completions are calls, and
whatever is on the other side of them answers.
-/

namespace Ipu4.Buttress

-- ---------------------------------------------------------------------------
-- Registers
-- ---------------------------------------------------------------------------

def BUTTRESS_REG_WDT : Nat := 0x8
def BUTTRESS_REG_BTRS_CTRL : Nat := 0xc
def BUTTRESS_REG_FW_RESET_CTL : Nat := 0x30
def IPU6_BUTTRESS_REG_IS_FREQ_CTL : Nat := 0x34
def IPU6_BUTTRESS_REG_PS_FREQ_CTL : Nat := 0x38
def BUTTRESS_REG_PWR_STATE : Nat := 0x5c
def BUTTRESS_REG_FW_SOURCE_BASE_LO : Nat := 0x78
def BUTTRESS_REG_FW_SOURCE_BASE_HI : Nat := 0x7c
def BUTTRESS_REG_CAMERA_MASK : Nat := 0x84
def BUTTRESS_REG_FABRIC_CMD : Nat := 0x88
def BUTTRESS_REG_ISR_ENABLED_STATUS : Nat := 0x94
def BUTTRESS_REG_ISR_ENABLE : Nat := 0x98
def BUTTRESS_REG_ISR_CLEAR : Nat := 0x9c
def BUTTRESS_REG_IU2CSECSR : Nat := 0x108
def BUTTRESS_REG_TSW_CTL : Nat := 0x120
def BUTTRESS_REG_SECURITY_CTL : Nat := 0x300
def BUTTRESS_REG_CSE2IUDB0 : Nat := 0x304
def BUTTRESS_REG_CSE2IUDATA0 : Nat := 0x308
def BUTTRESS_REG_CSE2IUCSR : Nat := 0x30c
def BUTTRESS_REG_SECURITY_TOUCH : Nat := 0x318

/-- `ENTRY`, `EXIT` and `QUERY` of the reset of the IPC. -/
def ENTRY : Nat := 1 <<< 0
def EXIT : Nat := 1 <<< 1
def QUERY : Nat := 1 <<< 2

def BUTTRESS_IU2CSECSR_IPC_PEER_ACKED_REG_VALID : Nat := 1 <<< 4

def BUTTRESS_ISR_IS_IRQ : Nat := 1 <<< 0
def BUTTRESS_ISR_PS_IRQ : Nat := 1 <<< 1
def BUTTRESS_ISR_IPC_EXEC_DONE_BY_CSE : Nat := 1 <<< 2
def BUTTRESS_ISR_IPC_FROM_CSE_IS_WAITING : Nat := 1 <<< 4
def BUTTRESS_ISR_SAI_VIOLATION : Nat := 1 <<< 11

def BUTTRESS_IRQS : Nat :=
  BUTTRESS_ISR_IPC_FROM_CSE_IS_WAITING ||| BUTTRESS_ISR_IPC_EXEC_DONE_BY_CSE |||
    BUTTRESS_ISR_IS_IRQ ||| BUTTRESS_ISR_PS_IRQ

def BUTTRESS_EVENT : Nat :=
  BUTTRESS_ISR_IPC_FROM_CSE_IS_WAITING ||| BUTTRESS_ISR_IPC_EXEC_DONE_BY_CSE |||
    BUTTRESS_ISR_SAI_VIOLATION

/-- The registers of `struct ipu6_buttress_ipc` that the reset uses. -/
structure IpcRegs where
  csrIn : Nat
  csrOut : Nat
  db0In : Nat

/-- `b->cse`, as `ipu6_buttress_init` sets it. -/
def cse : IpcRegs := ⟨BUTTRESS_REG_CSE2IUCSR, BUTTRESS_REG_IU2CSECSR, BUTTRESS_REG_CSE2IUDB0⟩

-- ---------------------------------------------------------------------------
-- Calls
-- ---------------------------------------------------------------------------

inductive Mutex
  | power | auth | ipc
  deriving DecidableEq, Repr

/-- The two sub-devices that an interrupt can be for. -/
inductive Child
  | isys | psys
  deriving DecidableEq, Repr

inductive IrqReturn
  | none | handled | wakeThread
  deriving DecidableEq, Repr

inductive Completion
  | send | recv
  deriving DecidableEq, Repr

/-- What the kernel does to resume a device: it has an answer, or it calls the bus. -/
inductive RpmResume
  | answers (ret : Int)
  | callsBus
  deriving DecidableEq, Repr

inductive Call
  | readl (addr : Nat)
  | writel (val addr : Nat)
  | lock (m : Mutex)
  | unlock (m : Mutex)
  | pmGetIfActive
  | pmResumeAndGet
  | rpmResume (c : Child)
  | pmGenericRuntimeResume (c : Child)
  | pmPut
  | pmPutNoidle
  | isr (c : Child)
  | isrThreaded (c : Child)
  | setRecvData (val : Nat)
  | complete (c : Completion)
  | ipcSend (msg size : Nat) (requireResp : Bool) (expectedResp : Nat)
  deriving DecidableEq, Repr

@[reducible]
def Call.Ans : Call → Type
  | .readl _ => Nat
  | .pmGetIfActive | .pmResumeAndGet | .pmGenericRuntimeResume _ | .ipcSend .. => Int
  | .rpmResume _ => RpmResume
  | .isr _ | .isrThreaded _ => IrqReturn
  | .writel .. | .lock _ | .unlock _ | .pmPut | .pmPutNoidle | .setRecvData _ | .complete _ => Unit

abbrev Code (α : Type) : Type := Prog Call.Ans α

abbrev Event : Type := Prog.Event Call.Ans

def readl (addr : Nat) : Code Nat := Prog.ask (Call.readl addr)
def writel (val addr : Nat) : Code Unit := Prog.ask (Call.writel val addr)
def lock (m : Mutex) : Code Unit := Prog.ask (Call.lock m)
def unlock (m : Mutex) : Code Unit := Prog.ask (Call.unlock m)

/-- `readl_poll_timeout`; `polls` tells how often the clock is before the deadline. -/
def readlPollTimeout (polls addr : Nat) (cond : Nat → Bool) : Code (Int × Nat) := do
  let (ok, val) ← Prog.poll (readl addr) cond polls
  return (if ok then 0 else -ETIMEDOUT, val)

section
variable {σ : Type} (M : Machine Call.Ans σ) (s : σ) (val addr : Nat) (m : Mutex)

@[simp]
theorem run_writel : (writel val addr).run M s = M.step (.writel val addr) s := rfl

@[simp]
theorem run_lock : (lock m).run M s = M.step (.lock m) s := rfl

@[simp]
theorem run_unlock : (unlock m).run M s = M.step (.unlock m) s := rfl

end

section
variable {τ : Type} {N : Trace.Monitor τ Event} {t : τ} {val addr : Nat} {m : Mutex}
  {Q : Unit → τ → Prop}

@[simp]
theorem meets_readl {Q : Nat → τ → Prop} : Prog.Meets N (readl addr) t Q ↔
    ∀ val : Nat, N.allows t ⟨.readl addr, val⟩ ∧ Q val (N.next t ⟨.readl addr, val⟩) :=
  Iff.rfl

@[simp]
theorem meets_writel : Prog.Meets N (writel val addr) t Q ↔
    N.allows t ⟨.writel val addr, ()⟩ ∧ Q () (N.next t ⟨.writel val addr, ()⟩) :=
  ⟨fun h => h (), fun h _ => h⟩

@[simp]
theorem meets_lock : Prog.Meets N (lock m) t Q ↔
    N.allows t ⟨.lock m, ()⟩ ∧ Q () (N.next t ⟨.lock m, ()⟩) :=
  ⟨fun h => h (), fun h _ => h⟩

@[simp]
theorem meets_unlock : Prog.Meets N (unlock m) t Q ↔
    N.allows t ⟨.unlock m, ()⟩ ∧ Q () (N.next t ⟨.unlock m, ()⟩) :=
  ⟨fun h => h (), fun h _ => h⟩

theorem readlPollTimeout_meets {I : τ → Prop} {R : Nat → τ → Prop} (polls : Nat) (cond : Nat → Bool)
    (hread : ∀ t, I t → ∀ val : Nat, N.allows t ⟨.readl addr, val⟩ ∧
      I (N.next t ⟨.readl addr, val⟩) ∧ R val (N.next t ⟨.readl addr, val⟩)) (ht : I t) :
    Prog.Meets N (readlPollTimeout polls addr cond) t fun r t =>
      I t ∧ R r.2 t ∧ (r.1 = 0 ↔ cond r.2 = true) := by
  simp only [readlPollTimeout, Prog.meets_bind]
  refine (Prog.meets_poll (p := readl addr) (R := R) (fun t ht => hread t ht) polls ht).imp ?_
  rintro ⟨ok, val⟩ t ⟨hI, hR, hok⟩
  refine (Prog.meets_pure _).mpr ⟨hI, hR, ?_⟩
  rw [← hok]
  cases ok with
  | true => simp
  | false => simp [ETIMEDOUT]

end

end Ipu4.Buttress
