import Ipu4.Lib.Runs
import Ipu4.Buttress.Regs

/-!
# The interrupt handlers

`ipu6_buttress_isr` serves the two sub-devices and the CSE until the status register is
clear, at most a hundred times. A sub-device that wants its thread is masked until
`ipu6_buttress_isr_threaded` has run. The handlers of the sub-devices are calls, so
what is shown here holds with any handlers and any device.
-/

namespace Ipu4.Buttress

def BUTTRESS_MAX_CONSECUTIVE_IRQS : Nat := 100

/-- `struct ipu6_auxdrv_data`: which of the handlers there are. -/
structure AuxdrvData where
  isr : Bool
  isrThreaded : Bool
  wakeIsrThread : Bool

structure Adev where
  auxdrv : Bool
  auxdrvData : Option AuxdrvData

/-- `b->reg_irq_sts` of an IPU4. -/
def regIrqSts : Nat := BUTTRESS_REG_ISR_ENABLED_STATUS

def ipu6AdevIrqMask : Child → Nat
  | .isys => BUTTRESS_ISR_IS_IRQ
  | .psys => BUTTRESS_ISR_PS_IRQ

/-- The handlers of a sub-device, if it is there and has a driver. -/
def Adev.handlers (adev : Option Adev) : Option AuxdrvData :=
  adev.bind fun adev => if adev.auxdrv then adev.auxdrvData else none

def ipu6ButtressCallIsr (c : Child) (adev : Option Adev) : Code IrqReturn :=
  match Adev.handlers adev with
  | none => return .none
  | some data => do
    let ret ← if data.isr then Prog.ask (Call.isr c) else pure .wakeThread
    return if ret = .wakeThread ∧ !data.isrThreaded then .none else ret

def ipu6ButtressIpcRecv : Code Unit := do
  let val ← readl BUTTRESS_REG_CSE2IUDATA0
  Prog.ask (Call.setRecvData val)
  writel 0 BUTTRESS_REG_CSE2IUDB0

def ipu6ButtressGetSecureMode : Code Bool := do
  let val ← readl BUTTRESS_REG_SECURITY_CTL
  return val &&& 1 <<< 16 ≠ 0

/-- `ret` and `disable_irqs`. -/
structure IsrState where
  ret : IrqReturn
  disableIrqs : Nat
  deriving DecidableEq, Repr

def isSet (irqStatus mask : Nat) : Prop := irqStatus &&& mask ≠ 0

instance (irqStatus mask : Nat) : Decidable (isSet irqStatus mask) := inferInstanceAs (Decidable (¬ _))

/-- What the answer of a handler adds. -/
def IsrState.child (st : IsrState) (irqStatus : Nat) (c : Child) (r : IrqReturn) : IsrState :=
  if ¬ isSet irqStatus (ipu6AdevIrqMask c) then st
  else if r = .wakeThread then
    { st with ret := .wakeThread, disableIrqs := st.disableIrqs ||| ipu6AdevIrqMask c }
  else if st.ret = .none ∧ r = .handled then { st with ret := .handled }
  else st

def IsrState.event (st : IsrState) (irqStatus : Nat) : IsrState :=
  if isSet irqStatus BUTTRESS_EVENT ∧ st.ret = .none then { st with ret := .handled } else st

/-- One round of the loop; `adev` are `isp->isys` and `isp->psys`. -/
def isrRound (adev : Child → Option Adev) (irqStatus : Nat) (st : IsrState) : Code IsrState := do
  writel irqStatus BUTTRESS_REG_ISR_CLEAR
  let r ← ipu6ButtressCallIsr .isys (adev .isys)
  let st := st.child irqStatus .isys r
  let r ← ipu6ButtressCallIsr .psys (adev .psys)
  let st := st.child irqStatus .psys r
  let st := st.event irqStatus
  Prog.when (isSet irqStatus BUTTRESS_ISR_IPC_FROM_CSE_IS_WAITING) do
    ipu6ButtressIpcRecv
    Prog.ask (Call.complete .recv)
  Prog.when (isSet irqStatus BUTTRESS_ISR_IPC_EXEC_DONE_BY_CSE) (Prog.ask (Call.complete .send))
  Prog.when (isSet irqStatus BUTTRESS_ISR_SAI_VIOLATION) do
    let _ ← ipu6ButtressGetSecureMode
  return st

/-- The loop with `n` rounds to go after this one. -/
def isrLoop (adev : Child → Option Adev) : Nat → Nat → IsrState → Code IsrState
  | 0, irqStatus, st => do
    let st ← isrRound adev irqStatus st
    return { st with ret := .none }
  | n + 1, irqStatus, st => do
    let st ← isrRound adev irqStatus st
    let irqStatus ← readl regIrqSts
    if irqStatus = 0 then return st
    isrLoop adev n irqStatus st

def ipu6ButtressIsr (adev : Child → Option Adev) : Code IrqReturn := do
  let active ← Prog.ask Call.pmGetIfActive
  if active = (0 : Int) then return .none
  let irqStatus ← readl regIrqSts
  if irqStatus = 0 ∨ irqStatus = 0xffffffff then
    Prog.when (active > (0 : Int)) (Prog.ask Call.pmPutNoidle)
    return .none
  let st ← isrLoop adev (BUTTRESS_MAX_CONSECUTIVE_IRQS - 1) irqStatus ⟨.none, 0⟩
  Prog.when (st.disableIrqs ≠ 0)
    (writel (BUTTRESS_IRQS &&& (0xffffffff ^^^ st.disableIrqs)) BUTTRESS_REG_ISR_ENABLE)
  Prog.when (active > (0 : Int)) (Prog.ask Call.pmPut)
  return st.ret

/-- The loop of the threaded handler ends at the first sub-device that is not there. -/
def threadedLoop (adev : Child → Option Adev) : List Child → IrqReturn → Code IrqReturn
  | [], ret => return ret
  | c :: cs, ret =>
    match adev c with
    | none => return ret
    | some a =>
      match a.auxdrvData with
      | none => threadedLoop adev cs ret
      | some data =>
        if data.wakeIsrThread then do
          let r ← Prog.ask (Call.isrThreaded c)
          threadedLoop adev cs (if r = .handled then .handled else ret)
        else threadedLoop adev cs ret

def ipu6ButtressIsrThreaded (adev : Child → Option Adev) : Code IrqReturn := do
  let ret ← threadedLoop adev [.isys, .psys] .none
  writel BUTTRESS_IRQS BUTTRESS_REG_ISR_ENABLE
  return ret

def ipu6ButtressRestore (wdtCachedValue : Nat) : Code Unit := do
  writel BUTTRESS_IRQS BUTTRESS_REG_ISR_CLEAR
  writel BUTTRESS_IRQS BUTTRESS_REG_ISR_ENABLE
  writel wdtCachedValue BUTTRESS_REG_WDT

-- ---------------------------------------------------------------------------
-- What a run of the handler notes
-- ---------------------------------------------------------------------------

inductive Note
  | active (a : Int)
  | status (val : Nat)
  | cleared (val : Nat)
  | asked (c : Child) (r : IrqReturn)
  | complete (c : Completion)
  | enable (val : Nat)
  | put
  deriving DecidableEq, Repr

def Note.ofEvent : Event → Option Note
  | ⟨.pmGetIfActive, a⟩ => some (.active a)
  | ⟨.readl addr, val⟩ => if addr = regIrqSts then some (.status val) else none
  | ⟨.writel val addr, _⟩ =>
    if addr = BUTTRESS_REG_ISR_CLEAR then some (.cleared val)
    else if addr = BUTTRESS_REG_ISR_ENABLE then some (.enable val)
    else none
  | ⟨.isr c, r⟩ => some (.asked c r)
  | ⟨.complete c, _⟩ => some (.complete c)
  | ⟨.pmPut, _⟩ | ⟨.pmPutNoidle, _⟩ => some .put
  | _ => none

/-- A round: the status, and what the handlers answered that were asked. -/
structure IrqRound where
  status : Nat
  raw : Child → IrqReturn

def callResult (adev : Option Adev) (raw : IrqReturn) : IrqReturn :=
  match Adev.handlers adev with
  | none => .none
  | some data =>
    let ret := if data.isr then raw else .wakeThread
    if ret = .wakeThread ∧ !data.isrThreaded then .none else ret

def asked (c : Child) (adev : Option Adev) (raw : IrqReturn) : List Note :=
  match Adev.handlers adev with
  | none => []
  | some data => if data.isr then [.asked c raw] else []

section
variable (adev : Child → Option Adev)

def IrqRound.handled (r : IrqRound) : List Note :=
  .cleared r.status :: asked .isys (adev .isys) (r.raw .isys) ++ asked .psys (adev .psys) (r.raw .psys) ++
    (if isSet r.status BUTTRESS_ISR_IPC_FROM_CSE_IS_WAITING then [.complete .recv] else []) ++
    (if isSet r.status BUTTRESS_ISR_IPC_EXEC_DONE_BY_CSE then [.complete .send] else [])

def IrqRound.notes (r : IrqRound) : List Note := .status r.status :: r.handled adev

/-- In this round the interrupt is for the sub-device, and it wants its thread. -/
def IrqRound.wakes (c : Child) (r : IrqRound) : Bool :=
  isSet r.status (ipu6AdevIrqMask c) ∧ callResult (adev c) (r.raw c) = .wakeThread

/-- In this round somebody handles the interrupt. -/
def IrqRound.serves (r : IrqRound) : Bool :=
  (∃ c ∈ [Child.isys, .psys], isSet r.status (ipu6AdevIrqMask c) ∧
    callResult (adev c) (r.raw c) = .handled) ∨ isSet r.status BUTTRESS_EVENT

/-- The mask of the sub-devices that want their thread. -/
def wakeMask (isys psys : Bool) : Nat :=
  (if isys then BUTTRESS_ISR_IS_IRQ else 0) ||| if psys then BUTTRESS_ISR_PS_IRQ else 0

def IsrState.of (isys psys serves : Bool) : IsrState :=
  ⟨if isys || psys then .wakeThread else if serves then .handled else .none, wakeMask isys psys⟩

/-- What the rounds add up to, whatever their order is. -/
def summary (rounds : List IrqRound) : IsrState :=
  .of (rounds.any (·.wakes adev .isys)) (rounds.any (·.wakes adev .psys)) (rounds.any (·.serves adev))

end

section
variable {adev : Child → Option Adev} {irqStatus : Nat}

theorem child_isys (a b s : Bool) (r : IrqReturn) : (IsrState.of a b s).child irqStatus .isys r =
    .of (a || decide (isSet irqStatus BUTTRESS_ISR_IS_IRQ ∧ r = .wakeThread)) b
      (s || decide (isSet irqStatus BUTTRESS_ISR_IS_IRQ ∧ r = .handled)) := by
  unfold IsrState.child ipu6AdevIrqMask
  by_cases h : isSet irqStatus BUTTRESS_ISR_IS_IRQ
  · cases r <;> cases a <;> cases b <;> cases s <;> simp [h] <;> decide
  · simp [h]

theorem child_psys (a b s : Bool) (r : IrqReturn) : (IsrState.of a b s).child irqStatus .psys r =
    .of a (b || decide (isSet irqStatus BUTTRESS_ISR_PS_IRQ ∧ r = .wakeThread))
      (s || decide (isSet irqStatus BUTTRESS_ISR_PS_IRQ ∧ r = .handled)) := by
  unfold IsrState.child ipu6AdevIrqMask
  by_cases h : isSet irqStatus BUTTRESS_ISR_PS_IRQ
  · cases r <;> cases a <;> cases b <;> cases s <;> simp [h] <;> decide
  · simp [h]

theorem event_of (a b s : Bool) : (IsrState.of a b s).event irqStatus =
    .of a b (s || decide (isSet irqStatus BUTTRESS_EVENT)) := by
  unfold IsrState.event
  by_cases h : isSet irqStatus BUTTRESS_EVENT
  · cases a <;> cases b <;> cases s <;> simp [h] <;> decide
  · simp [h]

@[simp]
theorem summary_nil : summary adev [] = ⟨.none, 0⟩ := by simp [summary, IsrState.of, wakeMask]

theorem summary_concat (rounds : List IrqRound) (r : IrqRound) :
    (((summary adev rounds).child r.status .isys (callResult (adev .isys) (r.raw .isys))).child r.status
      .psys (callResult (adev .psys) (r.raw .psys))).event r.status = summary adev (rounds ++ [r]) := by
  unfold summary
  rw [child_isys, child_psys, event_of]
  simp only [List.any_append, List.any_cons, List.any_nil, Bool.or_false]
  congr 1
  rw [Bool.or_assoc, Bool.or_assoc]
  congr 1
  simp [IrqRound.serves, ipu6AdevIrqMask, Bool.or_assoc]

-- ---------------------------------------------------------------------------
-- Runs of the handler
-- ---------------------------------------------------------------------------

abbrev notebook : Trace.Monitor (List Note) Event := Prog.recorder Note.ofEvent

theorem callIsr_meets (c : Child) (a : Option Adev) (t : List Note) :
    Prog.Meets notebook (ipu6ButtressCallIsr c a) t fun r t' =>
      ∃ raw, t' = t ++ asked c a raw ∧ r = callResult a raw := by
  unfold ipu6ButtressCallIsr asked callResult
  cases Adev.handlers a with
  | none => exact ⟨.none, by simp, rfl⟩
  | some data =>
    dsimp only
    rw [Prog.meets_ite]
    refine ⟨fun hisr => ?_, fun hisr => ?_⟩
    · rw [Prog.meets_bind]
      intro raw
      refine ⟨trivial, raw, ?_, ?_⟩
      · rw [if_pos hisr]
        rfl
      · rw [if_pos hisr]
    · refine ⟨.none, ?_, ?_⟩
      · rw [if_neg hisr, List.append_nil]
      · rw [if_neg hisr]

theorem when_meets {c : Prop} [Decidable c] {p : Code Unit} {ns : List Note} {t : List Note}
    (h : Prog.Meets notebook p t fun _ t' => t' = t ++ ns) :
    Prog.Meets notebook (Prog.when c p) t fun _ t' => t' = t ++ if c then ns else [] := by
  rw [Prog.meets_when]
  refine ⟨fun hc => ?_, fun hc => ?_⟩
  · rwa [if_pos hc]
  · rw [if_neg hc, List.append_nil]

theorem recv_meets (t : List Note) : Prog.Meets notebook
    (do ipu6ButtressIpcRecv; Prog.ask (Call.complete .recv)) t fun _ t' => t' = t ++ [.complete .recv] := by
  simp only [ipu6ButtressIpcRecv, Prog.meets_bind, meets_readl, meets_writel]
  intro val
  refine ⟨trivial, fun _ => ⟨trivial, trivial, fun _ => ⟨trivial, ?_⟩⟩⟩
  show (((t ++ []) ++ []) ++ []) ++ [Note.complete .recv] = t ++ [.complete .recv]
  simp

theorem send_meets (t : List Note) : Prog.Meets notebook (Prog.ask (Call.complete .send)) t fun _ t' =>
    t' = t ++ [.complete .send] :=
  fun _ => ⟨trivial, rfl⟩

theorem secureMode_meets (t : List Note) : Prog.Meets notebook
    (do let _ ← ipu6ButtressGetSecureMode) t fun _ t' => t' = t ++ [] :=
  fun _ => ⟨trivial, rfl⟩

theorem enable_meets (val : Nat) (t : List Note) :
    Prog.Meets notebook (writel val BUTTRESS_REG_ISR_ENABLE) t fun _ t' => t' = t ++ [.enable val] :=
  fun _ => ⟨trivial, rfl⟩

theorem put_meets (t : List Note) : Prog.Meets notebook (Prog.ask Call.pmPut) t fun _ t' => t' = t ++ [.put] :=
  fun _ => ⟨trivial, rfl⟩

theorem putNoidle_meets (t : List Note) :
    Prog.Meets notebook (Prog.ask Call.pmPutNoidle) t fun _ t' => t' = t ++ [.put] :=
  fun _ => ⟨trivial, rfl⟩

theorem isrRound_meets (st : IsrState) (t : List Note) :
    Prog.Meets notebook (isrRound adev irqStatus st) t fun st' t' => ∃ r : IrqRound, r.status = irqStatus ∧
      t' = t ++ r.handled adev ∧
      st' = ((st.child irqStatus .isys (callResult (adev .isys) (r.raw .isys))).child irqStatus .psys
        (callResult (adev .psys) (r.raw .psys))).event irqStatus := by
  simp only [isrRound, Prog.meets_bind, meets_writel]
  refine ⟨trivial, (callIsr_meets .isys _ _).imp ?_⟩
  rintro _ _ ⟨isys, rfl, rfl⟩
  refine (callIsr_meets .psys _ _).imp ?_
  rintro _ _ ⟨psys, rfl, rfl⟩
  refine (when_meets (recv_meets _)).imp ?_
  rintro _ _ rfl
  refine (when_meets (send_meets _)).imp ?_
  rintro _ _ rfl
  refine (when_meets (secureMode_meets _)).imp ?_
  rintro _ _ rfl
  refine ⟨⟨irqStatus, fun c => if c = .isys then isys else psys⟩, rfl, ?_, rfl⟩
  show ((((t ++ [Note.cleared irqStatus]) ++ _) ++ _) ++ _) ++ _ ++ _ = _
  simp [IrqRound.handled]

/-- What a run of the loop comes to from round `start` on: so many rounds, then a status
of 0, or a hundred of them. -/
structure Loop (adev : Child → Option Adev) (n irqStatus : Nat) (start : List IrqRound) (head t : List Note)
    (st : IsrState) (rounds : List IrqRound) : Prop where
  notes : t = head ++ rounds.flatMap (IrqRound.notes adev) ++
    if rounds.length = n + 1 then [] else [.status 0]
  bound : rounds.length ≤ n + 1
  nonzero : ∀ r ∈ rounds, r.status ≠ 0
  first : ∃ r, rounds.head? = some r ∧ r.status = irqStatus
  mask : st.disableIrqs = (summary adev (start ++ rounds)).disableIrqs
  ret : st.ret = if rounds.length = n + 1 then .none else (summary adev (start ++ rounds)).ret

theorem Loop.cons {r : IrqRound} (h : Loop adev n status (start ++ [r]) (head ++ r.notes adev) t st rounds)
    (h0 : r.status ≠ 0) : Loop adev (n + 1) r.status start head t st (r :: rounds) := by
  have hlist : start ++ r :: rounds = start ++ [r] ++ rounds := by simp
  constructor
  · rw [h.notes]
    simp
  · simpa using h.bound
  · exact List.forall_mem_cons.mpr ⟨h0, h.nonzero⟩
  · exact ⟨r, rfl, rfl⟩
  · rw [hlist]
    exact h.mask
  · rw [hlist, h.ret]
    simp

theorem isrLoop_meets (n : Nat) (h0 : irqStatus ≠ 0) (start : List IrqRound) (head : List Note) :
    Prog.Meets notebook (isrLoop adev n irqStatus (summary adev start)) (head ++ [.status irqStatus])
      fun st t => ∃ rounds, Loop adev n irqStatus start head t st rounds := by
  induction n generalizing irqStatus start head with
  | zero =>
    simp only [isrLoop, Prog.meets_bind]
    refine (isrRound_meets _ _).imp ?_
    rintro _ _ ⟨r, rfl, rfl, rfl⟩
    refine ⟨[r], by simp [IrqRound.notes], by simp, by simpa using h0, ⟨r, rfl, rfl⟩, ?_, by simp⟩
    rw [← summary_concat]
  | succ n ih =>
    simp only [isrLoop, Prog.meets_bind, meets_readl]
    refine (isrRound_meets _ _).imp ?_
    rintro _ _ ⟨r, rfl, rfl, rfl⟩ status
    have hnext : notebook.next (head ++ [.status r.status] ++ r.handled adev) ⟨.readl regIrqSts, status⟩ =
        head ++ r.notes adev ++ [.status status] := by
      show (head ++ [Note.status r.status] ++ r.handled adev) ++ [.status status] = _
      simp [IrqRound.notes]
    rw [summary_concat, hnext, Prog.meets_ite]
    refine ⟨trivial, fun hz => ⟨[r], ?_, by simp, by simpa using h0, ⟨r, rfl, rfl⟩, rfl, rfl⟩, fun hnz => ?_⟩
    · subst hz
      simp
    · refine (ih hnz (start ++ [r]) (head ++ r.notes adev)).imp ?_
      rintro st t ⟨rounds, h⟩
      exact ⟨r :: rounds, h.cons h0⟩

/-- What the handler has done when it returns: the rounds, each with a status that it
cleared, and after them the mask and the reference to the device. -/
structure Served (adev : Child → Option Adev) (notes : List Note) (ret : IrqReturn) (active : Int)
    (rounds : List IrqRound) (last : Nat) : Prop where
  notes : notes = .active active :: rounds.flatMap (IrqRound.notes adev) ++
    (if rounds.length = BUTTRESS_MAX_CONSECUTIVE_IRQS then [] else [.status last]) ++
    (if (summary adev rounds).disableIrqs ≠ 0 then
      [.enable (BUTTRESS_IRQS &&& (0xffffffff ^^^ (summary adev rounds).disableIrqs))] else []) ++
    (if active > 0 then [.put] else [])
  bound : rounds.length ≤ BUTTRESS_MAX_CONSECUTIVE_IRQS
  nonzero : ∀ r ∈ rounds, r.status ≠ 0
  last : last = 0 ∨ rounds = [] ∧ last = 0xffffffff
  ret : ret = if rounds.length = BUTTRESS_MAX_CONSECUTIVE_IRQS then .none else (summary adev rounds).ret

/-- Nothing is done for a device that is not active, else the rounds are. -/
def Serves (adev : Child → Option Adev) (notes : List Note) (ret : IrqReturn) : Prop :=
  (notes = [.active 0] ∧ ret = .none) ∨
    ∃ active rounds last, active ≠ 0 ∧ Served adev notes ret active rounds last

theorem isr_meets (adev : Child → Option Adev) :
    Prog.Meets notebook (ipu6ButtressIsr adev) [] fun ret t => Serves adev t ret := by
  simp only [ipu6ButtressIsr, Prog.meets_bind, Prog.meets_ite]
  intro active
  refine ⟨trivial, fun hzero => .inl ⟨by rw [hzero]; rfl, rfl⟩, fun hactive status => ?_⟩
  refine ⟨trivial, fun hnone => ?_, fun hsome => ?_⟩
  · refine (when_meets (putNoidle_meets [.active active, .status status])).imp ?_
    rintro _ _ rfl
    refine .inr ⟨active, [], status, hactive, ?_, by simp, by simp, ?_, ?_⟩
    · simp [BUTTRESS_MAX_CONSECUTIVE_IRQS]
    · exact hnone.imp_right fun h => ⟨rfl, h⟩
    · simp
  · have hnz : status ≠ 0 := fun h => hsome (.inl h)
    rw [← @summary_nil adev]
    refine (isrLoop_meets (BUTTRESS_MAX_CONSECUTIVE_IRQS - 1) hnz [] [.active active]).imp ?_
    rintro st _ ⟨rounds, rfl, hbound, hnonzero, -, hmask, hret⟩
    refine (when_meets (enable_meets _ _)).imp ?_
    rintro _ _ rfl
    refine (when_meets (put_meets _)).imp ?_
    rintro _ _ rfl
    refine .inr ⟨active, rounds, 0, hactive, ?_, hbound, hnonzero, .inl rfl, hret⟩
    rw [hmask]
    rfl

/-- On every machine and with any handlers of the sub-devices, the handler clears each
status that it reads before it serves it, completes one command for each status that has
one, gives back the reference it took, and masks the sub-devices that want their thread.
It asks for the thread in all of these cases but one: after a hundred rounds. -/
theorem isr_serves {σ : Type} (M : Machine Call.Ans σ) (adev : Child → Option Adev) (s : σ) :
    Serves adev (((ipu6ButtressIsr adev).log M s).filterMap Note.ofEvent)
      ((ipu6ButtressIsr adev).run M s).1 :=
  (isr_meets adev).recorded M s

end

-- ---------------------------------------------------------------------------
-- The interrupt line over whole runs
-- ---------------------------------------------------------------------------

/-- The device, the enabled interrupts as the driver has written them last, and whether
the thread of the handler is to run. -/
structure Line (σ : Type) where
  dev : σ
  enabled : Nat
  thread : Bool

/-- The handler and its thread are called by the kernel; the device changes on its own. -/
inductive LineEvent (σ : Type)
  | irq
  | thread
  | resume (wdt : Nat)
  | device (dev : σ)

def enables (notes : List Note) : List Nat :=
  notes.filterMap fun
    | .enable val => some val
    | _ => none

def clears (notes : List Note) : List Nat :=
  notes.filterMap fun
    | .cleared val => some val
    | _ => none

section
variable {σ α : Type} (M : Machine Call.Ans σ) (adev : Child → Option Adev)

def notesOf (p : Code α) (s : σ) : List Note := (p.log M s).filterMap Note.ofEvent

/-- After a program of the driver. -/
def Line.after (x : Line σ) (p : Code α) (thread : Bool) : Line σ where
  dev := (p.run M x.dev).2
  enabled := (enables (notesOf M p x.dev)).getLast?.getD x.enabled
  thread := thread

/-- The thread runs if it has been asked for. -/
def Line.next (x : Line σ) : LineEvent σ → Line σ
  | .irq =>
    let ret := ((ipu6ButtressIsr adev).run M x.dev).1
    x.after M (ipu6ButtressIsr adev) (x.thread || ret = .wakeThread)
  | .thread => if x.thread then x.after M (ipu6ButtressIsrThreaded adev) false else x
  | .resume wdt => x.after M (ipu6ButtressRestore wdt) x.thread
  | .device dev => { x with dev := dev }

/-- The handler stops after a hundred rounds, and a sub-device has been masked in one. -/
def GivesUp (s : σ) : Prop :=
  (clears (notesOf M (ipu6ButtressIsr adev) s)).length = BUTTRESS_MAX_CONSECUTIVE_IRQS ∧
    enables (notesOf M (ipu6ButtressIsr adev) s) ≠ []

instance (s : σ) : Decidable (GivesUp M adev s) := inferInstanceAs (Decidable (_ ∧ _))

def Line.Live (x : Line σ) : Prop := x.enabled = BUTTRESS_IRQS ∨ x.thread = true

end

section
variable {σ : Type} {M : Machine Call.Ans σ} {adev : Child → Option Adev} {x : Line σ}

theorem wakeMask_masks (isys psys : Bool) (h : wakeMask isys psys ≠ 0) :
    BUTTRESS_IRQS &&& (0xffffffff ^^^ wakeMask isys psys) ≠ BUTTRESS_IRQS := by
  cases isys <;> cases psys <;> revert h <;> decide

theorem summary_wakes (rounds : List IrqRound) :
    (summary adev rounds).ret = .wakeThread ↔ (summary adev rounds).disableIrqs ≠ 0 := by
  unfold summary
  generalize rounds.any (·.wakes adev .isys) = a
  generalize rounds.any (·.wakes adev .psys) = b
  generalize rounds.any (·.serves adev) = s
  cases a <;> cases b <;> cases s <;> decide

theorem enables_append (ns ns' : List Note) : enables (ns ++ ns') = enables ns ++ enables ns' :=
  List.filterMap_append ..

theorem clears_append (ns ns' : List Note) : clears (ns ++ ns') = clears ns ++ clears ns' :=
  List.filterMap_append ..

theorem asked_cases (c : Child) (a : Option Adev) (raw : IrqReturn) :
    asked c a raw = [] ∨ asked c a raw = [.asked c raw] := by
  unfold asked
  repeat' split
  all_goals simp

theorem enables_rounds (rounds : List IrqRound) : enables (rounds.flatMap (IrqRound.notes adev)) = [] := by
  induction rounds with
  | nil => rfl
  | cons r rounds ih =>
    rw [List.flatMap_cons, enables_append, ih, List.append_nil]
    unfold IrqRound.notes IrqRound.handled
    rcases asked_cases .isys (adev .isys) (r.raw .isys) with hi | hi <;>
      rcases asked_cases .psys (adev .psys) (r.raw .psys) with hp | hp <;>
      rw [hi, hp] <;> split <;> split <;> rfl

theorem clears_rounds (rounds : List IrqRound) :
    clears (rounds.flatMap (IrqRound.notes adev)) = rounds.map IrqRound.status := by
  induction rounds with
  | nil => rfl
  | cons r rounds ih =>
    rw [List.flatMap_cons, clears_append, ih, List.map_cons]
    unfold IrqRound.notes IrqRound.handled
    rcases asked_cases .isys (adev .isys) (r.raw .isys) with hi | hi <;>
      rcases asked_cases .psys (adev .psys) (r.raw .psys) with hp | hp <;>
      rw [hi, hp] <;> split <;> split <;> rfl

theorem enables_served (h : Served adev ns ret active rounds last) : enables ns =
    if (summary adev rounds).disableIrqs ≠ 0 then
      [BUTTRESS_IRQS &&& (0xffffffff ^^^ (summary adev rounds).disableIrqs)] else [] := by
  rw [h.notes, enables_append, enables_append, enables_append]
  show enables (rounds.flatMap (IrqRound.notes adev)) ++ _ ++ _ ++ _ = _
  rw [enables_rounds]
  repeat' split
  all_goals rfl

theorem clears_served (h : Served adev ns ret active rounds last) :
    clears ns = rounds.map IrqRound.status := by
  rw [h.notes, clears_append, clears_append, clears_append]
  show clears (rounds.flatMap (IrqRound.notes adev)) ++ _ ++ _ ++ _ = _
  rw [clears_rounds]
  repeat' split
  all_goals simp [clears]

theorem irq_live (h : Serves adev notes ret) (hx : enabled = BUTTRESS_IRQS ∨ thread = true) :
    ((enables notes).getLast?.getD enabled = BUTTRESS_IRQS ∨ (thread || ret = .wakeThread) = true) ↔
      ¬ ((clears notes).length = BUTTRESS_MAX_CONSECUTIVE_IRQS ∧ enables notes ≠ []) ∨ thread = true := by
  rcases h with ⟨rfl, rfl⟩ | ⟨active, rounds, last, -, hs⟩
  · simpa [enables] using hx
  rw [enables_served hs, clears_served hs, List.length_map, hs.ret]
  by_cases hmask : (summary adev rounds).disableIrqs = 0
  · rcases hx with hx | hx <;> simp [hmask, hx]
  · have hne : BUTTRESS_IRQS &&& (0xffffffff ^^^ (summary adev rounds).disableIrqs) ≠ BUTTRESS_IRQS :=
      wakeMask_masks _ _ hmask
    have hret := (summary_wakes rounds).mpr hmask
    by_cases hlen : rounds.length = BUTTRESS_MAX_CONSECUTIVE_IRQS
    · simp [hmask, hlen, hne]
    · simp [hmask, hlen, hret]

theorem threadedLoop_meets (cs : List Child) (ret : IrqReturn) (t : List Note) :
    Prog.Meets notebook (threadedLoop adev cs ret) t fun _ t' => t' = t := by
  induction cs generalizing ret t with
  | nil => rfl
  | cons c cs ih =>
    unfold threadedLoop
    cases adev c with
    | none => rfl
    | some a =>
      dsimp only
      cases a.auxdrvData with
      | none => exact ih ret t
      | some data =>
        rw [Prog.meets_ite]
        refine ⟨fun _ r => ⟨trivial, ?_⟩, fun _ => ih ret t⟩
        have hsame : notebook.next t ⟨.isrThreaded c, r⟩ = t := List.append_nil _
        rw [hsame]
        exact ih _ t

theorem threaded_notes (s : σ) : notesOf M (ipu6ButtressIsrThreaded adev) s = [.enable BUTTRESS_IRQS] := by
  have hmeets : Prog.Meets notebook (ipu6ButtressIsrThreaded adev) [] fun _ t => t = [.enable BUTTRESS_IRQS] := by
    simp only [ipu6ButtressIsrThreaded, Prog.meets_bind]
    refine (threadedLoop_meets _ _ _).imp ?_
    rintro ret _ rfl
    exact (enable_meets _ _).imp fun _ _ h => h
  exact hmeets.recorded M s

theorem restore_enables (wdt : Nat) (s : σ) :
    enables (notesOf M (ipu6ButtressRestore wdt) s) = [BUTTRESS_IRQS] := by
  have hmeets : Prog.Meets notebook (ipu6ButtressRestore wdt) [] fun _ t =>
      t = [.cleared BUTTRESS_IRQS, .enable BUTTRESS_IRQS] :=
    fun _ => ⟨trivial, fun _ => ⟨trivial, fun _ => ⟨trivial, rfl⟩⟩⟩
  have hnotes : notesOf M (ipu6ButtressRestore wdt) s = _ := hmeets.recorded M s
  rw [hnotes]
  rfl

theorem Line.next_live (hx : x.Live) (e : LineEvent σ) :
    (x.next M adev e).Live ↔ (e = .irq → ¬ GivesUp M adev x.dev ∨ x.thread = true) := by
  cases e with
  | irq =>
    have hlive := irq_live (isr_serves M adev x.dev) hx
    exact ⟨fun h _ => hlive.mp h, fun h => hlive.mpr (h rfl)⟩
  | thread =>
    refine iff_of_true ?_ (fun h => by cases h)
    unfold Line.next
    dsimp only
    split
    · left
      simp [Line.after, threaded_notes, enables]
    · exact hx
  | resume wdt =>
    refine iff_of_true (.inl ?_) (fun h => by cases h)
    simp [Line.next, Line.after, restore_enables]
  | device dev => exact iff_of_true hx (fun h => by cases h)

/-- Over any run of the handler, its thread, resumes and the device, no interrupt is
masked without the thread being due, exactly if the handler never gives up on a
sub-device that wants a thread which is not due already. -/
theorem line_live_iff (dev : σ) (thread : Bool) (es : List (LineEvent σ)) :
    (∀ y ∈ Runs.visited (Line.next M adev) ⟨dev, BUTTRESS_IRQS, thread⟩ es, (y.1.next M adev y.2).Live) ↔
      ∀ y ∈ Runs.visited (Line.next M adev) ⟨dev, BUTTRESS_IRQS, thread⟩ es,
        y.2 = .irq → ¬ GivesUp M adev y.1.dev ∨ y.1.thread = true :=
  Runs.forall_visited_iff (I := Line.Live) (.inl rfl) (fun _ e hx => Line.next_live hx e)
    fun _ e hx hc => (Line.next_live hx e).mpr hc

end

end Ipu4.Buttress
