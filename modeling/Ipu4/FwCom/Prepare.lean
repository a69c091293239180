import Ipu4.FwCom.Layout
import Ipu4.Lib.Areas
import Mathlib.Tactic.Ring

/-!
# Laying out a firmware context

`ipu6_fw_com_prepare` sums the sizes in one pass and places the parts in another,
in integers of different widths. As long as the total fits in 32 bits the two agree:
the parts lie one behind the other, and the cursor registers count up through the
queues.
-/

namespace Ipu4.FwCom

/-- `struct ipu6_fw_syscom_config`, without the address of the firmware. -/
structure SyscomConfig where
  numInputQueues : Nat
  numOutputQueues : Nat
  inputQueue : Nat
  outputQueue : Nat
  specificAddr : Nat
  specificSize : Nat
  deriving DecidableEq, Repr

/-- `struct ipu6_fw_com_context` with what is written to its buffer: the
configuration at its start, the two arrays of descriptors, and the place the specific
data are copied to. -/
structure FwComContext where
  dmaBuffer : Nat
  dmaAddr : Nat
  dmaSize : Nat
  configViedAddr : Nat
  config : SyscomConfig
  inputQueue : Nat
  outputQueue : Nat
  specificHostAddr : Nat
  inputQueues : List SysQueue
  outputQueues : List SysQueue
  deriving DecidableEq, Repr

/-- `sizeof(struct ipu6_fw_syscom_config)` and `sizeof(struct ipu6_fw_sys_queue)`. -/
def syscomConfigSize : Nat := 28
def sysQueueSize : Nat := 32

/-- `roundup(n, 8)` of an `unsigned int`. -/
def roundup32 (n : Nat) : Nat := (n + 7) % 2 ^ 32 / 8 * 8

/-- `sizeinput` and `sizeoutput`, in an `unsigned int`. -/
def sumSizes (cfgs : List QueueConfig) (size : Nat) : Nat :=
  cfgs.foldl (fun size c => (size + (c.queueSize + 1) % 2 ^ 32 * c.tokenSize) % 2 ^ 32) size

/-- `sizeall`, in a `size_t`. -/
def ComCfg.sizeAll (cfg : ComCfg) : Nat :=
  (roundup8 syscomConfigSize + cfg.input.length * sysQueueSize + cfg.output.length * sysQueueSize +
    roundup32 cfg.specificSize + (sumSizes cfg.input 0 + sumSizes cfg.output 0) % 2 ^ 32) % 2 ^ 64

/-- `ipu6_fw_com_prepare` on a buffer of `sizeAll` bytes. -/
def ComCfg.prepare (cfg : ComCfg) (dmaBuffer dmaAddr : Nat) : FwComContext :=
  let inputOffset := roundup8 syscomConfigSize
  let outputOffset := inputOffset + cfg.input.length * sysQueueSize
  let specificOffset := outputOffset + cfg.output.length * sysQueueSize
  let ringOffset := specificOffset + roundup32 cfg.specificSize
  let outputRingOffset := ringOffset + sumSizes cfg.input 0
  let (inputQueues, res) := initQueues cfg.input
    ⟨dmaBuffer + ringOffset, (dmaAddr + ringOffset) % 2 ^ 32, 6⟩
  let (outputQueues, _) := initQueues cfg.output
    ⟨dmaBuffer + outputRingOffset, (dmaAddr + outputRingOffset) % 2 ^ 32, res.reg⟩
  { dmaBuffer
    dmaAddr
    dmaSize := cfg.sizeAll % 2 ^ 32
    configViedAddr := dmaAddr % 2 ^ 32
    config := {
      numInputQueues := cfg.input.length
      numOutputQueues := cfg.output.length
      inputQueue := (dmaAddr + inputOffset) % 2 ^ 32
      outputQueue := (dmaAddr + outputOffset) % 2 ^ 32
      specificAddr := (dmaAddr + specificOffset) % 2 ^ 32
      specificSize := cfg.specificSize }
    inputQueue := dmaBuffer + inputOffset
    outputQueue := dmaBuffer + outputOffset
    specificHostAddr := dmaBuffer + specificOffset
    inputQueues
    outputQueues }

-- ---------------------------------------------------------------------------
-- Sizes
-- ---------------------------------------------------------------------------

variable {cfg : ComCfg} {cfgs : List QueueConfig} {c : QueueConfig} {res : SysQueueRes}

/-- The bytes of a ring. -/
def QueueConfig.bytes (c : QueueConfig) : Nat := (c.queueSize + 1) * c.tokenSize

theorem ringBytes_cons (c : QueueConfig) (cs : List QueueConfig) :
    ringBytes (c :: cs) = c.bytes + ringBytes cs := by
  simp [ringBytes, QueueConfig.bytes]

theorem slots_mul (h : c.bytes < 2 ^ 32) : (c.queueSize + 1) % 2 ^ 32 * c.tokenSize = c.bytes := by
  unfold QueueConfig.bytes at *
  cases htok : c.tokenSize with
  | zero => rfl
  | succ n =>
    rw [htok] at h
    have hle : c.queueSize + 1 ≤ (c.queueSize + 1) * (n + 1) := Nat.le_mul_of_pos_right _ (Nat.succ_pos n)
    rw [Nat.mod_eq_of_lt (by omega)]

theorem sumSizes_eq (cfgs : List QueueConfig) (size : Nat) (h : size + ringBytes cfgs < 2 ^ 32) :
    sumSizes cfgs size = size + ringBytes cfgs := by
  induction cfgs generalizing size with
  | nil => rfl
  | cons c cs ih =>
    rw [ringBytes_cons] at h ⊢
    have hslots := slots_mul (c := c) (by omega)
    have hnext : (size + (c.queueSize + 1) % 2 ^ 32 * c.tokenSize) % 2 ^ 32 = size + c.bytes := by
      rw [hslots, Nat.mod_eq_of_lt (by omega)]
    rw [sumSizes, List.foldl_cons, hnext, ← sumSizes, ih _ (by omega), Nat.add_assoc]

theorem roundup32_eq (h : roundup8 n < 2 ^ 32) : roundup32 n = roundup8 n := by
  unfold roundup32 roundup8 at *
  omega

theorem sizeAll_eq (h : cfg.sizeall < 2 ^ 32) : cfg.sizeAll = cfg.sizeall := by
  unfold ComCfg.sizeall ComCfg.ringOffset at *
  have hin := sumSizes_eq cfg.input 0 (by omega)
  have hout := sumSizes_eq cfg.output 0 (by omega)
  have hspec := roundup32_eq (n := cfg.specificSize) (by omega)
  rw [Nat.zero_add] at hin hout
  unfold ComCfg.sizeAll syscomConfigSize sysQueueSize
  rw [hin, hout, hspec]
  omega

-- ---------------------------------------------------------------------------
-- Queues
-- ---------------------------------------------------------------------------

open Area (InOrder)

/-- The token areas of queues that were initialised with `cfgs`. -/
def rings (cfgs : List QueueConfig) (qs : List SysQueue) : List Area :=
  List.zipWith (fun c q => ⟨q.hostAddress, c.bytes⟩) cfgs qs

/-- The host address of a queue and its IOVA are as far into their buffers. -/
def SysQueue.SameOffset (q : SysQueue) (hostAddress viedAddress : Nat) : Prop :=
  ∃ offset, q.hostAddress = hostAddress + offset ∧ q.viedAddress = (viedAddress + offset) % 2 ^ 32

theorem ipu6SysQueueInit_next (h : c.bytes < 2 ^ 32) :
    (ipu6SysQueueInit c.queueSize c.tokenSize res).2 =
      ⟨res.hostAddress + c.bytes, (res.viedAddress + c.bytes) % 2 ^ 32, res.reg + 2⟩ := by
  have hmod : (c.queueSize + 1) * c.tokenSize % 2 ^ 32 = c.bytes := Nat.mod_eq_of_lt h
  simp only [ipu6SysQueueInit, hmod]

theorem initQueues_cons (c : QueueConfig) (cs : List QueueConfig) (res : SysQueueRes) :
    initQueues (c :: cs) res =
      ((ipu6SysQueueInit c.queueSize c.tokenSize res).1 ::
        (initQueues cs (ipu6SysQueueInit c.queueSize c.tokenSize res).2).1,
        (initQueues cs (ipu6SysQueueInit c.queueSize c.tokenSize res).2).2) := rfl

theorem initQueues_length : (initQueues cfgs res).1.length = cfgs.length := by
  induction cfgs generalizing res with
  | nil => rfl
  | cons c cs ih => rw [initQueues_cons, List.length_cons, ih, List.length_cons]

theorem initQueues_inOrder (cfgs : List QueueConfig) (res : SysQueueRes) (h : ringBytes cfgs < 2 ^ 32) :
    InOrder res.hostAddress (rings cfgs (initQueues cfgs res).1) (res.hostAddress + ringBytes cfgs) := by
  induction cfgs generalizing res with
  | nil => exact Nat.le_refl _
  | cons c cs ih =>
    rw [ringBytes_cons] at h ⊢
    have hrest := ih (ipu6SysQueueInit c.queueSize c.tokenSize res).2 (by omega)
    rw [ipu6SysQueueInit_next (by omega)] at hrest
    rw [initQueues_cons, ipu6SysQueueInit_next (by omega), ← Nat.add_assoc]
    exact ⟨Nat.le_refl _, hrest⟩

theorem initQueues_sameOffset (h : ringBytes cfgs < 2 ^ 32) (q : SysQueue)
    (hq : q ∈ (initQueues cfgs res).1) (hres : res.viedAddress < 2 ^ 32) :
    q.SameOffset res.hostAddress res.viedAddress := by
  induction cfgs generalizing res with
  | nil => cases hq
  | cons c cs ih =>
    rw [ringBytes_cons] at h
    rw [initQueues_cons] at hq
    cases hq with
    | head => exact ⟨0, rfl, (Nat.mod_eq_of_lt hres).symm⟩
    | tail _ hq =>
      rw [ipu6SysQueueInit_next (by omega)] at hq
      obtain ⟨offset, hhost, hvied⟩ := ih (by omega) hq (Nat.mod_lt _ (by decide))
      refine ⟨c.bytes + offset, ?_, ?_⟩
      · rw [hhost, Nat.add_assoc]
      · rw [hvied, Nat.mod_add_mod, Nat.add_assoc]

theorem initQueues_regs (cfgs : List QueueConfig) (res : SysQueueRes) (h : ringBytes cfgs < 2 ^ 32) :
    (initQueues cfgs res).2.reg = res.reg + 2 * cfgs.length ∧
      ∀ k q, (initQueues cfgs res).1[k]? = some q →
        q.wrReg = res.reg + 2 * k ∧ q.rdReg = res.reg + 1 + 2 * k := by
  induction cfgs generalizing res with
  | nil => simp [initQueues]
  | cons c cs ih =>
    rw [ringBytes_cons] at h
    obtain ⟨hlast, hregs⟩ := ih (ipu6SysQueueInit c.queueSize c.tokenSize res).2 (by omega)
    rw [initQueues_cons]
    rw [ipu6SysQueueInit_next (by omega)] at hlast hregs ⊢
    refine ⟨by rw [hlast, List.length_cons]; ring, ?_⟩
    rintro k q hq
    cases k with
    | zero =>
      obtain rfl := Option.some.inj hq
      exact ⟨rfl, rfl⟩
    | succ k =>
      obtain ⟨hwr, hrd⟩ := hregs k q hq
      rw [hwr, hrd]
      exact ⟨by ring, by ring⟩

-- ---------------------------------------------------------------------------
-- The buffer
-- ---------------------------------------------------------------------------

variable {dmaBuffer dmaAddr : Nat}

/-- All the code and the firmware find in the buffer. -/
def FwComContext.areas (ctx : FwComContext) (cfg : ComCfg) : List Area :=
  [⟨ctx.dmaBuffer, syscomConfigSize⟩, ⟨ctx.inputQueue, cfg.input.length * sysQueueSize⟩,
    ⟨ctx.outputQueue, cfg.output.length * sysQueueSize⟩, ⟨ctx.specificHostAddr, cfg.specificSize⟩] ++
    (rings cfg.input ctx.inputQueues ++ rings cfg.output ctx.outputQueues)

/-- What driver, firmware and device rely on in a context. -/
structure FwComContext.LaidOut (ctx : FwComContext) (cfg : ComCfg) : Prop where
  size : ctx.dmaSize = cfg.sizeAll
  disjoint : (ctx.areas cfg).Pairwise Area.Disjoint
  inside : ∀ a ∈ ctx.areas cfg, a.Within ctx.dmaBuffer (ctx.dmaBuffer + cfg.sizeAll)
  queues : ctx.inputQueues.length = cfg.input.length ∧ ctx.outputQueues.length = cfg.output.length
  offsets : ∀ q ∈ ctx.inputQueues ++ ctx.outputQueues, q.SameOffset ctx.dmaBuffer ctx.dmaAddr
  regs : ∀ k q, (ctx.inputQueues ++ ctx.outputQueues)[k]? = some q →
    q.wrReg = 6 + 2 * k ∧ q.rdReg = 7 + 2 * k

theorem SysQueue.SameOffset.shift {q : SysQueue} {hostAddress viedAddress d : Nat}
    (h : q.SameOffset (hostAddress + d) ((viedAddress + d) % 2 ^ 32)) :
    q.SameOffset hostAddress viedAddress := by
  obtain ⟨offset, hhost, hvied⟩ := h
  refine ⟨d + offset, ?_, ?_⟩
  · rw [hhost, Nat.add_assoc]
  · rw [hvied, Nat.mod_add_mod, Nat.add_assoc]

/-- What the widths leave of the total. -/
structure ComCfg.Fits (cfg : ComCfg) : Prop where
  input : sumSizes cfg.input 0 = ringBytes cfg.input
  specific : roundup32 cfg.specificSize = roundup8 cfg.specificSize
  bytes : cfg.ringOffset + ringBytes cfg.input + ringBytes cfg.output < 2 ^ 32

theorem fits_of_sizeall (h : cfg.sizeall < 2 ^ 32) : cfg.Fits := by
  have hbytes : cfg.ringOffset + ringBytes cfg.input + ringBytes cfg.output < 2 ^ 32 := h
  unfold ComCfg.sizeall ComCfg.ringOffset at h
  have hin := sumSizes_eq cfg.input 0 (by omega)
  exact ⟨hin.trans (Nat.zero_add _), roundup32_eq (by omega), hbytes⟩

theorem ComCfg.Fits.queues (h : cfg.Fits) (dmaBuffer dmaAddr : Nat) :
    (cfg.prepare dmaBuffer dmaAddr).inputQueues = (ipu6FwComPrepare cfg dmaBuffer dmaAddr).1 ∧
      (cfg.prepare dmaBuffer dmaAddr).outputQueues = (ipu6FwComPrepare cfg dmaBuffer dmaAddr).2 := by
  simp only [ComCfg.prepare, h.input, h.specific]
  exact ⟨rfl, rfl⟩

theorem header_inOrder (cfg : ComCfg) (dmaBuffer : Nat) :
    InOrder dmaBuffer
      [⟨dmaBuffer, syscomConfigSize⟩, ⟨dmaBuffer + roundup8 syscomConfigSize, cfg.input.length * sysQueueSize⟩,
        ⟨dmaBuffer + (roundup8 syscomConfigSize + cfg.input.length * sysQueueSize),
          cfg.output.length * sysQueueSize⟩,
        ⟨dmaBuffer + (roundup8 syscomConfigSize + cfg.input.length * sysQueueSize +
          cfg.output.length * sysQueueSize), cfg.specificSize⟩]
      (dmaBuffer + cfg.ringOffset) := by
  have hspec : cfg.specificSize ≤ roundup8 cfg.specificSize := by
    unfold roundup8
    omega
  have hconf : roundup8 28 = 32 := rfl
  simp only [InOrder, ComCfg.ringOffset, syscomConfigSize, sysQueueSize, hconf]
  omega

theorem ComCfg.Fits.inOrder (h : cfg.Fits) (dmaBuffer dmaAddr : Nat) :
    InOrder dmaBuffer ((cfg.prepare dmaBuffer dmaAddr).areas cfg) (dmaBuffer + cfg.sizeall) := by
  have hbytes := h.bytes
  obtain ⟨hin, hout⟩ := h.queues dmaBuffer dmaAddr
  rw [FwComContext.areas, hin, hout]
  have hinput : InOrder (dmaBuffer + cfg.ringOffset) (rings cfg.input (ipu6FwComPrepare cfg dmaBuffer dmaAddr).1)
      (dmaBuffer + cfg.ringOffset + ringBytes cfg.input) :=
    initQueues_inOrder cfg.input ⟨dmaBuffer + cfg.ringOffset, (dmaAddr + cfg.ringOffset) % 2 ^ 32, 6⟩
      (by omega)
  have houtput : InOrder (dmaBuffer + (cfg.ringOffset + ringBytes cfg.input))
      (rings cfg.output (ipu6FwComPrepare cfg dmaBuffer dmaAddr).2)
      (dmaBuffer + (cfg.ringOffset + ringBytes cfg.input) + ringBytes cfg.output) :=
    initQueues_inOrder cfg.output ⟨dmaBuffer + (cfg.ringOffset + ringBytes cfg.input),
      (dmaAddr + (cfg.ringOffset + ringBytes cfg.input)) % 2 ^ 32, _⟩ (by omega)
  have hend : dmaBuffer + cfg.sizeall =
      dmaBuffer + (cfg.ringOffset + ringBytes cfg.input) + ringBytes cfg.output := by
    simp only [ComCfg.sizeall, Nat.add_assoc]
  rw [hend]
  rw [Nat.add_assoc] at hinput
  exact (header_inOrder cfg dmaBuffer).append (hinput.append houtput)

theorem ComCfg.Fits.sameOffset (h : cfg.Fits) (dmaBuffer dmaAddr : Nat) :
    ∀ q ∈ (ipu6FwComPrepare cfg dmaBuffer dmaAddr).1 ++ (ipu6FwComPrepare cfg dmaBuffer dmaAddr).2,
      q.SameOffset dmaBuffer dmaAddr := by
  have hbytes := h.bytes
  have hin : ringBytes cfg.input < 2 ^ 32 := by omega
  have hout : ringBytes cfg.output < 2 ^ 32 := by omega
  intro q hq
  rcases List.mem_append.mp hq with hq | hq
  · exact (initQueues_sameOffset hin q hq (Nat.mod_lt _ (by decide))).shift
  · exact (initQueues_sameOffset hout q hq (Nat.mod_lt _ (by decide))).shift

theorem ComCfg.Fits.regs (h : cfg.Fits) (dmaBuffer dmaAddr : Nat) :
    ∀ k q, ((ipu6FwComPrepare cfg dmaBuffer dmaAddr).1 ++
        (ipu6FwComPrepare cfg dmaBuffer dmaAddr).2)[k]? = some q →
      q.wrReg = 6 + 2 * k ∧ q.rdReg = 7 + 2 * k := by
  have hbytes := h.bytes
  have hlen : (ipu6FwComPrepare cfg dmaBuffer dmaAddr).1.length = cfg.input.length := initQueues_length
  obtain ⟨hlast, hin⟩ := initQueues_regs cfg.input
    ⟨dmaBuffer + cfg.ringOffset, (dmaAddr + cfg.ringOffset) % 2 ^ 32, 6⟩ (by omega)
  intro k q hq
  rw [List.getElem?_append] at hq
  split at hq
  · exact hin k q hq
  · obtain ⟨-, hout⟩ := initQueues_regs cfg.output
      ⟨dmaBuffer + (cfg.ringOffset + ringBytes cfg.input),
        (dmaAddr + (cfg.ringOffset + ringBytes cfg.input)) % 2 ^ 32, _⟩ (by omega)
    obtain ⟨hwr, hrd⟩ := hout _ q hq
    rw [hwr, hrd, hlast, hlen]
    dsimp only
    omega

theorem prepare_laidOut (dmaBuffer dmaAddr : Nat) (h : cfg.sizeall < 2 ^ 32) :
    (cfg.prepare dmaBuffer dmaAddr).LaidOut cfg := by
  have hfits := fits_of_sizeall h
  have horder := hfits.inOrder dmaBuffer dmaAddr
  obtain ⟨hin, hout⟩ := hfits.queues dmaBuffer dmaAddr
  exact {
    size := Nat.mod_eq_of_lt (by rw [sizeAll_eq h]; exact h)
    disjoint := horder.pairwise
    inside := by
      rw [sizeAll_eq h]
      exact horder.within
    queues := ⟨initQueues_length, initQueues_length⟩
    offsets := by
      rw [hin, hout]
      exact hfits.sameOffset dmaBuffer dmaAddr
    regs := by
      rw [hin, hout]
      exact hfits.regs dmaBuffer dmaAddr }

end Ipu4.FwCom
