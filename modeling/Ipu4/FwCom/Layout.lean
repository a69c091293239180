import Ipu4.FwCom.Tokens

/-!
# The shared buffer of a firmware context

`ipu6_fw_com_prepare` lays out one DMA buffer: the configuration, the queue
descriptors, data of the subsystem and then the rings, one after the other and
without regard to page boundaries. `isysCfg` is what
`ipu6_isys_fwcom_cfg_init` asks for on IPU4.
-/

namespace Ipu4.FwCom

/-- `struct ipu6_fw_syscom_queue_config`. -/
structure QueueConfig where
  queueSize : Nat
  tokenSize : Nat
  deriving DecidableEq, Repr

/-- The fields of `struct ipu6_fw_com_cfg` that decide the layout. -/
structure ComCfg where
  input : List QueueConfig
  output : List QueueConfig
  specificSize : Nat

def roundup8 (n : Nat) : Nat := (n + 7) / 8 * 8

def ringBytes (cfgs : List QueueConfig) : Nat :=
  (cfgs.map fun c => (c.queueSize + 1) * c.tokenSize).sum

/-- `sizeof(struct ipu6_fw_syscom_config)` is 28, that of a descriptor 32. -/
def ComCfg.ringOffset (cfg : ComCfg) : Nat :=
  roundup8 28 + cfg.input.length * 32 + cfg.output.length * 32 + roundup8 cfg.specificSize

def ComCfg.sizeall (cfg : ComCfg) : Nat :=
  cfg.ringOffset + ringBytes cfg.input + ringBytes cfg.output

def initQueues : List QueueConfig → SysQueueRes → List SysQueue × SysQueueRes
  | [], res => ([], res)
  | c :: cs, res =>
    let (q, res) := ipu6SysQueueInit c.queueSize c.tokenSize res
    let (qs, res) := initQueues cs res
    (q :: qs, res)

/-- The descriptors, input queues first. `dmaBuffer` and `dmaAddr` are the two
addresses of the buffer; the first cursor register is `SYSCOM_QPR_BASE_REG`. -/
def ipu6FwComPrepare (cfg : ComCfg) (dmaBuffer dmaAddr : Nat) : List SysQueue × List SysQueue :=
  let offset := cfg.ringOffset
  let (inputQueue, res) := initQueues cfg.input
    ⟨dmaBuffer + offset, (dmaAddr + offset) % 2 ^ 32, 6⟩
  let offset := offset + ringBytes cfg.input
  let (outputQueue, _) := initQueues cfg.output
    ⟨dmaBuffer + offset, (dmaAddr + offset) % 2 ^ 32, res.reg⟩
  (inputQueue, outputQueue)

/-- A ring lies between two addresses of the device. -/
structure SysQueue.Within (q : SysQueue) (lo hi : Nat) : Prop where
  le : lo ≤ q.viedAddress
  fits : q.viedAddress + q.size * q.tokenSize ≤ hi

theorem SysQueue.Within.mono {q : SysQueue} (h : q.Within lo hi) (hlo : lo' ≤ lo) (hhi : hi ≤ hi') :
    q.Within lo' hi' :=
  ⟨Nat.le_trans hlo h.le, Nat.le_trans h.fits hhi⟩

theorem initQueues_within (hpos : ∀ c ∈ cfgs, 0 < c.tokenSize)
    (h : res.viedAddress + ringBytes cfgs < 2 ^ 32) :
    ∀ q ∈ (initQueues cfgs res).1,
      q.Within res.viedAddress (res.viedAddress + ringBytes cfgs) := by
  induction cfgs generalizing res with
  | nil => simp [initQueues]
  | cons c cs ih =>
    have hbytes : ringBytes (c :: cs) = (c.queueSize + 1) * c.tokenSize + ringBytes cs := by
      simp [ringBytes]
    rw [hbytes] at h ⊢
    have hc : 0 < c.tokenSize := hpos c List.mem_cons_self
    have hle : c.queueSize + 1 ≤ (c.queueSize + 1) * c.tokenSize := Nat.le_mul_of_pos_right _ hc
    have hsize : (c.queueSize + 1) % 2 ^ 32 = c.queueSize + 1 := Nat.mod_eq_of_lt (by omega)
    have hbuf : (c.queueSize + 1) * c.tokenSize % 2 ^ 32 = (c.queueSize + 1) * c.tokenSize :=
      Nat.mod_eq_of_lt (by omega)
    have hnext : (res.viedAddress + (c.queueSize + 1) * c.tokenSize) % 2 ^ 32 =
        res.viedAddress + (c.queueSize + 1) * c.tokenSize := Nat.mod_eq_of_lt (by omega)
    simp only [initQueues, ipu6SysQueueInit, hsize, hbuf, hnext, List.forall_mem_cons]
    refine ⟨⟨Nat.le_refl _, by dsimp only; omega⟩, fun q hq => ?_⟩
    refine (ih (fun c hc => hpos c (List.mem_cons_of_mem _ hc)) (by dsimp only; omega) q hq).mono
      ?_ ?_ <;> dsimp only <;> omega

theorem ipu6FwComPrepare_within (hpos : ∀ c ∈ cfg.input ++ cfg.output, 0 < c.tokenSize)
    (h : dmaAddr + cfg.sizeall < 2 ^ 32) :
    ∀ q ∈ (ipu6FwComPrepare cfg dmaBuffer dmaAddr).1 ++ (ipu6FwComPrepare cfg dmaBuffer dmaAddr).2,
      q.Within dmaAddr (dmaAddr + cfg.sizeall) := by
  unfold ComCfg.sizeall at h ⊢
  have hin : (dmaAddr + cfg.ringOffset) % 2 ^ 32 = dmaAddr + cfg.ringOffset :=
    Nat.mod_eq_of_lt (by omega)
  have hout : (dmaAddr + (cfg.ringOffset + ringBytes cfg.input)) % 2 ^ 32 =
      dmaAddr + (cfg.ringOffset + ringBytes cfg.input) := Nat.mod_eq_of_lt (by omega)
  intro q hq
  rw [List.mem_append] at hq
  simp only [ipu6FwComPrepare, hin, hout] at hq
  rcases hq with hq | hq
  · refine (initQueues_within (fun c hc => hpos c (List.mem_append_left _ hc))
      (by dsimp only; omega) q hq).mono ?_ ?_ <;> dsimp only <;> omega
  · refine (initQueues_within (fun c hc => hpos c (List.mem_append_right _ hc))
      (by dsimp only; omega) q hq).mono ?_ ?_ <;> dsimp only <;> omega

-- ---------------------------------------------------------------------------
-- The queues of ISYS
-- ---------------------------------------------------------------------------

/-- One proxy and one device queue, eight message queues of 40 commands, the
proxy's responses and the common queue of 40 responses. -/
def isysCfg : ComCfg where
  input := ⟨5, 16⟩ :: ⟨8, 16⟩ :: List.replicate 8 ⟨40, 16⟩
  output := [⟨5, 12⟩, ⟨40, 64⟩]
  specificSize := 56

theorem isysCfg_sizeall : isysCfg.sizeall = 8656 := by decide

def msgSendQueue (dmaBuffer dmaAddr stream : Nat) : SysQueue where
  hostAddress := dmaBuffer + (712 + 656 * stream)
  viedAddress := (dmaAddr + (712 + 656 * stream)) % 2 ^ 32
  size := 41
  tokenSize := 16
  wrReg := 10 + 2 * stream
  rdReg := 11 + 2 * stream

def msgRecvQueue (dmaBuffer dmaAddr : Nat) : SysQueue where
  hostAddress := dmaBuffer + 6032
  viedAddress := (dmaAddr + 6032) % 2 ^ 32
  size := 41
  tokenSize := 64
  wrReg := 28
  rdReg := 29

theorem prepare_msgSendQueue (dmaBuffer dmaAddr : Nat) (h : stream < 8) :
    (ipu6FwComPrepare isysCfg dmaBuffer dmaAddr).1[2 + stream]? =
      some (msgSendQueue dmaBuffer dmaAddr stream) := by
  have hcases : stream = 0 ∨ stream = 1 ∨ stream = 2 ∨ stream = 3 ∨ stream = 4 ∨ stream = 5 ∨
      stream = 6 ∨ stream = 7 := by omega
  rcases hcases with rfl | rfl | rfl | rfl | rfl | rfl | rfl | rfl <;>
    simp [ipu6FwComPrepare, isysCfg, initQueues, ipu6SysQueueInit, msgSendQueue, ringBytes,
      ComCfg.ringOffset, roundup8, List.replicate, Nat.add_assoc]

theorem prepare_msgRecvQueue (dmaBuffer dmaAddr : Nat) :
    (ipu6FwComPrepare isysCfg dmaBuffer dmaAddr).2[1]? = some (msgRecvQueue dmaBuffer dmaAddr) := by
  simp [ipu6FwComPrepare, isysCfg, initQueues, ipu6SysQueueInit, msgRecvQueue, ringBytes,
    ComCfg.ringOffset, roundup8, List.replicate, Nat.add_assoc]

end Ipu4.FwCom
