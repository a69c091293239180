import Ipu4.FwCom.Prepare
import Ipu4.Isys.Format
import Ipu4.Qemu.Consumption
import Ipu4.Lib.Errno

/-!
# The queues that ISYS asks for

`ipu6_isys_fwcom_cfg_init` fills two arrays of queue configurations by index. For the
eight streams of IPU4 they are exactly `isysCfg`, and the registers which the
preparation numbers off are the ones the QEMU model has built in.
-/

namespace Ipu4.FwCom

open Isys (clamp)

/-- The fields of `struct ipu6_isys_internal_pdata` that size the queues. -/
structure IsysInternalPdata where
  dmemOffset : Nat
  numParallelStreams : Nat
  maxStreams : Nat
  maxSendQueues : Nat
  maxSramBlocks : Nat
  maxDevqSize : Nat

/-- `isys_ipdata` of IPU4. -/
def isysIpdata : IsysInternalPdata where
  dmemOffset := 0x8000
  numParallelStreams := 8
  maxStreams := 8
  maxSendQueues := 10
  maxSramBlocks := 8
  maxDevqSize := 8

/-- `struct ipu6_fw_isys_fw_config`; queues are counted by type: proxy, device, message. -/
structure IsysFwConfig where
  numGdaPages : List Nat
  numSendQueues : List Nat
  numRecvQueues : List Nat
  deriving DecidableEq, Repr

/-- `sizeof(struct ipu6_fw_isys_fw_config)`. -/
def isysFwConfigSize : Nat := 56

/-- `struct ipu6_fw_com_cfg`, with the arrays it points to. -/
structure FwComCfg where
  numInputQueues : Nat
  numOutputQueues : Nat
  input : List QueueConfig
  output : List QueueConfig
  dmemAddr : Nat
  specificAddr : Option IsysFwConfig
  specificSize : Nat
  deriving DecidableEq, Repr

/-- The configuration as `ipu6_fw_isys_init` starts with it. -/
def FwComCfg.zero : FwComCfg := ⟨0, 0, [], [], 0, none, 0⟩

/-- The queues that `ipu6_fw_com_prepare` goes through. -/
def FwComCfg.toComCfg (fwcom : FwComCfg) : ComCfg where
  input := fwcom.input.take fwcom.numInputQueues
  output := fwcom.output.take fwcom.numOutputQueues
  specificSize := fwcom.specificSize

def fillQueues (queues : List QueueConfig) (base : Nat) (entry : QueueConfig) : Nat → List QueueConfig
  | 0 => queues
  | i + 1 => (fillQueues queues base entry i).set (base + i) entry

/-- The outcomes of the three `devm_kzalloc`. -/
structure CfgEnv where
  isysFwCfg : Bool
  inputQueueCfg : Bool
  outputQueueCfg : Bool

def CfgEnv.Ok (env : CfgEnv) : Prop :=
  env.isysFwCfg = true ∧ env.inputQueueCfg = true ∧ env.outputQueueCfg = true

instance (env : CfgEnv) : Decidable env.Ok := inferInstanceAs (Decidable (_ ∧ _ ∧ _))

/-- `ipu6_isys_fwcom_cfg_init`. -/
def isysFwcomCfgInit (ipdata : IsysInternalPdata) (env : CfgEnv) (fwcom : FwComCfg) (numStreams : Nat) :
    FwComCfg × Int :=
  let numInMessageQueues := clamp numStreams 1 ipdata.maxStreams
  if !env.isysFwCfg then (fwcom, -ENOMEM)
  else if !env.inputQueueCfg then (fwcom, -ENOMEM)
  else if !env.outputQueueCfg then (fwcom, -ENOMEM)
  else
    let inputQueueCfg := List.replicate ipdata.maxSendQueues ⟨0, 0⟩
    let outputQueueCfg := List.replicate 2 ⟨0, 0⟩
    -- proxy, device and message queues
    let inputQueueCfg := fillQueues inputQueueCfg 0 ⟨5, 16⟩ 1
    let inputQueueCfg := fillQueues inputQueueCfg 1 ⟨ipdata.maxDevqSize, 16⟩ 1
    let inputQueueCfg := fillQueues inputQueueCfg 2 ⟨40, 16⟩ numInMessageQueues
    let outputQueueCfg := fillQueues outputQueueCfg 0 ⟨5, 12⟩ 1
    let outputQueueCfg := fillQueues outputQueueCfg 1 ⟨40, 64⟩ 1
    let numGdaPages := (List.range ipdata.maxSramBlocks).map fun i =>
      if i < numInMessageQueues then 128 * 32 / numInMessageQueues else 0
    ({ numInputQueues := 1 + 1 + numInMessageQueues
       numOutputQueues := 1 + 0 + 1
       input := inputQueueCfg
       output := outputQueueCfg
       dmemAddr := ipdata.dmemOffset
       specificAddr := some ⟨numGdaPages, [1, 1, numInMessageQueues], [1, 0, 1]⟩
       specificSize := isysFwConfigSize }, 0)

-- ---------------------------------------------------------------------------
-- IPU4
-- ---------------------------------------------------------------------------

theorem isysFwcomCfgInit_ok (fwcom : FwComCfg) (h : env.Ok) :
    (isysFwcomCfgInit isysIpdata env fwcom isysIpdata.numParallelStreams).1.toComCfg = isysCfg := by
  obtain ⟨hcfg, hin, hout⟩ := h
  simp only [isysFwcomCfgInit, hcfg, hin, hout]
  rfl

theorem isysFwcomCfgInit_failed (fwcom : FwComCfg) (numStreams : Nat) (h : ¬ env.Ok) :
    (isysFwcomCfgInit ipdata env fwcom numStreams).1 = fwcom := by
  simp only [isysFwcomCfgInit]
  repeat' split
  · rfl
  · rfl
  · rfl
  · simp_all [CfgEnv.Ok]

-- ---------------------------------------------------------------------------
-- The registers of the QEMU model
-- ---------------------------------------------------------------------------

/-- `IS_DMEM_FW_COM_RECV_WR_POS` and `IS_DMEM_FW_COM_RECV_RD_POS`, as registers. -/
def recvWrReg : Nat := 0x070 / 4
def recvRdReg : Nat := 0x074 / 4

/-- The queues of a context work on the cursors that the QEMU model watches. -/
structure FwComContext.MatchesQemu (ctx : FwComContext) : Prop where
  send : ∀ stream < Qemu.IPU4_MAX_MSG_STREAMS,
    ∃ q, ctx.inputQueues[Qemu.IPU4_BASE_MSG_SEND_QUEUES + stream]? = some q ∧
      q.wrReg = Qemu.sendWrReg stream ∧ q.rdReg = Qemu.sendRdReg stream
  recv : ∃ q, ctx.outputQueues[1]? = some q ∧ q.wrReg = recvWrReg ∧ q.rdReg = recvRdReg

theorem isysCfg_fits : isysCfg.Fits := fits_of_sizeall (by rw [isysCfg_sizeall]; decide)

theorem prepare_matchesQemu (dmaBuffer dmaAddr : Nat) :
    (isysCfg.prepare dmaBuffer dmaAddr).MatchesQemu := by
  obtain ⟨hin, hout⟩ := isysCfg_fits.queues dmaBuffer dmaAddr
  constructor
  · intro stream hstream
    rw [hin]
    exact ⟨_, prepare_msgSendQueue dmaBuffer dmaAddr hstream, rfl, rfl⟩
  · rw [hout]
    exact ⟨_, prepare_msgRecvQueue dmaBuffer dmaAddr, rfl, rfl⟩

/-- A context is laid out without overlap whatever queues it has, and for IPU4 on the
registers of the QEMU model. -/
theorem syscom_layout (dmaBuffer dmaAddr : Nat) :
    (∀ cfg : ComCfg, cfg.sizeall < 2 ^ 32 → (cfg.prepare dmaBuffer dmaAddr).LaidOut cfg) ∧
      ∀ env fwcom, env.Ok →
        ((isysFwcomCfgInit isysIpdata env fwcom 8).1.toComCfg.prepare dmaBuffer dmaAddr).MatchesQemu := by
  constructor
  · intro cfg h
    exact prepare_laidOut dmaBuffer dmaAddr h
  · intro env fwcom h
    have hcfg := isysFwcomCfgInit_ok fwcom h
    rw [isysIpdata] at hcfg
    rw [isysIpdata, hcfg]
    exact prepare_matchesQemu dmaBuffer dmaAddr

theorem syscom_layout_isys :
    isysCfg.sizeall < 2 ^ 32 ∧ (isysCfg.prepare 0x1000 0x10000).LaidOut isysCfg ∧
      (⟨true, true, true⟩ : CfgEnv).Ok ∧
      ((isysFwcomCfgInit isysIpdata ⟨true, true, true⟩ .zero 8).1.toComCfg.prepare
        0x1000 0x10000).MatchesQemu :=
  ⟨by decide, (syscom_layout 0x1000 0x10000).1 isysCfg (by decide), by decide,
    (syscom_layout 0x1000 0x10000).2 _ _ (by decide)⟩

end Ipu4.FwCom
