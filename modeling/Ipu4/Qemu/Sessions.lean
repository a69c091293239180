import Ipu4.Qemu.Responses

/-!
# Commands across firmware sessions

A session is one firmware context of the driver: `ipu6_fw_com_open` tells the
device where its shared buffer is, commands are put on eight send queues, and
`ipu6_fw_com_close` ends it. The cursors in DMEM outlive a session, but the
model's own copies of them start again from 0 with the next one. A stream whose
cursor was left elsewhere has slots dispatched that nobody put.
-/

namespace Ipu4.Qemu

open FwCom
open Runs (Reachable Enabled)

-- ---------------------------------------------------------------------------
-- The driver's side
-- ---------------------------------------------------------------------------

/-- `ctx` are the two addresses of the buffer of the open context. `sent` counts
the tokens put in it by stream, `put` are all the tokens put so far. -/
structure Host where
  dev : Ipu4State
  ctx : Option (Nat × Nat)
  sent : Nat → Nat
  put : List (Nat × SendToken)

inductive HostEv where
  | fwOpen (dmaBuffer dmaAddr : Nat) (dma : Dma)
  | send (stream : Fin 8) (token : SendToken) (dma : Dma)
  | fwClose (dma : Dma)

/-- The three writes; `query_sp` always finds the cell ready. -/
def ipu6FwComOpen (dma : Dma) (s : Ipu4State) (dmaAddr : Nat) : Ipu4State :=
  let s := ipu4DmemWrite dma s SYSCOM_STATE_REG SYSCOM_STATE_UNINIT
  let s := ipu4DmemWrite dma s SYSCOM_COMMAND_REG SYSCOM_COMMAND_UNINIT
  ipu4DmemWrite dma s SYSCOM_CONFIG_REG dmaAddr

def ipu6FwComClose (dma : Dma) (s : Ipu4State) : Ipu4State :=
  if ipu4DmemRead s SYSCOM_STATE_REG ≠ SYSCOM_STATE_READY then s
  else ipu4DmemWrite dma s SYSCOM_COMMAND_REG SYSCOM_COMMAND_INACTIVE

/-- The slot of the token, if there is a free one. -/
def ipu6SendGetToken (s : Ipu4State) (q : SysQueue) : Option Nat :=
  if noToken (sendPackets q.size (ipu4DmemRead s q.wrReg) (ipu4DmemRead s q.rdReg)) then none
  else some (ipu4DmemRead s q.wrReg)

def ipu6SendPutToken (dma : Dma) (s : Ipu4State) (q : SysQueue) : Ipu4State :=
  ipu4DmemWrite dma s q.wrReg (putCursor q.size (ipu4DmemRead s q.wrReg))

/-- `ipu6_fw_isys_complex_cmd`; `-EBUSY` leaves everything as it was. -/
def ipu6FwIsysComplexCmd (h : Host) (dmaBuffer dmaAddr stream : Nat) (token : SendToken)
    (dma : Dma) : Host :=
  let q := msgSendQueue dmaBuffer dmaAddr stream
  match ipu6SendGetToken h.dev q with
  | none => h
  | some _ =>
    { h with
      dev := ipu6SendPutToken dma h.dev q
      sent := Function.update h.sent stream (h.sent stream + 1)
      put := h.put ++ [(stream, token)] }

def hostStep (h : Host) : HostEv → Option Host
  | .fwOpen dmaBuffer dmaAddr dma =>
    some { h with
      dev := ipu6FwComOpen dma h.dev dmaAddr
      ctx := some (dmaBuffer, dmaAddr)
      sent := fun _ => 0 }
  | .send stream token dma => match h.ctx with
    | none => none
    | some (dmaBuffer, dmaAddr) =>
      some (ipu6FwIsysComplexCmd h dmaBuffer dmaAddr stream token dma)
  | .fwClose dma => match h.ctx with
    | none => none
    | some _ => some { h with dev := ipu6FwComClose dma h.dev, ctx := none }

/-- After the reset of the device, before the first session. -/
def hostInit : Host := ⟨Ipu4State.reset, none, fun _ => 0, []⟩

-- ---------------------------------------------------------------------------
-- The condition
-- ---------------------------------------------------------------------------

/-- The DMA helpers find in the open buffer what the driver has put there: the
descriptors of the two queues and the token in the slot at the cursor. -/
structure Dma.Sees (dma : Dma) (s : Ipu4State) (dmaBuffer dmaAddr stream : Nat)
    (token : SendToken) : Prop where
  addr : dmaAddr ≠ 0
  desc : ∃ cfg, dma.config dmaAddr = some cfg ∧
    ipu4LoadQueueDesc dma cfg.inputQueue (IPU4_BASE_MSG_SEND_QUEUES + stream) =
      some (msgSendQueue dmaBuffer dmaAddr stream)
  slot : dma.token (slotIova (msgSendQueue dmaBuffer dmaAddr stream) (s.isDmem (sendWrReg stream))) =
    some token
  recv : dma.ReadsRecv (msgRecvQueue dmaBuffer dmaAddr) dmaAddr

/-- The first token of a session finds the stream's write cursor at 0. -/
def HostMeets (h : Host) : HostEv → Prop
  | .send stream token dma => ∀ dmaBuffer dmaAddr, h.ctx = some (dmaBuffer, dmaAddr) →
      dma.Sees h.dev dmaBuffer dmaAddr stream token ∧
        (h.sent stream = 0 → h.dev.isDmem (sendWrReg stream) = 0)
  | _ => True

-- ---------------------------------------------------------------------------
-- What responses leave alone
-- ---------------------------------------------------------------------------

/-- Posting responses touches nothing that dispatching looks at. -/
structure Kept (rq : SysQueue) (s s' : Ipu4State) : Prop where
  config : s'.syscomConfigIova = s.syscomConfigIova
  sendQ : s'.isSendQ = s.isSendQ
  seen : s'.isSendWrSeen = s.isSendWrSeen
  dispatched : s'.dispatched = s.dispatched
  recvQ : s'.isRecvQ = s.isRecvQ ∨ s'.isRecvQ = some rq
  dmem : ∀ reg, reg ≠ rq.wrReg → s'.isDmem reg = s.isDmem reg

theorem Kept.refl (rq : SysQueue) (s : Ipu4State) : Kept rq s s :=
  ⟨rfl, rfl, rfl, rfl, .inl rfl, fun _ _ => rfl⟩

theorem Kept.trans (h₁ : Kept rq s₁ s₂) (h₂ : Kept rq s₂ s₃) : Kept rq s₁ s₃ where
  config := h₂.config.trans h₁.config
  sendQ := h₂.sendQ.trans h₁.sendQ
  seen := h₂.seen.trans h₁.seen
  dispatched := h₂.dispatched.trans h₁.dispatched
  recvQ := by
    rcases h₂.recvQ with h | h
    · exact h ▸ h₁.recvQ
    · exact .inr h
  dmem := fun reg hreg => (h₂.dmem reg hreg).trans (h₁.dmem reg hreg)

/-- The descriptor of the responses is the driver's or not loaded yet. -/
def RecvOk (rq : SysQueue) (s : Ipu4State) : Prop := s.isRecvQ = none ∨ s.isRecvQ = some rq

theorem RecvOk.kept (h : RecvOk rq s) (hk : Kept rq s s') : RecvOk rq s' := by
  unfold RecvOk
  rcases hk.recvQ with heq | heq
  · rwa [heq]
  · exact .inr heq

theorem getRecvQueue_kept (hdma : dma.ReadsRecv rq s.syscomConfigIova) (h : RecvOk rq s) :
    Kept rq s (ipu4GetRecvQueue dma s).1 ∧ ∀ q, (ipu4GetRecvQueue dma s).2 = some q → q = rq := by
  unfold ipu4GetRecvQueue
  rcases h with hnone | hsome
  · simp only [hnone]
    split
    · exact ⟨Kept.refl rq s, by simp⟩
    split
    · exact ⟨Kept.refl rq s, by simp⟩
    next cfg hcfg =>
      split
      · exact ⟨Kept.refl rq s, by simp⟩
      next q hq =>
        obtain rfl := hdma cfg q hcfg hq
        exact ⟨⟨rfl, rfl, rfl, rfl, .inr rfl, fun _ _ => rfl⟩, by simp⟩
  · simp only [hsome]
    exact ⟨Kept.refl rq s, by simp⟩

theorem postResponseFull_kept (hdma : dma.ReadsRecv rq s.syscomConfigIova) (h : RecvOk rq s)
    (resp : RespInfo) : Kept rq s (ipu4PostResponseFull dma s resp) := by
  obtain ⟨hkept, hq⟩ := getRecvQueue_kept hdma h
  unfold ipu4PostResponseFull
  generalize ipu4GetRecvQueue dma s = r at hkept hq ⊢
  obtain ⟨s', none | q⟩ := r
  · exact hkept
  · obtain rfl := hq q rfl
    dsimp only
    split
    · exact hkept
    split
    · exact hkept
    generalize (if q.size ≤ s'.isDmem q.wrReg then 0 else s'.isDmem q.wrReg) = wr
    split
    · exact hkept
    · refine hkept.trans ⟨rfl, rfl, rfl, rfl, .inl rfl, fun reg hreg => ?_⟩
      exact Function.update_of_ne hreg _ _

theorem deliverPins_kept (hdma : dma.ReadsRecv rq s.syscomConfigIova) (h : RecvOk rq s)
    (stream i : Nat) (pins : List OutputPin) : Kept rq s (deliverPins dma stream i pins s) := by
  induction pins generalizing i s with
  | nil => exact Kept.refl rq s
  | cons pin pins ih =>
    simp only [deliverPins]
    split
    · exact ih hdma h (i + 1)
    · have hk := postResponseFull_kept hdma h ⟨.pinDataReady, stream, i, pin⟩
      exact hk.trans (ih (hk.config ▸ hdma) (h.kept hk) (i + 1))

theorem deliverFrame_kept (hdma : dma.ReadsRecv rq s.syscomConfigIova) (h : RecvOk rq s)
    (stream iova : Nat) : Kept rq s (ipu4DeliverFrame dma s stream iova) := by
  unfold ipu4DeliverFrame
  split
  · exact Kept.refl rq s
  next pins _ =>
    generalize hs' : { s with
        csi2PartStatus := s.csi2PartStatus ||| CSI2_PART_IRQ_FS_VC0
        isUnispartIrqStatus := s.isUnispartIrqStatus ||| ISYS_UNISPART_IRQ_CSI2_PORT0 } = s'
    have hbits : Kept rq s s' := by
      subst hs'
      exact ⟨rfl, rfl, rfl, rfl, .inl rfl, fun _ _ => rfl⟩
    have hsof := hbits.trans (postResponseFull_kept (hbits.config ▸ hdma) (h.kept hbits)
      ⟨.frameSof, stream, 0, ⟨0, 0⟩⟩)
    exact hsof.trans (deliverPins_kept (hsof.config ▸ hdma) (h.kept hsof) stream 0 _)

theorem dispatch_kept (hdma : dma.ReadsRecv rq s.syscomConfigIova) (h : RecvOk rq s) (stream : Nat)
    (token : SendToken) :
    Kept rq { s with dispatched := s.dispatched ++ [(stream, token)] }
      (dispatch dma stream s token) := by
  unfold dispatch
  have hdma' : dma.ReadsRecv rq
      { s with dispatched := s.dispatched ++ [(stream, token)] }.syscomConfigIova := hdma
  have h' : RecvOk rq { s with dispatched := s.dispatched ++ [(stream, token)] } := h
  generalize { s with dispatched := s.dispatched ++ [(stream, token)] } = s' at hdma' h' ⊢
  cases token.sendType with
  | streamStartAndCapture =>
    have hk := postResponseFull_kept hdma' h' ⟨.streamStartAndCaptureAck, stream, 0, ⟨0, 0⟩⟩
    exact hk.trans (deliverFrame_kept (hk.config ▸ hdma') (h'.kept hk) stream _)
  | streamCapture => exact deliverFrame_kept hdma' h' stream _
  | streamStop | other n => exact Kept.refl rq _
  | streamOpen | streamStart | streamFlush | streamClose => exact postResponseFull_kept hdma' h' _

-- ---------------------------------------------------------------------------
-- One command
-- ---------------------------------------------------------------------------

/-- If the model has seen the cursor that the driver advances, it dispatches the
one token that was put. -/
theorem handleSendBump_next (hsize : 1 < q.size) (hlt : q.size + 1 < 2 ^ 32) (hw : w < q.size)
    (hget : ipu4GetSendQueue dma s stream = (s', some q)) (hseen : s'.isSendWrSeen stream = w)
    (htok : readToken dma q w = some token) :
    ipu4HandleSendBump dma s stream (putCursor q.size w) =
      dispatch dma stream
        { s' with isSendWrSeen := Function.update s'.isSendWrSeen stream (putCursor q.size w) }
        token := by
  have hne : putCursor q.size w ≠ w := by
    rw [putCursor_eq_next (by omega) hw]
    unfold Ring.next
    split <;> omega
  have hone : pushed q (putCursor q.size w) w = 1 := by
    rw [putCursor_eq_next (by omega) hw]
    unfold pushed Ring.next
    split
    · have hdiff : (0 + q.size + 2 ^ 32 - w) % 2 ^ 32 = 1 := by omega
      rw [hdiff, Nat.mod_eq_of_lt hsize]
    · have hdiff : (w + 1 + q.size + 2 ^ 32 - w) % 2 ^ 32 = 1 + q.size := by omega
      rw [hdiff, Nat.add_mod_right, Nat.mod_eq_of_lt hsize]
  unfold ipu4HandleSendBump
  rw [hget]
  simp only [hseen, hone, bumpLoop, htok]
  rw [if_neg (by omega), if_neg hne]

/-- The descriptor of a stream, cached or loaded: in both cases the cursor last
seen is the one in DMEM. -/
theorem getSendQueue_tracks (hstream : stream < 8)
    (hsees : dma.Sees s dmaBuffer dmaAddr stream token) (hconfig : s.syscomConfigIova = dmaAddr)
    (hq : s.isSendQ stream = none ∧ s.isDmem (sendWrReg stream) = 0 ∨
      s.isSendQ stream = some (msgSendQueue dmaBuffer dmaAddr stream) ∧
        s.isSendWrSeen stream = s.isDmem (sendWrReg stream)) :
    ∃ s', ipu4GetSendQueue dma s stream = (s', some (msgSendQueue dmaBuffer dmaAddr stream)) ∧
      s'.isSendWrSeen stream = s.isDmem (sendWrReg stream) ∧
      s'.isSendQ = Function.update s.isSendQ stream (some (msgSendQueue dmaBuffer dmaAddr stream)) ∧
      (∀ other, other ≠ stream → s'.isSendWrSeen other = s.isSendWrSeen other) ∧
      s'.isDmem = s.isDmem ∧ s'.syscomConfigIova = s.syscomConfigIova ∧ s'.isRecvQ = s.isRecvQ ∧
      s'.dispatched = s.dispatched := by
  unfold ipu4GetSendQueue
  rw [if_neg (by unfold IPU4_MAX_MSG_STREAMS; omega)]
  rcases hq with ⟨hnone, hzero⟩ | ⟨hsome, hseen⟩
  · obtain ⟨cfg, hcfg, hload⟩ := hsees.desc
    simp only [hnone, hconfig, hsees.addr, if_false, hcfg, hload]
    refine ⟨_, rfl, by simp [hzero], rfl, fun other hne => ?_, rfl, hconfig ▸ rfl, rfl, rfl⟩
    exact Function.update_of_ne hne _ _
  · simp only [hsome]
    exact ⟨s, rfl, hseen, by rw [← hsome, Function.update_eq_self], fun _ _ => rfl, rfl, rfl, rfl, rfl⟩

-- ---------------------------------------------------------------------------
-- Runs
-- ---------------------------------------------------------------------------

/-- A stream without a token in the session has no descriptor loaded; after
the first token the model has it, and has seen the cursor in DMEM. -/
def Tracks (s : Ipu4State) (dmaBuffer dmaAddr sent stream : Nat) : Prop :=
  if sent = 0 then s.isSendQ stream = none
  else s.isSendQ stream = some (msgSendQueue dmaBuffer dmaAddr stream) ∧
    s.isSendWrSeen stream = s.isDmem (sendWrReg stream)

structure HostInv (h : Host) : Prop where
  cursors : ∀ stream < 8, h.dev.isDmem (sendWrReg stream) < 41
  order : h.dev.dispatched = h.put
  config : ∀ dmaBuffer dmaAddr, h.ctx = some (dmaBuffer, dmaAddr) →
    h.dev.syscomConfigIova = dmaAddr
  recv : ∀ dmaBuffer dmaAddr, h.ctx = some (dmaBuffer, dmaAddr) →
    RecvOk (msgRecvQueue dmaBuffer dmaAddr) h.dev
  tracks : ∀ dmaBuffer dmaAddr, h.ctx = some (dmaBuffer, dmaAddr) →
    ∀ stream < 8, Tracks h.dev dmaBuffer dmaAddr (h.sent stream) stream

theorem HostInv.init : HostInv hostInit where
  cursors := fun _ _ => by simp [hostInit, Ipu4State.reset]
  order := rfl
  config := by simp [hostInit]
  recv := by simp [hostInit]
  tracks := by simp [hostInit]

theorem sendWrReg_inj : sendWrReg i = sendWrReg j ↔ i = j := by
  unfold sendWrReg
  omega

theorem fwComOpen_eq (dma : Dma) (s : Ipu4State) (dmaAddr : Nat) :
    ipu6FwComOpen dma s dmaAddr = { s with
      isDmem := Function.update (Function.update (Function.update s.isDmem SYSCOM_STATE_REG
        SYSCOM_STATE_UNINIT) SYSCOM_COMMAND_REG SYSCOM_COMMAND_UNINIT) SYSCOM_CONFIG_REG dmaAddr
      syscomConfigIova := dmaAddr
      isSendQ := fun _ => none
      isRecvQ := none
      isSendWrSeen := fun _ => 0 } := by
  simp [ipu6FwComOpen, ipu4DmemWrite, SYSCOM_STATE_REG, SYSCOM_COMMAND_REG, SYSCOM_CONFIG_REG]

theorem fwComClose_eq (dma : Dma) (s : Ipu4State) :
    ipu6FwComClose dma s = { s with
      isDmem := Function.update s.isDmem SYSCOM_COMMAND_REG SYSCOM_COMMAND_INACTIVE } := by
  simp [ipu6FwComClose, ipu4DmemRead, ipu4DmemWrite, SYSCOM_STATE_REG, SYSCOM_COMMAND_REG,
    SYSCOM_CONFIG_REG]

theorem HostInv.fwOpen (h : HostInv hst) (dma : Dma) (dmaBuffer dmaAddr : Nat) :
    HostInv { hst with
      dev := ipu6FwComOpen dma hst.dev dmaAddr
      ctx := some (dmaBuffer, dmaAddr)
      sent := fun _ => 0 } := by
  rw [fwComOpen_eq]
  refine ⟨fun stream hs => ?_, h.order, ?_, fun _ _ _ => .inl rfl, fun _ _ _ _ _ => rfl⟩
  · have hreg : sendWrReg stream ≠ SYSCOM_STATE_REG ∧ sendWrReg stream ≠ SYSCOM_COMMAND_REG ∧
        sendWrReg stream ≠ SYSCOM_CONFIG_REG := by
      simp only [sendWrReg, SYSCOM_STATE_REG, SYSCOM_COMMAND_REG, SYSCOM_CONFIG_REG]
      omega
    dsimp only
    rw [Function.update_of_ne hreg.2.2, Function.update_of_ne hreg.2.1,
      Function.update_of_ne hreg.1]
    exact h.cursors stream hs
  · rintro _ _ hctx
    cases hctx
    rfl

theorem HostInv.fwClose (h : HostInv hst) (dma : Dma) :
    HostInv { hst with dev := ipu6FwComClose dma hst.dev, ctx := none } := by
  rw [fwComClose_eq]
  refine ⟨fun stream hs => ?_, h.order, by simp, by simp, by simp⟩
  have hreg : sendWrReg stream ≠ SYSCOM_COMMAND_REG := by
    simp only [sendWrReg, SYSCOM_COMMAND_REG]
    omega
  dsimp only
  rw [Function.update_of_ne hreg]
  exact h.cursors stream hs

theorem dmemRead_sendWrReg (s : Ipu4State) (stream : Nat) :
    ipu4DmemRead s (sendWrReg stream) = s.isDmem (sendWrReg stream) := by
  have h₁ : sendWrReg stream ≠ 11 := by
    unfold sendWrReg
    omega
  have h₂ : sendWrReg stream ≠ SYSCOM_STATE_REG := by
    simp only [sendWrReg, SYSCOM_STATE_REG]
    omega
  simp [ipu4DmemRead, h₁, h₂]

theorem HostInv.send (h : HostInv hst) (hctx : hst.ctx = some (dmaBuffer, dmaAddr))
    (hstream : stream < 8) (hsees : dma.Sees hst.dev dmaBuffer dmaAddr stream token)
    (hfirst : hst.sent stream = 0 → hst.dev.isDmem (sendWrReg stream) = 0) :
    HostInv (ipu6FwIsysComplexCmd hst dmaBuffer dmaAddr stream token dma) := by
  unfold ipu6FwIsysComplexCmd
  dsimp only
  split
  · exact h
  have htracks := h.tracks _ _ hctx stream hstream
  obtain ⟨s', hget, hseen, hsendQ, hothers, hdmem, hconfig, hrecv, hdisp⟩ :=
    getSendQueue_tracks hstream hsees (h.config _ _ hctx) (by
      unfold Tracks at htracks
      split at htracks
      next hz => exact .inl ⟨htracks, hfirst hz⟩
      next => exact .inr htracks)
  have hw := h.cursors stream hstream
  generalize hwr : hst.dev.isDmem (sendWrReg stream) = w at hw hseen
  have htok : readToken dma (msgSendQueue dmaBuffer dmaAddr stream) w = some token := by
    simpa [readToken, msgSendQueue, hwr] using hsees.slot
  have hput : ipu6SendPutToken dma hst.dev (msgSendQueue dmaBuffer dmaAddr stream) =
      dispatch dma stream { s' with
        isDmem := Function.update hst.dev.isDmem (sendWrReg stream) (putCursor 41 w)
        isSendWrSeen := Function.update s'.isSendWrSeen stream (putCursor 41 w) } token := by
    have hreg : (msgSendQueue dmaBuffer dmaAddr stream).wrReg = sendWrReg stream := rfl
    have hsz : (msgSendQueue dmaBuffer dmaAddr stream).size = 41 := rfl
    simp only [ipu6SendPutToken, hreg, hsz, dmemRead_sendWrReg, hwr,
      dmemWrite_sendWrReg dma _ _ hstream]
    have hget' : ipu4GetSendQueue dma { hst.dev with
        isDmem := Function.update hst.dev.isDmem (sendWrReg stream) (putCursor 41 w) } stream =
        ({ s' with isDmem := Function.update hst.dev.isDmem (sendWrReg stream) (putCursor 41 w) },
          some (msgSendQueue dmaBuffer dmaAddr stream)) := by
      rw [getSendQueue_dmem, hget]
    exact handleSendBump_next (by rw [hsz]; decide) (by rw [hsz]; decide) hw hget' hseen htok
  rw [hput]
  have hcfg := h.config _ _ hctx
  have hdma : dma.ReadsRecv (msgRecvQueue dmaBuffer dmaAddr) s'.syscomConfigIova := by
    rw [hconfig, hcfg]
    exact hsees.recv
  have hok : RecvOk (msgRecvQueue dmaBuffer dmaAddr) s' := by
    simpa only [RecvOk, hrecv] using h.recv _ _ hctx
  have hkept := dispatch_kept (s := { s' with
      isDmem := Function.update hst.dev.isDmem (sendWrReg stream) (putCursor 41 w)
      isSendWrSeen := Function.update s'.isSendWrSeen stream (putCursor 41 w) }) hdma hok stream token
  generalize dispatch dma stream _ token = s₁ at hkept
  have hreg : ∀ st < 8, s₁.isDmem (sendWrReg st) =
      if st = stream then putCursor 41 w else hst.dev.isDmem (sendWrReg st) := by
    intro st hst
    rw [hkept.dmem _ (by simp only [sendWrReg, msgRecvQueue]; omega)]
    simp only [Function.update_apply, sendWrReg_inj]
  have hnext : putCursor 41 w < 41 := by
    rw [putCursor_eq_next (by decide) hw]
    exact Ring.next_lt hw
  refine ⟨fun st hlt => ?_, ?_, fun b a hc => ?_, fun b a hc => ?_, fun b a hc st hlt => ?_⟩
  · rw [hreg st hlt]
    split
    · exact hnext
    · exact h.cursors st hlt
  · rw [hkept.dispatched, ← h.order]
    exact congrArg (· ++ [(stream, token)]) hdisp
  · rw [hkept.config]
    exact hconfig.trans (h.config b a hc)
  · obtain ⟨rfl, rfl⟩ : dmaBuffer = b ∧ dmaAddr = a := by
      simpa using hctx.symm.trans hc
    refine RecvOk.kept ?_ hkept
    exact hok
  · obtain ⟨rfl, rfl⟩ : dmaBuffer = b ∧ dmaAddr = a := by
      simpa using hctx.symm.trans hc
    unfold Tracks
    rw [hreg st hlt, hkept.sendQ, hkept.seen]
    dsimp only
    rw [hsendQ]
    by_cases heq : st = stream
    · subst heq
      simp
    · simp only [Function.update_of_ne heq, if_neg heq, hothers st heq]
      exact h.tracks _ _ hctx st hlt

theorem HostInv.step (h : HostInv hst) (he : hostStep hst ev = some hst')
    (hmeets : HostMeets hst ev) : HostInv hst' := by
  cases ev with
  | fwOpen dmaBuffer dmaAddr dma =>
    obtain rfl := Option.some.inj he
    exact h.fwOpen dma dmaBuffer dmaAddr
  | send stream token dma =>
    cases hctx : hst.ctx with
    | none => simp [hostStep, hctx] at he
    | some ctx =>
      obtain ⟨dmaBuffer, dmaAddr⟩ := ctx
      simp only [hostStep, hctx, Option.some.injEq] at he
      subst he
      obtain ⟨hsees, hfirst⟩ := hmeets _ _ hctx
      exact h.send hctx stream.isLt hsees hfirst
  | fwClose dma =>
    cases hctx : hst.ctx with
    | none => simp [hostStep, hctx] at he
    | some ctx =>
      simp only [hostStep, hctx, Option.some.injEq] at he
      subst he
      exact h.fwClose dma

/-- In every run in which the first token of a stream in each session finds its
write cursor at 0, and DMA finds what the driver has put, the tokens dispatched are
the tokens put: each once, in order, and no other slot. -/
theorem commands_dispatched_once (h : Host)
    (hr : Reachable (· = hostInit)
      (fun h ev h' => HostMeets h ev ∧ Enabled hostStep h ev h') h) :
    h.dev.dispatched = h.put := by
  have hinv : HostInv h :=
    hr.invariant (fun _ hi => hi ▸ HostInv.init) fun _ _ _ hi hs => hi.step hs.2 hs.1
  exact hinv.order

/-- DMA that finds a context at `dmaAddr` with `token` in slot `slot` of a stream
and a cleared ring else. -/
def sessionDma (dmaAddr stream slot : Nat) (token : SendToken) : Dma where
  config := fun _ => some ⟨dmaAddr + 32, dmaAddr + 352⟩
  queueDesc := fun iova =>
    if iova = dmaAddr + 352 + 32 then some (msgRecvQueue 0 dmaAddr)
    else some (msgSendQueue 0 dmaAddr stream)
  token := fun iova =>
    if iova = slotIova (msgSendQueue 0 dmaAddr stream) slot then some token
    else some ⟨0, 0, .streamOpen, 0⟩
  pins := fun _ => none
  respWrite := fun _ => true

theorem hostMeets_send {h : Host} {stream : Fin 8} (hctx : h.ctx = some (0, dmaAddr)) (haddr : dmaAddr ≠ 0)
    (hdmem : h.dev.isDmem (sendWrReg stream) = 0)
    (hdesc : ipu4LoadQueueDesc (sessionDma dmaAddr stream 0 token) (dmaAddr + 32)
      (IPU4_BASE_MSG_SEND_QUEUES + stream) = some (msgSendQueue 0 dmaAddr stream))
    (hrecv : ipu4LoadQueueDesc (sessionDma dmaAddr stream 0 token) (dmaAddr + 352) 1 =
      some (msgRecvQueue 0 dmaAddr)) :
    HostMeets h (.send stream token (sessionDma dmaAddr stream 0 token)) := by
  intro dmaBuffer dmaAddr' hctx'
  obtain ⟨rfl, rfl⟩ := Prod.mk.inj (Option.some.inj (hctx.symm.trans hctx'))
  refine ⟨⟨haddr, ⟨_, rfl, hdesc⟩, ?_, fun cfg q hcfg hq => ?_⟩, fun _ => hdmem⟩
  · rw [hdmem]
    exact if_pos rfl
  · obtain rfl := Option.some.inj hcfg
    exact Option.some.inj (hq.symm.trans hrecv)

/-- Two sessions, the second on another stream than the first: both start at slot 0. -/
theorem other_stream_dispatched :
    ∃ h : Host, h.put = [(0, ⟨1, 0x20000, .streamOpen, 0⟩), (1, ⟨2, 0x21000, .streamOpen, 0⟩)] ∧
      h.dev.dispatched = h.put := by
  let dma := sessionDma 0x10000 0 0 ⟨1, 0x20000, .streamOpen, 0⟩
  let dma' := sessionDma 0x40000 1 0 ⟨2, 0x21000, .streamOpen, 0⟩
  let opened : Host := ⟨ipu6FwComOpen dma Ipu4State.reset 0x10000, some (0, 0x10000), fun _ => 0, []⟩
  let sent := ipu6FwIsysComplexCmd opened 0 0x10000 0 ⟨1, 0x20000, .streamOpen, 0⟩ dma
  let closed : Host := { sent with dev := ipu6FwComClose dma sent.dev, ctx := none }
  let reopened : Host :=
    { closed with dev := ipu6FwComOpen dma' closed.dev 0x40000, ctx := some (0, 0x40000), sent := fun _ => 0 }
  have hopen : HostMeets hostInit (.fwOpen 0 0x10000 dma) ∧
      Enabled hostStep hostInit (.fwOpen 0 0x10000 dma) opened := ⟨trivial, rfl⟩
  have hclose : HostMeets sent (.fwClose dma) ∧ Enabled hostStep sent (.fwClose dma) closed := ⟨trivial, rfl⟩
  have hreopen : HostMeets closed (.fwOpen 0 0x40000 dma') ∧
      Enabled hostStep closed (.fwOpen 0 0x40000 dma') reopened := ⟨trivial, rfl⟩
  have hsend : HostMeets opened (.send 0 ⟨1, 0x20000, .streamOpen, 0⟩ dma) :=
    hostMeets_send rfl (by decide) (by decide +kernel) (by decide +kernel) (by decide +kernel)
  have hresend : HostMeets reopened (.send 1 ⟨2, 0x21000, .streamOpen, 0⟩ dma') :=
    hostMeets_send rfl (by decide) (by decide +kernel) (by decide +kernel) (by decide +kernel)
  refine ⟨ipu6FwIsysComplexCmd reopened 0 0x40000 1 ⟨2, 0x21000, .streamOpen, 0⟩ dma', by decide +kernel, ?_⟩
  have hsent : Reachable (· = hostInit) (fun h ev h' => HostMeets h ev ∧ Enabled hostStep h ev h') sent :=
    .step (.step (.init rfl) hopen) ⟨hsend, rfl⟩
  exact commands_dispatched_once _ (.step (.step (.step hsent hclose) hreopen) ⟨hresend, rfl⟩)

/-- A STREAM_OPEN as the first command of two sessions on stream 0. -/
def twoSessions : List HostEv :=
  let token : SendToken := ⟨1, 0x20000, .streamOpen, 0⟩
  [.fwOpen 0 0x10000 (sessionDma 0x10000 0 0 token), .send stream0 token (sessionDma 0x10000 0 0 token),
    .fwClose (sessionDma 0x10000 0 0 token), .fwOpen 0 0x40000 (sessionDma 0x40000 0 1 token),
    .send stream0 token (sessionDma 0x40000 0 1 token)]

/-- The second session starts at slot 1, but the model dispatches slot 0 of the new
buffer too, in which nothing has been put. -/
theorem stale_slot_dispatched :
    ∃ h, Reachable (· = hostInit) (Enabled hostStep) h ∧ h.put.length = 2 ∧
      h.dev.dispatched = [(0, ⟨1, 0x20000, .streamOpen, 0⟩), (0, ⟨0, 0, .streamOpen, 0⟩),
        (0, ⟨1, 0x20000, .streamOpen, 0⟩)] := by
  obtain ⟨h, hrun, hf⟩ : ∃ h, twoSessions.foldlM hostStep hostInit = some h ∧
      (h.put.length, h.dev.dispatched) = (2, [(0, ⟨1, 0x20000, .streamOpen, 0⟩),
        (0, ⟨0, 0, .streamOpen, 0⟩), (0, ⟨1, 0x20000, .streamOpen, 0⟩)]) :=
    ⟨_, rfl, by decide +kernel⟩
  simp only [Prod.mk.injEq] at hf
  exact ⟨h, Runs.reachable_of_replay (.init rfl) _ hrun, hf⟩

end Ipu4.Qemu
