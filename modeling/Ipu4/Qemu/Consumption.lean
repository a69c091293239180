import Ipu4.Qemu.Sessions

/-!
# How the model shows that tokens were consumed

The driver tells a full send queue from its two cursors in DMEM. The model does
not advance the read cursors: it answers a read of stream 0's with the write cursor,
and those of the other streams keep the 0 of the reset. Nothing but a reset of the
device empties their rings again.
-/

namespace Ipu4.Qemu

open FwCom
open Runs (Reachable Enabled)

/-- The number of tokens put on a stream since the reset of the device. -/
def Host.putOn (h : Host) (stream : Nat) : Nat := h.put.countP fun t => t.1 = stream

/-- The register of the read cursor of a stream's send queue. -/
def sendRdReg (stream : Nat) : Nat := 11 + 2 * stream

/-- While the model answers a command, DMA finds the driver's descriptor of the
responses, or fails. -/
def HostReads (h : Host) : HostEv → Prop
  | .send _ _ dma => ∀ dmaBuffer dmaAddr, h.ctx = some (dmaBuffer, dmaAddr) →
      dma.ReadsRecv (msgRecvQueue dmaBuffer dmaAddr) dmaAddr
  | _ => True

-- ---------------------------------------------------------------------------
-- What a write of a send cursor leaves alone
-- ---------------------------------------------------------------------------

/-- The part of the device that the cursors of the commands rest on. -/
structure Frame (rq : SysQueue) (s s' : Ipu4State) : Prop where
  config : s'.syscomConfigIova = s.syscomConfigIova
  recvOk : RecvOk rq s → RecvOk rq s'
  dmem : ∀ reg, reg ≠ rq.wrReg → s'.isDmem reg = s.isDmem reg

theorem Frame.refl (rq : SysQueue) (s : Ipu4State) : Frame rq s s := ⟨rfl, id, fun _ _ => rfl⟩

theorem Frame.trans (h₁ : Frame rq s₁ s₂) (h₂ : Frame rq s₂ s₃) : Frame rq s₁ s₃ where
  config := h₂.config.trans h₁.config
  recvOk := h₂.recvOk ∘ h₁.recvOk
  dmem := fun reg hreg => (h₂.dmem reg hreg).trans (h₁.dmem reg hreg)

theorem Kept.frame (h : Kept rq s s') : Frame rq s s' :=
  ⟨h.config, fun hok => hok.kept h, h.dmem⟩

theorem getSendQueue_frame (rq : SysQueue) (dma : Dma) (s : Ipu4State) (stream : Nat) :
    Frame rq s (ipu4GetSendQueue dma s stream).1 := by
  unfold ipu4GetSendQueue
  split
  · exact Frame.refl rq s
  split
  · exact Frame.refl rq s
  split
  · exact Frame.refl rq s
  split
  · exact Frame.refl rq s
  split
  · exact Frame.refl rq s
  · exact ⟨rfl, id, fun _ _ => rfl⟩

theorem dispatch_frame (hdma : dma.ReadsRecv rq s.syscomConfigIova) (h : RecvOk rq s)
    (stream : Nat) (token : SendToken) : Frame rq s (dispatch dma stream s token) := by
  have hrecord : Frame rq s { s with dispatched := s.dispatched ++ [(stream, token)] } :=
    ⟨rfl, id, fun _ _ => rfl⟩
  exact hrecord.trans (dispatch_kept hdma h stream token).frame

theorem bumpLoop_frame (hdma : dma.ReadsRecv rq s.syscomConfigIova) (h : RecvOk rq s)
    (q : SysQueue) (stream n slot : Nat) : Frame rq s (bumpLoop dma q stream n slot s) := by
  induction n generalizing slot s with
  | zero => exact Frame.refl rq s
  | succ n ih =>
    unfold bumpLoop
    cases readToken dma q slot with
    | none => exact ih hdma h _
    | some token =>
      have hd := dispatch_frame hdma h stream token
      exact hd.trans (ih (hd.config ▸ hdma) (hd.recvOk h) _)

theorem handleSendBump_frame (hdma : dma.ReadsRecv rq s.syscomConfigIova) (h : RecvOk rq s)
    (stream newWr : Nat) : Frame rq s (ipu4HandleSendBump dma s stream newWr) := by
  have hget := getSendQueue_frame rq dma s stream
  unfold ipu4HandleSendBump
  generalize ipu4GetSendQueue dma s stream = r at hget ⊢
  obtain ⟨s', q⟩ := r
  dsimp only at hget ⊢
  have hseen : Frame rq s { s' with
      isSendWrSeen := Function.update s'.isSendWrSeen stream newWr } :=
    hget.trans ⟨rfl, id, fun _ _ => rfl⟩
  cases q with
  | none => exact hseen
  | some q =>
    dsimp only
    split
    · exact hseen
    split
    · exact hget
    · exact hseen.trans (bumpLoop_frame (hseen.config ▸ hdma) (hseen.recvOk h) q stream _ _)

-- ---------------------------------------------------------------------------
-- The cursors in every state of a run
-- ---------------------------------------------------------------------------

/-- Every write cursor counts the tokens put, modulo the ring, and every read cursor
has its value of the reset. The rings that show no consumption take 40 tokens. -/
structure Shown (h : Host) : Prop where
  wr : ∀ stream < 8, h.dev.isDmem (sendWrReg stream) = h.putOn stream % 41
  rd : ∀ stream < 8, h.dev.isDmem (sendRdReg stream) = 0
  bound : ∀ stream < 8, stream ≠ 0 → h.putOn stream ≤ 40
  config : ∀ dmaBuffer dmaAddr, h.ctx = some (dmaBuffer, dmaAddr) →
    h.dev.syscomConfigIova = dmaAddr
  recv : ∀ dmaBuffer dmaAddr, h.ctx = some (dmaBuffer, dmaAddr) →
    RecvOk (msgRecvQueue dmaBuffer dmaAddr) h.dev

theorem Shown.init : Shown hostInit where
  wr := fun _ _ => by simp [hostInit, Ipu4State.reset, Host.putOn]
  rd := fun _ _ => by simp [hostInit, Ipu4State.reset]
  bound := fun _ _ _ => by simp [hostInit, Host.putOn]
  config := by simp [hostInit]
  recv := by simp [hostInit]

theorem dmemRead_sendRdReg (s : Ipu4State) (stream : Nat) :
    ipu4DmemRead s (sendRdReg stream) =
      if stream = 0 then s.isDmem (sendWrReg stream) else s.isDmem (sendRdReg stream) := by
  have hstate : sendRdReg stream ≠ SYSCOM_STATE_REG := by
    simp only [sendRdReg, SYSCOM_STATE_REG]
    omega
  unfold ipu4DmemRead
  rw [if_neg hstate]
  split
  next hreg =>
    obtain rfl : stream = 0 := by
      unfold sendRdReg at hreg
      omega
    rfl
  next hreg =>
    have hne : stream ≠ 0 := by
      rintro rfl
      exact hreg rfl
    rw [if_neg hne]

theorem Shown.getToken (h : Shown hst) (hstream : stream < 8) (dmaBuffer dmaAddr : Nat) :
    (ipu6SendGetToken hst.dev (msgSendQueue dmaBuffer dmaAddr stream)).isSome ↔
      stream = 0 ∨ hst.putOn stream < 40 := by
  have hwr : ipu4DmemRead hst.dev (msgSendQueue dmaBuffer dmaAddr stream).wrReg =
      hst.putOn stream % 41 := (dmemRead_sendWrReg hst.dev stream).trans (h.wr stream hstream)
  have hrd : ipu4DmemRead hst.dev (msgSendQueue dmaBuffer dmaAddr stream).rdReg =
      if stream = 0 then hst.putOn stream % 41 else 0 := by
    refine (dmemRead_sendRdReg hst.dev stream).trans ?_
    rw [h.wr stream hstream, h.rd stream hstream]
  have hlt : hst.putOn stream % 41 < 41 := Nat.mod_lt _ (by decide)
  unfold ipu6SendGetToken
  rw [hwr, hrd, show (msgSendQueue dmaBuffer dmaAddr stream).size = 41 from rfl]
  have hsome : (if noToken (sendPackets 41 (hst.putOn stream % 41)
      (if stream = 0 then hst.putOn stream % 41 else 0)) then none
      else some (hst.putOn stream % 41)).isSome ↔
      ¬ noToken (sendPackets 41 (hst.putOn stream % 41)
        (if stream = 0 then hst.putOn stream % 41 else 0)) = true := by
    cases noToken (sendPackets 41 (hst.putOn stream % 41)
      (if stream = 0 then hst.putOn stream % 41 else 0)) <;> simp
  rw [hsome]
  by_cases h0 : stream = 0
  · simp only [h0, if_true, true_or, iff_true]
    rw [noToken_sendPackets (h0 ▸ hlt) (h0 ▸ hlt)]
    simp [Ring.count]
  · have hbound := h.bound stream hstream h0
    simp only [h0, if_false, false_or]
    rw [noToken_sendPackets hlt (by decide), Nat.mod_eq_of_lt (by omega)]
    unfold Ring.count
    rw [if_neg (Nat.not_lt_zero _)]
    omega

theorem Shown.fwOpen (h : Shown hst) (dma : Dma) (dmaBuffer dmaAddr : Nat) :
    Shown { hst with
      dev := ipu6FwComOpen dma hst.dev dmaAddr
      ctx := some (dmaBuffer, dmaAddr)
      sent := fun _ => 0 } := by
  have hdmem : ∀ reg, 3 < reg →
      (ipu6FwComOpen dma hst.dev dmaAddr).isDmem reg = hst.dev.isDmem reg := by
    intro reg hreg
    simp only [fwComOpen_eq, SYSCOM_CONFIG_REG, SYSCOM_COMMAND_REG, SYSCOM_STATE_REG]
    rw [Function.update_of_ne (by omega), Function.update_of_ne (by omega),
      Function.update_of_ne (by omega)]
  refine ⟨fun st hlt => ?_, fun st hlt => ?_, h.bound, ?_, fun _ _ _ => ?_⟩
  · exact (hdmem _ (by unfold sendWrReg; omega)).trans (h.wr st hlt)
  · exact (hdmem _ (by unfold sendRdReg; omega)).trans (h.rd st hlt)
  · rintro _ _ hctx
    cases hctx
    simp [fwComOpen_eq]
  · exact .inl (by simp [fwComOpen_eq])

theorem Shown.fwClose (h : Shown hst) (dma : Dma) :
    Shown { hst with dev := ipu6FwComClose dma hst.dev, ctx := none } := by
  have hdmem : ∀ reg, 3 < reg →
      (ipu6FwComClose dma hst.dev).isDmem reg = hst.dev.isDmem reg := by
    intro reg hreg
    simp only [fwComClose_eq, SYSCOM_COMMAND_REG]
    exact Function.update_of_ne (by omega) _ _
  refine ⟨fun st hlt => ?_, fun st hlt => ?_, h.bound, by simp, by simp⟩
  · exact (hdmem _ (by unfold sendWrReg; omega)).trans (h.wr st hlt)
  · exact (hdmem _ (by unfold sendRdReg; omega)).trans (h.rd st hlt)

theorem Shown.send (h : Shown hst) (hctx : hst.ctx = some (dmaBuffer, dmaAddr))
    (hstream : stream < 8) (hdma : dma.ReadsRecv (msgRecvQueue dmaBuffer dmaAddr) dmaAddr)
    (token : SendToken) :
    Shown (ipu6FwIsysComplexCmd hst dmaBuffer dmaAddr stream token dma) := by
  unfold ipu6FwIsysComplexCmd
  dsimp only
  cases hget : ipu6SendGetToken hst.dev (msgSendQueue dmaBuffer dmaAddr stream) with
  | none => exact h
  | some slot => ?_
  have hroom : stream = 0 ∨ hst.putOn stream < 40 :=
    (h.getToken hstream dmaBuffer dmaAddr).mp (by rw [hget]; rfl)
  have hcursor : putCursor 41 (hst.putOn stream % 41) = (hst.putOn stream + 1) % 41 := by
    rw [putCursor_eq_next (by decide) (Nat.mod_lt _ (by decide))]
    unfold Ring.next
    split <;> omega
  generalize hs : { hst.dev with
    isDmem := Function.update hst.dev.isDmem (sendWrReg stream)
      ((hst.putOn stream + 1) % 41) } = s
  have hput : ipu6SendPutToken dma hst.dev (msgSendQueue dmaBuffer dmaAddr stream) =
      ipu4HandleSendBump dma s stream ((hst.putOn stream + 1) % 41) := by
    have hreg : (msgSendQueue dmaBuffer dmaAddr stream).wrReg = sendWrReg stream := rfl
    have hsz : (msgSendQueue dmaBuffer dmaAddr stream).size = 41 := rfl
    simp only [ipu6SendPutToken, hreg, hsz, dmemRead_sendWrReg, h.wr stream hstream, hcursor,
      dmemWrite_sendWrReg dma _ _ hstream, hs]
  have hcfg : s.syscomConfigIova = dmaAddr := by
    rw [← hs]
    exact h.config _ _ hctx
  have hok : RecvOk (msgRecvQueue dmaBuffer dmaAddr) s := by
    rw [← hs]
    exact h.recv _ _ hctx
  have hdma' : dma.ReadsRecv (msgRecvQueue dmaBuffer dmaAddr) s.syscomConfigIova := by
    rw [hcfg]
    exact hdma
  have hframe := handleSendBump_frame hdma' hok stream ((hst.putOn stream + 1) % 41)
  rw [hput]
  generalize ipu4HandleSendBump dma s stream _ = s' at hframe
  have hcount : ∀ st, Host.putOn ⟨s', hst.ctx, Function.update hst.sent stream
      (hst.sent stream + 1), hst.put ++ [(stream, token)]⟩ st =
      if st = stream then hst.putOn stream + 1 else hst.putOn st := by
    intro st
    by_cases heq : st = stream
    · simp [Host.putOn, heq]
    · simp [Host.putOn, heq, Ne.symm heq]
  refine ⟨fun st hlt => ?_, fun st hlt => ?_, fun st hlt hne => ?_, fun b a hc => ?_,
    fun b a hc => ?_⟩
  · rw [hcount, hframe.dmem _ (by simp only [sendWrReg, msgRecvQueue]; omega), ← hs]
    simp only [Function.update_apply, sendWrReg_inj]
    split
    · rfl
    · exact h.wr st hlt
  · rw [hframe.dmem _ (by simp only [sendRdReg, msgRecvQueue]; omega), ← hs]
    dsimp only
    rw [Function.update_of_ne (by simp only [sendRdReg, sendWrReg]; omega)]
    exact h.rd st hlt
  · rw [hcount]
    split
    next heq => omega
    next => exact h.bound st hlt hne
  · obtain ⟨rfl, rfl⟩ : dmaBuffer = b ∧ dmaAddr = a := by
      simpa using hctx.symm.trans hc
    exact hframe.config.trans hcfg
  · obtain ⟨rfl, rfl⟩ : dmaBuffer = b ∧ dmaAddr = a := by
      simpa using hctx.symm.trans hc
    exact hframe.recvOk hok

theorem Shown.step (h : Shown hst) (he : hostStep hst ev = some hst') (hreads : HostReads hst ev) :
    Shown hst' := by
  cases ev with
  | fwOpen dmaBuffer dmaAddr dma =>
    obtain rfl := Option.some.inj he
    exact h.fwOpen dma dmaBuffer dmaAddr
  | send stream token dma =>
    cases hctx : hst.ctx with
    | none => simp [hostStep, hctx] at he
    | some ctx =>
      obtain ⟨dmaBuffer, dmaAddr⟩ := ctx
      simp only [hostStep, hctx, Option.some.injEq] at he
      subst he
      exact h.send hctx stream.isLt (hreads _ _ hctx) token
  | fwClose dma =>
    cases hctx : hst.ctx with
    | none => simp [hostStep, hctx] at he
    | some ctx =>
      simp only [hostStep, hctx, Option.some.injEq] at he
      subst he
      exact h.fwClose dma

/-- In every state of every run the driver gets a token on a stream if and only if
it is stream 0, or fewer than 40 tokens have been put on it. -/
theorem sendGetToken_iff (h : Host)
    (hr : Reachable (· = hostInit)
      (fun h ev h' => HostReads h ev ∧ Enabled hostStep h ev h') h)
    (stream dmaBuffer dmaAddr : Nat) (hstream : stream < 8) :
    (ipu6SendGetToken h.dev (msgSendQueue dmaBuffer dmaAddr stream)).isSome ↔
      stream = 0 ∨ h.putOn stream < 40 := by
  have hinv : Shown h :=
    hr.invariant (fun _ hi => hi ▸ Shown.init) fun _ _ _ hi hs => hi.step hs.2 hs.1
  exact hinv.getToken hstream dmaBuffer dmaAddr

/-- A context at `0x10000` in which every slot of every stream holds `token`. -/
def uniformDma (token : SendToken) : Dma where
  config := fun _ => some ⟨0x10000 + 32, 0x10000 + 352⟩
  queueDesc := fun iova =>
    if iova = 0x10000 + 352 + 32 then some (msgRecvQueue 0 0x10000)
    else some (msgSendQueue 0 0x10000 ((iova - (0x10000 + 96)) / 32))
  token := fun _ => some token
  pins := fun _ => none
  respWrite := fun _ => true

/-- `n` times STREAM_FLUSH on one stream of the first session. -/
def flushes (stream : Fin 8) (n : Nat) : List HostEv :=
  let token : SendToken := ⟨1, 0, .streamFlush, 0⟩
  .fwOpen 0 0x10000 (uniformDma token) ::
    List.replicate n (.send stream token (uniformDma token))

/-- The driver can send a second command on stream 1. -/
theorem sendGetToken_second :
    ∃ h : Host, h.putOn 1 = 1 ∧ h.dev.dispatched = h.put ∧
      (ipu6SendGetToken h.dev (msgSendQueue 0 0x10000 1)).isSome := by
  let token : SendToken := ⟨1, 0, .streamFlush, 0⟩
  let dma := uniformDma token
  let opened : Host := ⟨ipu6FwComOpen dma Ipu4State.reset 0x10000, some (0, 0x10000), fun _ => 0, []⟩
  have hreads : HostReads opened (.send 1 token dma) := by
    rintro _ _ hctx
    cases hctx
    rintro cfg q hcfg hq
    obtain rfl := Option.some.inj hcfg
    exact (Option.some.inj hq).symm
  refine ⟨ipu6FwIsysComplexCmd opened 0 0x10000 1 token dma, by decide +kernel, by decide +kernel,
    ?_⟩
  have hopen : HostReads hostInit (.fwOpen 0 0x10000 dma) ∧
      Enabled hostStep hostInit (.fwOpen 0 0x10000 dma) opened := ⟨trivial, rfl⟩
  have hsent : ∀ h, ipu6FwIsysComplexCmd opened 0 0x10000 1 token dma = h → h.putOn 1 = 1 →
      (ipu6SendGetToken h.dev (msgSendQueue 0 0x10000 1)).isSome := by
    rintro h rfl hput
    refine (sendGetToken_iff _ (.step (.step (.init rfl) hopen) ⟨hreads, rfl⟩) 1 0 0x10000
      (by decide)).mpr (.inr ?_)
    exact Nat.lt_of_le_of_lt (Nat.le_of_eq hput) (by decide)
  exact hsent _ rfl (by decide +kernel)

/-- After 40 commands on stream 1, all dispatched and answered, the driver gets no
token for it any more. -/
theorem stream_never_consumed :
    ∃ h, Reachable (· = hostInit) (Enabled hostStep) h ∧ h.dev.dispatched = h.put ∧
      h.dev.posted.length = 40 ∧ h.putOn 1 = 40 ∧
      ipu6SendGetToken h.dev (msgSendQueue 0 0x10000 1) = none := by
  obtain ⟨h, hrun, hf⟩ : ∃ h, (flushes 1 40).foldlM hostStep hostInit = some h ∧
      (h.dev.dispatched = h.put ∧ h.dev.posted.length = 40 ∧ h.putOn 1 = 40 ∧
        ipu6SendGetToken h.dev (msgSendQueue 0 0x10000 1) = none) :=
    ⟨_, rfl, by decide +kernel⟩
  exact ⟨h, Runs.reachable_of_replay (.init rfl) _ hrun, hf⟩

end Ipu4.Qemu
