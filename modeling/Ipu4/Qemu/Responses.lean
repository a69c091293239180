import Ipu4.Qemu.Responder

/-!
# The response stream

The responder posts into the ring of responses while the driver takes tokens
out of it, register access by register access. A post never looks at the read
cursor. As long as the responses of every command find room, the pair is the
bounded FIFO that the fw-com layer expects (`RecvFifo`).
-/

namespace Ipu4.Qemu

open FwCom
open Runs (Reachable Enabled)

-- ---------------------------------------------------------------------------
-- The two ends
-- ---------------------------------------------------------------------------

/-- The device, and the driver's end of the queue of responses. -/
structure Link where
  dev : Ipu4State
  host : RecvPc RespInfo
  received : List RespInfo

/-- A command is the write of a send cursor; the others are the register and
memory accesses of `ipu6_recv_get_token` and `ipu6_recv_put_token`. `found` is what the
driver reads in the slot. -/
inductive LinkEv where
  | command (stream : Fin 8) (newWr : Nat) (dma : Dma)
  | readWr | readRd | take (found : RespInfo) | putReadRd | putWriteRd

/-- The ring as the driver sees it, and the tokens on either side. -/
def Link.chan (q : SysQueue) (l : Link) : RecvChan RespInfo where
  ring := {
    slots := fun i => if i < q.size then l.dev.resps (slotIova q i) else default
    wr := l.dev.isDmem q.wrReg
    rd := l.dev.isDmem q.rdReg }
  host := l.host
  fw := .idle
  sent := l.dev.posted
  received := l.received

def linkStep (q : SysQueue) (l : Link) : LinkEv → Option Link
  | .command stream newWr dma =>
    some { l with dev := ipu4DmemWrite dma l.dev (sendWrReg stream) newWr }
  | .readWr => match l.host with
    | .idle =>
      some { l with host := .getRd (ipu4DmemRead l.dev q.wrReg) (l.chan q).outstanding }
    | _ => none
  | .readRd => match l.host with
    | .getRd wr _ =>
      if noToken (recvPackets q.size wr (ipu4DmemRead l.dev q.rdReg)) then
        some { l with host := .idle }
      else some { l with host := .take (ipu4DmemRead l.dev q.rdReg) }
    | _ => none
  | .take found => match l.host with
    | .take _ => some { l with host := .putRead found }
    | _ => none
  | .putReadRd => match l.host with
    | .putRead t => some { l with host := .putWrite (ipu4DmemRead l.dev q.rdReg) t }
    | _ => none
  | .putWriteRd => match l.host with
    | .putWrite rd t =>
      some { l with
        dev := { l.dev with isDmem := Function.update l.dev.isDmem q.rdReg (putCursor q.size rd) }
        host := .idle
        received := l.received ++ [t] }
    | _ => none

/-- Equal cursors within the ring, nothing under way, no descriptor loaded. -/
def LinkInit (q : SysQueue) (l : Link) : Prop :=
  RecvInit q (l.chan q) ∧ l.dev.isRecvQ = none

-- ---------------------------------------------------------------------------
-- How many responses a command has
-- ---------------------------------------------------------------------------

def frameResponses (dma : Dma) (frameBuffSetIova : Nat) : Nat :=
  match dma.pins frameBuffSetIova with
  | none => 0
  | some pins => 1 + ((pins.take IPU4_MAX_OPINS).filter fun pin => pin.addr ≠ 0).length

def tokenResponses (dma : Dma) (token : SendToken) : Nat :=
  match token.sendType with
  | .streamStartAndCapture => 1 + frameResponses dma token.payload
  | .streamCapture => frameResponses dma token.payload
  | .streamStop => 0
  | .other _ => 0
  | _ => 1

def bumpResponses (dma : Dma) (q : SysQueue) : Nat → Nat → Nat
  | 0, _ => 0
  | pushed + 1, slot =>
    ((readToken dma q slot).map (tokenResponses dma)).getD 0 +
      bumpResponses dma q pushed ((slot + 1) % q.size)

/-- The responses of all tokens that a cursor write makes visible. -/
def commandResponses (dma : Dma) (s : Ipu4State) (stream newWr : Nat) : Nat :=
  match ipu4GetSendQueue dma s stream with
  | (_, none) => 0
  | (s, some q) => bumpResponses dma q (pushed q newWr (s.isSendWrSeen stream))
      (s.isSendWrSeen stream)

/-- Reading the descriptor of the responses fails or gives the driver's. -/
def Dma.ReadsRecv (dma : Dma) (q : SysQueue) (configIova : Nat) : Prop :=
  ∀ cfg q', dma.config configIova = some cfg → ipu4LoadQueueDesc dma cfg.outputQueue 1 = some q' →
    q' = q

/-- The responses of a command fit into the free slots of the ring, and the driver reads
in a slot what the device has written there. It does if the pages of the slot follow each
other and no one else writes them: see `hostRead_write_iff`. -/
def LinkMeets (q : SysQueue) (l : Link) : LinkEv → Prop
  | .command stream newWr dma =>
    dma.ReadsRecv q l.dev.syscomConfigIova ∧
      (l.chan q).outstanding + commandResponses dma l.dev stream newWr < q.size
  | .take found => ∀ rd, l.host = .take rd → found = l.dev.resps (slotIova q rd)
  | _ => True

-- ---------------------------------------------------------------------------
-- Posting
-- ---------------------------------------------------------------------------

/-- The invariant of the two ends, with room for `k` more responses. -/
structure Fits (q : SysQueue) (l : Link) (configIova k : Nat) : Prop where
  inv : RecvInv q (l.chan q)
  room : (l.chan q).outstanding + k < q.size
  desc : l.dev.isRecvQ = none ∨ l.dev.isRecvQ = some q
  config : l.dev.syscomConfigIova = configIova

/-- The slots of a ring are different places. -/
structure Slotted (q : SysQueue) : Prop where
  size : q.size < 2 ^ 32
  slots : ∀ i < q.size, ∀ j < q.size, slotIova q i = slotIova q j → i = j
  regs : q.wrReg < 64 ∧ q.wrReg ≠ q.rdReg ∧ 26 ≤ q.wrReg ∧ 26 ≤ q.rdReg
  token : 64 ≤ q.tokenSize

theorem msgRecvQueue_slotted (dmaBuffer dmaAddr : Nat) :
    Slotted (msgRecvQueue dmaBuffer dmaAddr) := by
  refine ⟨by simp [msgRecvQueue], ?_, by simp [msgRecvQueue], by simp [msgRecvQueue]⟩
  intro i hi j hj h
  simp only [slotIova, msgRecvQueue] at h hi hj
  omega

variable {q : SysQueue} {l : Link}

theorem Fits.mono (h : Fits q l c k) (hk : k' ≤ k) : Fits q l c k' :=
  ⟨h.inv, by have := h.room; omega, h.desc, h.config⟩

theorem Fits.congr (h : Fits q l c k) (hd : s.isDmem = l.dev.isDmem)
    (hr : s.resps = l.dev.resps) (hp : s.posted = l.dev.posted) (hq : s.isRecvQ = l.dev.isRecvQ)
    (hc : s.syscomConfigIova = l.dev.syscomConfigIova) : Fits q { l with dev := s } c k := by
  have hchan : ({ l with dev := s } : Link).chan q = l.chan q := by
    simp only [Link.chan, hd, hr, hp]
  exact ⟨hchan ▸ h.inv, hchan ▸ h.room, by simpa only [hq] using h.desc, hc.trans h.config⟩

theorem RecvInv.post {s : RecvChan τ} (h : RecvInv q s) (hfw : s.fw = .idle)
    (hroom : s.outstanding + 1 < q.size) (hs : q.size < 2 ^ 32) (t : τ) :
    RecvInv q { s with
      ring := (s.ring.store s.ring.wr t).setWr ((s.ring.wr + 1) % q.size)
      sent := s.sent ++ [t] } := by
  have htok : ¬ noToken (sendPackets q.size s.ring.wr s.ring.rd) = true := by
    rw [noToken_sendPackets h.ok.wr_lt h.ok.rd_lt, ← h.outstanding]
    omega
  have htest : recvStep q s .fwTest = some { s with fw := .ready } := by
    simp [recvStep, hfw, htok]
  have hwrite : recvStep q { s with fw := .ready } (.fwWrite t) =
      some { s with ring := s.ring.store s.ring.wr t, fw := .wrote t } := rfl
  have hadvance :
      recvStep q { s with ring := s.ring.store s.ring.wr t, fw := .wrote t } .fwAdvance =
      some { s with
        ring := (s.ring.store s.ring.wr t).setWr ((s.ring.wr + 1) % q.size)
        fw := .idle
        sent := s.sent ++ [t] } := rfl
  have hinv := ((h.step hs htest).step hs hwrite).step hs hadvance
  rw [← hfw] at hinv
  exact hinv

theorem Fits.getRecvQueue (h : Fits q l c k) (hdma : dma.ReadsRecv q c) :
    ∃ s, ipu4GetRecvQueue dma l.dev = (s, none) ∧ Fits q { l with dev := s } c k ∨
      ipu4GetRecvQueue dma l.dev = (s, some q) ∧ Fits q { l with dev := s } c k := by
  unfold ipu4GetRecvQueue
  rcases h.desc with hnone | hsome
  · simp only [hnone]
    split
    · exact ⟨_, .inl ⟨rfl, h⟩⟩
    · split
      · exact ⟨_, .inl ⟨rfl, h⟩⟩
      next cfg hcfg =>
        split
        · exact ⟨_, .inl ⟨rfl, h⟩⟩
        next q' hq' =>
          rw [h.config] at hcfg
          obtain rfl := hdma cfg q' hcfg hq'
          exact ⟨_, .inr ⟨rfl, h.inv, h.room, .inr rfl, h.config⟩⟩
  · simp only [hsome]
    exact ⟨_, .inr ⟨rfl, h⟩⟩

theorem chan_post (hq : Slotted q) (hs : s.isDmem q.wrReg < q.size) (resp : RespInfo)
    (hd : s'.isDmem = Function.update s.isDmem q.wrReg ((s.isDmem q.wrReg + 1) % q.size))
    (hr : s'.resps = Function.update s.resps (slotIova q (s.isDmem q.wrReg)) resp)
    (hp : s'.posted = s.posted ++ [resp]) :
    ({ l with dev := s' } : Link).chan q =
      { ({ l with dev := s } : Link).chan q with
        ring := ((({ l with dev := s } : Link).chan q).ring.store (s.isDmem q.wrReg) resp).setWr
          ((s.isDmem q.wrReg + 1) % q.size)
        sent := s.posted ++ [resp] } := by
  have hslots : (fun i => if i < q.size then s'.resps (slotIova q i) else default) =
      fun i => if i = s.isDmem q.wrReg then resp
        else if i < q.size then s.resps (slotIova q i) else default := by
    funext i
    rw [hr]
    by_cases hi : i < q.size
    · by_cases heq : i = s.isDmem q.wrReg
      · simp [heq, hs]
      · have hne : slotIova q i ≠ slotIova q (s.isDmem q.wrReg) :=
          fun h => heq (hq.slots i hi _ hs h)
        simp [hi, heq, hne]
    · have hne : i ≠ s.isDmem q.wrReg := fun h => hi (h ▸ hs)
      simp [hi, hne]
  simp only [Link.chan, Ring.store, Ring.setWr, hslots, hd, hp, Function.update_self,
    Function.update_of_ne (Ne.symm hq.regs.2.1)]

theorem Fits.stored (hq : Slotted q) (h : Fits q { l with dev := s } c (k + 1)) (resp : RespInfo)
    (hd : s'.isDmem = Function.update s.isDmem q.wrReg ((s.isDmem q.wrReg + 1) % q.size))
    (hr : s'.resps = Function.update s.resps (slotIova q (s.isDmem q.wrReg)) resp)
    (hp : s'.posted = s.posted ++ [resp]) (hrecv : s'.isRecvQ = s.isRecvQ)
    (hc : s'.syscomConfigIova = s.syscomConfigIova) : Fits q { l with dev := s' } c k := by
  have hroom := h.room
  have hinv := RecvInv.post h.inv rfl (by omega) hq.size resp
  have hchan := chan_post (l := l) hq h.inv.ok.wr_lt resp hd hr hp
  have hlen : l.received.length ≤ s.posted.length := by
    have hfifo : s.posted = l.received ++ _ := h.inv.fifo
    rw [hfifo, List.length_append]
    omega
  refine ⟨hchan ▸ hinv, ?_, by simpa only [hrecv] using h.desc, hc.trans h.config⟩
  simp only [RecvChan.outstanding, Link.chan, hp, List.length_append, List.length_singleton]
    at hroom ⊢
  omega

theorem Fits.post (hq : Slotted q) (hdma : dma.ReadsRecv q c) (h : Fits q l c (k + 1))
    (resp : RespInfo) : Fits q { l with dev := ipu4PostResponseFull dma l.dev resp } c k := by
  obtain ⟨s, ⟨heq, hs⟩ | ⟨heq, hs⟩⟩ := h.getRecvQueue hdma
  · simp only [ipu4PostResponseFull, heq]
    exact hs.mono (Nat.le_succ k)
  · simp only [ipu4PostResponseFull, heq]
    split
    · exact hs.mono (Nat.le_succ k)
    split
    · exact hs.mono (Nat.le_succ k)
    have hwr : s.isDmem q.wrReg < q.size := hs.inv.ok.wr_lt
    simp only [if_neg (Nat.not_le.mpr hwr)]
    split
    · exact hs.mono (Nat.le_succ k)
    · exact hs.stored hq resp rfl rfl rfl rfl rfl

theorem Fits.deliverPins (hq : Slotted q) (hdma : dma.ReadsRecv q c) (stream i : Nat)
    (pins : List OutputPin)
    (h : Fits q { l with dev := s } c ((pins.filter fun pin => pin.addr ≠ 0).length + k)) :
    Fits q { l with dev := deliverPins dma stream i pins s } c k := by
  induction pins generalizing i s with
  | nil => simpa [Qemu.deliverPins] using h
  | cons pin pins ih =>
    simp only [Qemu.deliverPins]
    refine ih (i + 1) ?_
    by_cases haddr : pin.addr = 0
    · simpa [haddr] using h
    · simp only [haddr, if_false]
      refine Fits.post (l := { l with dev := s }) hq hdma ?_ _
      simpa [haddr, Nat.add_right_comm] using h

theorem Fits.deliverFrame (hq : Slotted q) (hdma : dma.ReadsRecv q c) (stream iova : Nat)
    (h : Fits q { l with dev := s } c (frameResponses dma iova + k)) :
    Fits q { l with dev := ipu4DeliverFrame dma s stream iova } c k := by
  unfold frameResponses at h
  unfold ipu4DeliverFrame
  split
  next hpins => simpa [hpins] using h
  next pins hpins =>
    simp only [hpins] at h
    refine Fits.deliverPins hq hdma stream 0 _ ?_
    refine Fits.post (l := { l with dev := _ }) hq hdma ?_ _
    exact (h.mono (by omega)).congr rfl rfl rfl rfl rfl

theorem Fits.dispatch (hq : Slotted q) (hdma : dma.ReadsRecv q c) (stream : Nat)
    (token : SendToken) (h : Fits q { l with dev := s } c (tokenResponses dma token + k)) :
    Fits q { l with dev := dispatch dma stream s token } c k := by
  have h' : Fits q { l with dev := { s with dispatched := s.dispatched ++ [(stream, token)] } } c
      (tokenResponses dma token + k) := h.congr rfl rfl rfl rfl rfl
  unfold tokenResponses at h'
  unfold Qemu.dispatch
  cases htype : token.sendType with
  | streamStartAndCapture =>
    simp only [htype] at h' ⊢
    refine Fits.deliverFrame hq hdma stream _ ?_
    refine Fits.post (l := { l with dev := _ }) hq hdma (h'.mono ?_) _
    omega
  | streamCapture =>
    simp only [htype] at h' ⊢
    exact Fits.deliverFrame hq hdma stream _ h'
  | streamStop => simpa [htype] using h'
  | other n => simpa [htype] using h'
  | streamOpen | streamStart | streamFlush | streamClose =>
    simp only [htype] at h' ⊢
    refine Fits.post (l := { l with dev := _ }) hq hdma (h'.mono ?_) _
    omega

theorem Fits.bumpLoop (hq : Slotted q) (hdma : dma.ReadsRecv q c) (sq : SysQueue)
    (stream pushed slot : Nat)
    (h : Fits q { l with dev := s } c (bumpResponses dma sq pushed slot + k)) :
    Fits q { l with dev := bumpLoop dma sq stream pushed slot s } c k := by
  induction pushed generalizing slot s with
  | zero => simpa [Qemu.bumpLoop, bumpResponses] using h
  | succ pushed ih =>
    simp only [Qemu.bumpLoop, bumpResponses] at h ⊢
    refine ih _ ?_
    cases htok : readToken dma sq slot with
    | none => simpa [htok] using h
    | some token =>
      refine Fits.dispatch hq hdma stream token ?_
      simpa [htok, Nat.add_assoc] using h

theorem Fits.dmem (hq : Slotted q) (h : Fits q l c k) (hreg : reg < 26) :
    Fits q { l with dev := { l.dev with isDmem := Function.update l.dev.isDmem reg val } } c k := by
  have hwr : q.wrReg ≠ reg := by have := hq.regs; omega
  have hrd : q.rdReg ≠ reg := by have := hq.regs; omega
  have hchan : ({ l with dev := { l.dev with isDmem := Function.update l.dev.isDmem reg val } } :
      Link).chan q = l.chan q := by
    simp only [Link.chan, Function.update_of_ne hwr, Function.update_of_ne hrd]
  exact ⟨hchan ▸ h.inv, hchan ▸ h.room, h.desc, h.config⟩

theorem Fits.getSendQueue (h : Fits q l c k) (dma : Dma) (stream : Nat) :
    Fits q { l with dev := (ipu4GetSendQueue dma l.dev stream).1 } c k := by
  unfold ipu4GetSendQueue
  split
  · exact h
  split
  · exact h
  split
  · exact h
  split
  · exact h
  split
  · exact h
  · exact h.congr rfl rfl rfl rfl rfl

theorem commandResponses_dmem (dma : Dma) (s : Ipu4State) (d : Nat → Nat) (stream newWr : Nat) :
    commandResponses dma { s with isDmem := d } stream newWr =
      commandResponses dma s stream newWr := by
  unfold commandResponses
  rw [getSendQueue_dmem]
  generalize ipu4GetSendQueue dma s stream = r
  obtain ⟨s, none | q⟩ := r <;> rfl

theorem Fits.handleSendBump (hq : Slotted q) (hdma : dma.ReadsRecv q c)
    (h : Fits q { l with dev := s } c (commandResponses dma s stream newWr)) :
    Fits q { l with dev := ipu4HandleSendBump dma s stream newWr } c 0 := by
  have hget := h.getSendQueue dma stream
  unfold commandResponses at hget
  unfold ipu4HandleSendBump
  dsimp only at hget ⊢
  generalize ipu4GetSendQueue dma s stream = r at hget ⊢
  obtain ⟨s, none | sq⟩ := r
  · exact hget.congr rfl rfl rfl rfl rfl
  · dsimp only at hget ⊢
    split
    · exact (hget.mono (Nat.zero_le _)).congr rfl rfl rfl rfl rfl
    split
    · exact hget.mono (Nat.zero_le _)
    · refine Fits.bumpLoop hq hdma sq stream _ _ ?_
      rw [Nat.add_zero]
      exact hget.congr rfl rfl rfl rfl rfl

theorem Fits.command (hq : Slotted q) (hdma : dma.ReadsRecv q c) (hstream : stream < 8)
    (h : Fits q l c (commandResponses dma l.dev stream newWr)) :
    Fits q { l with dev := ipu4DmemWrite dma l.dev (sendWrReg stream) newWr } c 0 := by
  have hreg : sendWrReg stream < 26 := by
    unfold sendWrReg
    omega
  rw [dmemWrite_sendWrReg dma l.dev newWr hstream]
  refine Fits.handleSendBump hq hdma ?_
  rw [commandResponses_dmem]
  exact h.dmem hq hreg

-- ---------------------------------------------------------------------------
-- Runs
-- ---------------------------------------------------------------------------

theorem dmemRead_eq (s : Ipu4State) (h : 26 ≤ reg) : ipu4DmemRead s reg = s.isDmem reg := by
  have h₁ : reg ≠ 11 := by omega
  have h₂ : reg ≠ SYSCOM_STATE_REG := by
    unfold SYSCOM_STATE_REG
    omega
  simp [ipu4DmemRead, h₁, h₂]

theorem linkStep_host (hq : Slotted q) (h : RecvInv q (l.chan q)) (he : linkStep q l ev = some l')
    (hmeets : LinkMeets q l ev) (hev : ∀ stream newWr dma, ev ≠ .command stream newWr dma) :
    (l'.dev.isRecvQ = l.dev.isRecvQ ∧ l'.dev.syscomConfigIova = l.dev.syscomConfigIova) ∧
      ∃ ev', recvStep q (l.chan q) ev' = some (l'.chan q) := by
  obtain ⟨-, hne, hwr, hrd⟩ := hq.regs
  cases ev with
  | command stream newWr dma => exact absurd rfl (hev stream newWr dma)
  | readWr =>
    simp only [linkStep, dmemRead_eq l.dev hwr] at he
    split at he <;> cases he
    rename_i hpc
    exact ⟨⟨rfl, rfl⟩, .readWr, by simp [recvStep, Link.chan, hpc]⟩
  | readRd =>
    simp only [linkStep, dmemRead_eq l.dev hrd] at he
    split at he
    · rename_i wr outstanding hpc
      split at he <;> cases he
      · rename_i hnt
        exact ⟨⟨rfl, rfl⟩, .readRd, by simp [recvStep, Link.chan, hpc, hnt]⟩
      · rename_i hnt
        exact ⟨⟨rfl, rfl⟩, .readRd, by simp [recvStep, Link.chan, hpc, hnt]⟩
    · cases he
  | take found =>
    simp only [linkStep] at he
    split at he <;> cases he
    rename_i rd hpc
    obtain rfl := hmeets rd hpc
    have hhost : RecvPc.Knows q.size (l.chan q).ring l.host := h.host
    rw [hpc] at hhost
    have hlt : rd < q.size := hhost.1 ▸ h.ok.rd_lt
    exact ⟨⟨rfl, rfl⟩, .take, by simp [recvStep, Link.chan, hpc, hlt]⟩
  | putReadRd =>
    simp only [linkStep, dmemRead_eq l.dev hrd] at he
    split at he <;> cases he
    rename_i t hpc
    exact ⟨⟨rfl, rfl⟩, .putReadRd, by simp [recvStep, Link.chan, hpc]⟩
  | putWriteRd =>
    simp only [linkStep] at he
    split at he <;> cases he
    rename_i rd t hpc
    refine ⟨⟨rfl, rfl⟩, .putWriteRd, ?_⟩
    simp [recvStep, Link.chan, hpc, Ring.setRd, Function.update_of_ne hne]

/-- What holds of the two ends in every state of a run. -/
structure LinkInv (q : SysQueue) (l : Link) : Prop where
  inv : RecvInv q (l.chan q)
  desc : l.dev.isRecvQ = none ∨ l.dev.isRecvQ = some q

theorem LinkInv.step (hq : Slotted q) (h : LinkInv q l) (he : linkStep q l ev = some l')
    (hmeets : LinkMeets q l ev) : LinkInv q l' := by
  by_cases hev : ∃ stream newWr dma, ev = .command stream newWr dma
  · obtain ⟨stream, newWr, dma, rfl⟩ := hev
    obtain rfl := Option.some.inj he
    have hfits := Fits.command hq hmeets.1 stream.isLt ⟨h.inv, hmeets.2, h.desc, rfl⟩
    exact ⟨hfits.inv, hfits.desc⟩
  · obtain ⟨⟨hrecv, -⟩, ev', hstep⟩ := linkStep_host hq h.inv he hmeets
      fun stream newWr dma heq => hev ⟨stream, newWr, dma, heq⟩
    exact ⟨h.inv.step hq.size hstep, hrecv ▸ h.desc⟩

-- ---------------------------------------------------------------------------
-- Draining
-- ---------------------------------------------------------------------------

/-- One response through `ipu6_recv_get_token` and `ipu6_recv_put_token`, as the device has
written it. -/
def drainOne (q : SysQueue) (l : Link) : Option Link :=
  [.readWr, .readRd, .take (l.dev.resps (slotIova q (l.dev.isDmem q.rdReg))), .putReadRd,
    .putWriteRd].foldlM (linkStep q) l

def drain (q : SysQueue) : Nat → Link → Option Link
  | 0, l => some l
  | n + 1, l => (drainOne q l).bind (drain q n)

theorem LinkInv.drained (hq : Slotted q) (h : LinkInv q l) (hidle : l.host = .idle)
    (hne : (l.chan q).ring.wr ≠ (l.chan q).ring.rd) :
    ∃ l', drainOne q l = some l' ∧ l'.host = .idle ∧ l'.dev.posted = l.dev.posted ∧
      l'.received.length = l.received.length + 1 ∧ LinkInv q l' := by
  obtain ⟨-, -, hwr, hrd⟩ := hq.regs
  have htok : noToken (recvPackets q.size (l.dev.isDmem q.wrReg) (l.dev.isDmem q.rdReg)) = false := by
    rw [← Bool.not_eq_true]
    exact mt (noToken_recvPackets hq.size h.inv.ok.wr_lt h.inv.ok.rd_lt).mp hne
  let l₁ : Link := { l with host := .getRd (l.dev.isDmem q.wrReg) (l.chan q).outstanding }
  let l₂ : Link := { l with host := .take (l.dev.isDmem q.rdReg) }
  let t := l.dev.resps (slotIova q (l.dev.isDmem q.rdReg))
  let l₃ : Link := { l with host := .putRead t }
  let l₄ : Link := { l with host := .putWrite (l.dev.isDmem q.rdReg) t }
  let l₅ : Link := {
    dev := { l.dev with
      isDmem := Function.update l.dev.isDmem q.rdReg (putCursor q.size (l.dev.isDmem q.rdReg)) }
    host := .idle
    received := l.received ++ [t] }
  have h₁ : linkStep q l .readWr = some l₁ := by simp [linkStep, hidle, dmemRead_eq _ hwr, l₁]
  have h₂ : linkStep q l₁ .readRd = some l₂ := by
    simp [linkStep, dmemRead_eq _ hrd, htok, l₁, l₂]
  have h₃ : linkStep q l₂ (.take (l.dev.resps (slotIova q (l.dev.isDmem q.rdReg)))) = some l₃ := rfl
  have h₄ : linkStep q l₃ .putReadRd = some l₄ := by simp [linkStep, dmemRead_eq _ hrd, l₃, l₄]
  have h₅ : linkStep q l₄ .putWriteRd = some l₅ := rfl
  have htake : LinkMeets q l₂ (.take t) := by
    intro rd hpc
    obtain rfl : l.dev.isDmem q.rdReg = rd := RecvPc.take.inj hpc
    rfl
  have hinv₁ : LinkInv q l₁ := h.step hq h₁ trivial
  have hinv₂ : LinkInv q l₂ := hinv₁.step hq h₂ trivial
  have hinv₃ : LinkInv q l₃ := hinv₂.step hq h₃ htake
  have hinv₄ : LinkInv q l₄ := hinv₃.step hq h₄ trivial
  refine ⟨l₅, ?_, rfl, rfl, by simp [l₅], hinv₄.step hq h₅ trivial⟩
  simp [drainOne, h₁, h₂, h₃, h₄, h₅]

theorem LinkInv.drain (hq : Slotted q) (h : LinkInv q l) (hidle : l.host = .idle) :
    ∃ l', Qemu.drain q (l.chan q).outstanding l = some l' ∧ l'.received = l.dev.posted := by
  generalize hn : (l.chan q).outstanding = n
  induction n generalizing l with
  | zero =>
    refine ⟨l, rfl, ?_⟩
    have hout := h.inv.outstanding
    have hfifo : l.dev.posted = l.received ++ (l.chan q).ring.contents q.size := h.inv.fifo
    rw [hn] at hout
    rw [hfifo, (Ring.contents_eq_nil h.inv.ok).mpr ((Ring.count_eq_zero h.inv.ok).mp hout.symm),
      List.append_nil]
  | succ n ih =>
    have hne : (l.chan q).ring.wr ≠ (l.chan q).ring.rd := fun heq => by
      have := (Ring.count_eq_zero h.inv.ok).mpr heq
      rw [← h.inv.outstanding, hn] at this
      cases this
    obtain ⟨l₁, hrun, hidle₁, hposted, hlen, hinv⟩ := h.drained hq hidle hne
    have hn₁ : (l₁.chan q).outstanding = n := by
      simp only [RecvChan.outstanding, Link.chan, hposted, hlen] at hn ⊢
      omega
    obtain ⟨l', hrest, heq⟩ := ih hinv hidle₁ hn₁
    refine ⟨l', ?_, heq.trans hposted⟩
    rw [Qemu.drain, hrun]
    exact hrest

/-- In every run in which the responses of each command fit into the ring, and the driver
reads in each slot what the device has written there, it receives the responses in the order
they were posted, each once: those it has not received are still in their slots, and it
gets them by draining. -/
theorem responses_in_order (dmaBuffer dmaAddr : Nat) (l : Link)
    (h : Reachable (LinkInit (msgRecvQueue dmaBuffer dmaAddr)) (fun l ev l' =>
      LinkMeets (msgRecvQueue dmaBuffer dmaAddr) l ev ∧
        Enabled (linkStep (msgRecvQueue dmaBuffer dmaAddr)) l ev l') l) :
    RecvFifo (msgRecvQueue dmaBuffer dmaAddr) 40 (l.chan (msgRecvQueue dmaBuffer dmaAddr)) ∧
      (l.host = .idle → ∃ l', drain (msgRecvQueue dmaBuffer dmaAddr)
          (l.chan (msgRecvQueue dmaBuffer dmaAddr)).outstanding l = some l' ∧
        l'.received = l.dev.posted) := by
  have hq := msgRecvQueue_slotted dmaBuffer dmaAddr
  have hinv : LinkInv (msgRecvQueue dmaBuffer dmaAddr) l :=
    h.invariant (fun _ hi => ⟨RecvInv.init hi.1, .inl hi.2⟩) fun _ _ _ hi hs => hi.step hq hs.2 hs.1
  exact ⟨hinv.inv.recvFifo rfl hq.size, hinv.drain hq⟩

/-- DMA that finds a context at `0x10000` whose slots of stream 0 hold captures
with `n` output pins each. -/
def sampleDma (n : Nat) : Dma where
  config := fun _ => some ⟨0x10000 + 32, 0x10000 + 352⟩
  queueDesc := fun iova =>
    if iova = 0x10000 + 352 + 32 then some (msgRecvQueue 0 0x10000)
    else some (msgSendQueue 0 0x10000 0)
  token := fun _ => some ⟨0, 0x20000, .streamCapture, 0⟩
  pins := fun _ => some (List.replicate n ⟨1, 0x30000⟩)
  respWrite := fun _ => true

/-- After `ipu6_fw_com_open`, with nothing posted. -/
def sampleLink : Link := ⟨{ Ipu4State.reset with syscomConfigIova := 0x10000 }, .idle, []⟩

def stream0 : Fin 8 := 0

/-- The captures `1` to `n` on stream 0. -/
def sampleCaptures (pins n : Nat) : List LinkEv :=
  (List.range n).map fun k => .command stream0 (k + 1) (sampleDma pins)

theorem sampleLink_init : LinkInit (msgRecvQueue 0 0x10000) sampleLink :=
  ⟨⟨rfl, by decide, rfl, rfl, rfl, rfl⟩, rfl⟩

/-- Six captures of six pins post 42 responses. If the driver has not drained any,
the write cursor has passed the read cursor: one response is left to read. -/
theorem responses_overwritten :
    ∃ l, Reachable (LinkInit (msgRecvQueue 0 0x10000))
        (Enabled (linkStep (msgRecvQueue 0 0x10000))) l ∧
      l.dev.posted.length = 42 ∧ l.received = [] ∧
      ((l.chan (msgRecvQueue 0 0x10000)).ring.contents 41).length = 1 := by
  obtain ⟨l, hl, hf⟩ : ∃ l, (sampleCaptures 6 6).foldlM (linkStep (msgRecvQueue 0 0x10000))
      sampleLink = some l ∧ (l.dev.posted.length, l.received,
        ((l.chan (msgRecvQueue 0 0x10000)).ring.contents 41).length) = (42, [], 1) :=
    ⟨_, rfl, by decide +kernel⟩
  simp only [Prod.mk.injEq] at hf
  exact ⟨l, Runs.reachable_of_replay (.init sampleLink_init) _ hl, hf⟩

theorem sampleDma_readsRecv (n : Nat) :
    (sampleDma n).ReadsRecv (msgRecvQueue 0 0x10000) 0x10000 := by
  rintro cfg q hcfg hq
  obtain rfl := Option.some.inj hcfg
  exact (Option.some.inj hq).symm

/-- The driver takes the first of the seven responses to a capture of six pins. -/
theorem responses_of_one_capture :
    ∃ l : Link, l.dev.posted.length = 7 ∧ l.received = [⟨.frameSof, 0, 0, ⟨0, 0⟩⟩] ∧
      RecvFifo (msgRecvQueue 0 0x10000) 40 (l.chan (msgRecvQueue 0 0x10000)) := by
  let q := msgRecvQueue 0 0x10000
  let d := ipu4DmemWrite (sampleDma 6) sampleLink.dev (sendWrReg 0) 1
  let R := Reachable (LinkInit q) fun l ev l' => LinkMeets q l ev ∧ Enabled (linkStep q) l ev l'
  have hstep : ∀ {l l'} ev, R l → LinkMeets q l ev → linkStep q l ev = some l' → R l' :=
    fun _ hl hmeets he => .step hl ⟨hmeets, he⟩
  obtain ⟨hwr, hrd, hslot, hposted⟩ : ipu4DmemRead d q.wrReg = 7 ∧ ipu4DmemRead d q.rdReg = 0 ∧
      d.resps (slotIova q 0) = ⟨.frameSof, 0, 0, ⟨0, 0⟩⟩ ∧ d.posted.length = 7 := by
    decide +kernel
  have hdone : R ⟨d, .idle, []⟩ := hstep (.command 0 1 (sampleDma 6)) (.init sampleLink_init)
    ⟨sampleDma_readsRecv 6, by decide +kernel⟩ rfl
  clear_value d
  have htest : ¬ noToken (recvPackets q.size (ipu4DmemRead d q.wrReg) (ipu4DmemRead d q.rdReg)) = true := by
    rw [hwr, hrd]
    decide
  have htake : LinkMeets q ⟨d, .take (ipu4DmemRead d q.rdReg), []⟩ (.take ⟨.frameSof, 0, 0, ⟨0, 0⟩⟩) := by
    intro rd hpc
    rw [← RecvPc.take.inj hpc, hrd]
    exact hslot.symm
  have hread := hstep .readRd (hstep .readWr hdone trivial rfl) trivial (if_neg htest)
  have hput := hstep .putWriteRd (hstep .putReadRd (hstep _ hread htake rfl) trivial rfl) trivial rfl
  exact ⟨_, hposted, rfl, (responses_in_order 0 0x10000 _ hput).1⟩

end Ipu4.Qemu
