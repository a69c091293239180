import Ipu4.Lib.Runs
import Ipu4.Qemu.Mmio

/-!
# Saving and loading the device

`vmstate_ipu4` lists the fields that migration carries over. The descriptors of the
queues and their loaded flags are not in it, so the loaded device reads them again
from guest memory when it needs them, and for a send queue forgets the cursor it had
seen. A loaded device does the same as the saved one as long as that makes no
difference.
-/

namespace Ipu4.Qemu

open FwCom (SysQueue)
open Runs (Reachable visited)

-- ---------------------------------------------------------------------------
-- Migration
-- ---------------------------------------------------------------------------

/-- A device after a reset into which the fields of `vmstate_ipu4` are loaded. -/
def Device.migrate (d : Device) : Device :=
  { Device.reset with
    btrsCtrl := d.btrsCtrl
    fwResetCtl := d.fwResetCtl
    pwrState := d.pwrState
    isrEnable := d.isrEnable
    isrStatus := d.isrStatus
    fwSrcLo := d.fwSrcLo
    fwSrcHi := d.fwSrcHi
    fwSrcSize := d.fwSrcSize
    securityCtl := d.securityCtl
    iu2cseCsr := d.iu2cseCsr
    cse2iuCsr := d.cse2iuCsr
    cse2iuData0 := d.cse2iuData0
    isFreqCtl := d.isFreqCtl
    psFreqCtl := d.psFreqCtl
    fabricCmd := d.fabricCmd
    isUnispart := d.isUnispart
    isUnispartSwIrqMux := d.isUnispartSwIrqMux
    csi2 := d.csi2
    isDmem := d.isDmem
    isMmu := d.isMmu
    psMmu := d.psMmu
    isSpcStatusCtrl := d.isSpcStatusCtrl
    psSpcStatusCtrl := d.psSpcStatusCtrl
    isMmuL1Pfn := d.isMmuL1Pfn
    syscomConfigIova := d.syscomConfigIova
    isSendWrSeen := d.isSendWrSeen
    isPowered := d.isPowered
    psPowered := d.psPowered }

inductive Access
  | read (addr : Nat)
  | write (addr val : Nat)
  deriving DecidableEq, Repr

/-- One access, with the clock and guest memory as it finds them. -/
structure Turn where
  clock : Nat
  mem : Memory
  access : Access

/-- What the guest sees of an access. -/
structure Seen where
  value : Nat
  effect : Effect

def Device.access (d : Device) (t : Turn) : Device × Seen :=
  match t.access with
  | .read addr =>
    let (d, value) := ipu4MmioRead t.clock d addr
    (d, ⟨value, t.mem, []⟩)
  | .write addr val =>
    let (d, effect) := ipu4MmioWrite t.mem d addr val
    (d, ⟨0, effect⟩)

def Device.next (d : Device) (t : Turn) : Device := (d.access t).1

/-- All that the guest sees of a sequence of accesses. -/
def Device.seen (d : Device) (ts : List Turn) : List Seen :=
  (visited Device.next d ts).map fun x => (x.1.access x.2).2

-- ---------------------------------------------------------------------------
-- Reading descriptors again
-- ---------------------------------------------------------------------------

def loadSendQueue (dma : Dma) (configIova stream : Nat) : Option SysQueue :=
  if configIova = 0 then none
  else (dma.config configIova).bind fun cfg =>
    ipu4LoadQueueDesc dma cfg.inputQueue (IPU4_BASE_MSG_SEND_QUEUES + stream)

def loadRecvQueue (dma : Dma) (configIova : Nat) : Option SysQueue :=
  if configIova = 0 then none
  else (dma.config configIova).bind fun cfg => ipu4LoadQueueDesc dma cfg.outputQueue 1

section
variable {dma : Dma} {s : Ipu4State}

theorem getSendQueue_reload (hstream : stream < 8) (hs : s.isSendQ stream = none)
    (h : loadSendQueue dma s.syscomConfigIova stream = some q) :
    ipu4GetSendQueue dma s stream =
      ({ s with
        isSendQ := Function.update s.isSendQ stream (some q)
        isSendWrSeen := Function.update s.isSendWrSeen stream 0 }, some q) := by
  unfold loadSendQueue at h
  split at h
  · cases h
  next hcfg =>
    obtain ⟨cfg, hread, hload⟩ := Option.bind_eq_some_iff.mp h
    unfold ipu4GetSendQueue
    rw [if_neg (by unfold IPU4_MAX_MSG_STREAMS; omega)]
    simp only [hs, hcfg, if_false, hread, hload]

theorem getRecvQueue_reload (hs : s.isRecvQ = none)
    (h : loadRecvQueue dma s.syscomConfigIova = some q) :
    ipu4GetRecvQueue dma s = ({ s with isRecvQ := some q }, some q) := by
  unfold loadRecvQueue at h
  split at h
  · cases h
  next hcfg =>
    obtain ⟨cfg, hread, hload⟩ := Option.bind_eq_some_iff.mp h
    unfold ipu4GetRecvQueue
    simp only [hs, hcfg, if_false, hread, hload]

-- ---------------------------------------------------------------------------
-- The responder does not look at the send queues
-- ---------------------------------------------------------------------------

theorem getRecvQueue_sendQ (a : Nat → Option SysQueue) :
    ipu4GetRecvQueue dma { s with isSendQ := a } =
      ({ (ipu4GetRecvQueue dma s).1 with isSendQ := a }, (ipu4GetRecvQueue dma s).2) := by
  obtain ⟨dmem, iova, sendQ, _ | q, seen, uni, isr, part, resps, posted, dispatched⟩ := s
  · unfold ipu4GetRecvQueue
    dsimp only
    split
    · rfl
    cases dma.config iova with
    | none => rfl
    | some cfg =>
      dsimp only
      cases ipu4LoadQueueDesc dma cfg.outputQueue 1 <;> rfl
  · rfl

theorem postResponseFull_sendQ (a : Nat → Option SysQueue) (resp : RespInfo) :
    ipu4PostResponseFull dma { s with isSendQ := a } resp =
      { ipu4PostResponseFull dma s resp with isSendQ := a } := by
  unfold ipu4PostResponseFull
  rw [getRecvQueue_sendQ]
  generalize ipu4GetRecvQueue dma s = r
  obtain ⟨s', _ | rq⟩ := r
  · rfl
  dsimp only
  split
  · rfl
  split
  · rfl
  generalize (if rq.size ≤ s'.isDmem rq.wrReg then 0 else s'.isDmem rq.wrReg) = wr
  cases dma.respWrite (slotIova rq wr) <;> rfl

theorem respSlot_sendQ (a : Nat → Option SysQueue) :
    respSlot dma { s with isSendQ := a } = respSlot dma s := by
  unfold respSlot
  rw [getRecvQueue_sendQ]
  generalize ipu4GetRecvQueue dma s = r
  obtain ⟨s', _ | rq⟩ := r <;> rfl

end

/-- The device with other descriptors of the send queues. -/
def Guest.withSendQ (g : Guest) (a : Nat → Option SysQueue) : Guest :=
  { g with dev := { g.dev with isSendQ := a } }

section
variable (g : Guest) (a : Nat → Option SysQueue)

theorem postResponseFull_withSendQ (resp : RespInfo) :
    (g.withSendQ a).postResponseFull resp = (g.postResponseFull resp).withSendQ a := by
  have hdma : (g.withSendQ a).dma = g.dma := rfl
  unfold Guest.postResponseFull
  rw [hdma]
  unfold Guest.withSendQ
  dsimp only
  rw [postResponseFull_sendQ, respSlot_sendQ]

theorem deliverPins_withSendQ (stream i : Nat) (pins : List OutputPin) :
    Guest.deliverPins stream i pins (g.withSendQ a) =
      (Guest.deliverPins stream i pins g).withSendQ a := by
  induction pins generalizing i g with
  | nil => rfl
  | cons pin pins ih =>
    simp only [Guest.deliverPins]
    split
    · exact ih g (i + 1)
    · rw [← ih, ← postResponseFull_withSendQ]
      rfl

theorem deliverFrame_withSendQ (stream iova : Nat) :
    (g.withSendQ a).deliverFrame stream iova = (g.deliverFrame stream iova).withSendQ a := by
  have hdma : (g.withSendQ a).dma = g.dma := rfl
  unfold Guest.deliverFrame
  rw [hdma]
  cases g.dma.pins iova with
  | none => rfl
  | some pins =>
    dsimp only
    rw [← deliverPins_withSendQ]
    congr 1
    exact postResponseFull_withSendQ { g with dev := { g.dev with
      csi2PartStatus := g.dev.csi2PartStatus ||| CSI2_PART_IRQ_FS_VC0
      isUnispartIrqStatus := g.dev.isUnispartIrqStatus ||| ISYS_UNISPART_IRQ_CSI2_PORT0 } } a _

theorem dispatch_withSendQ (stream : Nat) (token : SendToken) :
    (g.withSendQ a).dispatch stream token = (g.dispatch stream token).withSendQ a := by
  unfold Guest.dispatch
  generalize hlog : { g with dev :=
    { g.dev with dispatched := g.dev.dispatched ++ [(stream, token)] } } = g'
  have hlog' : { g.withSendQ a with dev := { (g.withSendQ a).dev with
      dispatched := (g.withSendQ a).dev.dispatched ++ [(stream, token)] } } = g'.withSendQ a := by
    rw [← hlog]
    rfl
  rw [hlog']
  cases token.sendType with
  | streamStartAndCapture =>
    dsimp only
    rw [Guest.postResponse, postResponseFull_withSendQ, deliverFrame_withSendQ]
    rfl
  | streamCapture => exact deliverFrame_withSendQ g' a stream _
  | streamStop | other n => rfl
  | streamOpen | streamStart | streamFlush | streamClose => exact postResponseFull_withSendQ g' a _

theorem bumpLoop_withSendQ (q : SysQueue) (stream n slot : Nat) :
    Guest.bumpLoop q stream n slot (g.withSendQ a) =
      (Guest.bumpLoop q stream n slot g).withSendQ a := by
  induction n generalizing slot g with
  | zero => rfl
  | succ n ih =>
    have hdma : (g.withSendQ a).dma = g.dma := rfl
    unfold Guest.bumpLoop
    rw [hdma]
    cases readToken g.dma q slot with
    | none => exact ih g _
    | some token =>
      dsimp only
      rw [dispatch_withSendQ]
      exact ih _ _

end

-- ---------------------------------------------------------------------------
-- The descriptor of the responses is read again with the first of them
-- ---------------------------------------------------------------------------

def Guest.forgetRecv (g : Guest) : Guest := { g with dev := { g.dev with isRecvQ := none } }

/-- The device has the descriptor of the responses, and memory still holds it. -/
def Reloads (g : Guest) : Prop :=
  ∃ q, g.dev.isRecvQ = some q ∧ loadRecvQueue g.dma g.dev.syscomConfigIova = some q

/-- `g'` is where `g` is, or has yet to read the descriptor of the responses. -/
def Catches (g' g : Guest) : Prop := g' = g ∨ g' = g.forgetRecv ∧ Reloads g

theorem postResponseFull_forgetRecv (h : Reloads g) (resp : RespInfo) :
    g.forgetRecv.postResponseFull resp = g.postResponseFull resp := by
  obtain ⟨q, hq, hload⟩ := h
  have hdma : g.forgetRecv.dma = g.dma := rfl
  have hload' : loadRecvQueue g.dma g.forgetRecv.dev.syscomConfigIova = some q := hload
  have hget : ipu4GetRecvQueue g.dma g.forgetRecv.dev = (g.dev, some q) := by
    rw [getRecvQueue_reload rfl hload']
    unfold Guest.forgetRecv
    dsimp only
    rw [← hq]
  have hget' : ipu4GetRecvQueue g.dma g.dev = (g.dev, some q) := by
    simp only [ipu4GetRecvQueue, hq]
  unfold Guest.postResponseFull
  rw [hdma]
  simp only [ipu4PostResponseFull, respSlot, hget, hget']
  rfl

theorem Catches.post (h : Catches g' g) (resp : RespInfo) :
    g'.postResponseFull resp = g.postResponseFull resp := by
  rcases h with rfl | ⟨rfl, hr⟩
  · rfl
  · exact postResponseFull_forgetRecv hr resp

theorem Catches.deliverFrame (h : Catches g' g) (stream iova : Nat) :
    Catches (g'.deliverFrame stream iova) (g.deliverFrame stream iova) := by
  rcases h with rfl | ⟨rfl, hr⟩
  · exact .inl rfl
  have hdma : g.forgetRecv.dma = g.dma := rfl
  unfold Guest.deliverFrame
  rw [hdma]
  cases g.dma.pins iova with
  | none => exact .inr ⟨rfl, hr⟩
  | some pins =>
    have hsof := postResponseFull_forgetRecv (g := { g with dev := { g.dev with
      csi2PartStatus := g.dev.csi2PartStatus ||| CSI2_PART_IRQ_FS_VC0
      isUnispartIrqStatus := g.dev.isUnispartIrqStatus ||| ISYS_UNISPART_IRQ_CSI2_PORT0 } }) hr
      ⟨.frameSof, stream, 0, ⟨0, 0⟩⟩
    exact .inl (congrArg (Guest.deliverPins stream 0 pins) hsof)

theorem Catches.dispatch (h : Catches g' g) (stream : Nat) (token : SendToken) :
    Catches (g'.dispatch stream token) (g.dispatch stream token) := by
  have hlog : Catches
      { g' with dev := { g'.dev with dispatched := g'.dev.dispatched ++ [(stream, token)] } }
      { g with dev := { g.dev with dispatched := g.dev.dispatched ++ [(stream, token)] } } := by
    rcases h with rfl | ⟨rfl, hr⟩
    · exact .inl rfl
    · exact .inr ⟨rfl, hr⟩
  unfold Guest.dispatch
  cases token.sendType with
  | streamStartAndCapture => exact Catches.deliverFrame (.inl (hlog.post _)) stream _
  | streamCapture => exact hlog.deliverFrame stream _
  | streamStop | other n => exact hlog
  | streamOpen | streamStart | streamFlush | streamClose => exact .inl (hlog.post _)

theorem Catches.bumpLoop (h : Catches g' g) (q : SysQueue) (stream n slot : Nat) :
    Catches (Guest.bumpLoop q stream n slot g') (Guest.bumpLoop q stream n slot g) := by
  induction n generalizing slot g g' with
  | zero => exact h
  | succ n ih =>
    have hdma : g'.dma = g.dma := by
      rcases h with rfl | ⟨rfl, -⟩ <;> rfl
    unfold Guest.bumpLoop
    rw [hdma]
    cases readToken g.dma q slot with
    | none => exact ih h _
    | some token => exact ih (h.dispatch stream token) _

-- ---------------------------------------------------------------------------
-- Answering changes no send queue
-- ---------------------------------------------------------------------------

theorem getRecvQueue_isSendQ (dma : Dma) (s : Ipu4State) :
    (ipu4GetRecvQueue dma s).1.isSendQ = s.isSendQ := by
  unfold ipu4GetRecvQueue
  cases s.isRecvQ with
  | some q => rfl
  | none =>
    dsimp only
    split
    · rfl
    cases dma.config s.syscomConfigIova with
    | none => rfl
    | some cfg =>
      dsimp only
      cases ipu4LoadQueueDesc dma cfg.outputQueue 1 <;> rfl

section
variable (g : Guest)

theorem postResponseFull_isSendQ (resp : RespInfo) :
    (g.postResponseFull resp).dev.isSendQ = g.dev.isSendQ := by
  have hget := getRecvQueue_isSendQ g.dma g.dev
  have hdev : (g.postResponseFull resp).dev = ipu4PostResponseFull g.dma g.dev resp := rfl
  rw [hdev]
  unfold ipu4PostResponseFull
  generalize ipu4GetRecvQueue g.dma g.dev = r at hget ⊢
  obtain ⟨s', _ | rq⟩ := r
  · exact hget
  dsimp only
  split
  · exact hget
  split
  · exact hget
  generalize (if rq.size ≤ s'.isDmem rq.wrReg then 0 else s'.isDmem rq.wrReg) = wr
  split
  · exact hget
  · exact hget

theorem deliverPins_isSendQ (stream i : Nat) (pins : List OutputPin) :
    (Guest.deliverPins stream i pins g).dev.isSendQ = g.dev.isSendQ := by
  induction pins generalizing i g with
  | nil => rfl
  | cons pin pins ih =>
    simp only [Guest.deliverPins]
    rw [ih]
    split
    · rfl
    · exact postResponseFull_isSendQ (g.writePattern pin.addr 0) _

theorem deliverFrame_isSendQ (stream iova : Nat) :
    (g.deliverFrame stream iova).dev.isSendQ = g.dev.isSendQ := by
  unfold Guest.deliverFrame
  cases g.dma.pins iova with
  | none => rfl
  | some pins =>
    dsimp only
    rw [deliverPins_isSendQ]
    exact postResponseFull_isSendQ { g with dev := { g.dev with
      csi2PartStatus := g.dev.csi2PartStatus ||| CSI2_PART_IRQ_FS_VC0
      isUnispartIrqStatus := g.dev.isUnispartIrqStatus ||| ISYS_UNISPART_IRQ_CSI2_PORT0 } } _

theorem dispatch_isSendQ (stream : Nat) (token : SendToken) :
    (g.dispatch stream token).dev.isSendQ = g.dev.isSendQ := by
  let g' : Guest :=
    { g with dev := { g.dev with dispatched := g.dev.dispatched ++ [(stream, token)] } }
  unfold Guest.dispatch
  cases token.sendType with
  | streamStartAndCapture =>
    exact (deliverFrame_isSendQ _ _ _).trans (postResponseFull_isSendQ g' _)
  | streamCapture => exact deliverFrame_isSendQ g' _ _
  | streamStop | other n => rfl
  | streamOpen | streamStart | streamFlush | streamClose => exact postResponseFull_isSendQ g' _

theorem bumpLoop_isSendQ (q : SysQueue) (stream n slot : Nat) :
    (Guest.bumpLoop q stream n slot g).dev.isSendQ = g.dev.isSendQ := by
  induction n generalizing slot g with
  | zero => rfl
  | succ n ih =>
    unfold Guest.bumpLoop
    rw [ih]
    cases readToken g.dma q slot with
    | none => rfl
    | some token => exact dispatch_isSendQ g stream token

end

-- ---------------------------------------------------------------------------
-- One access
-- ---------------------------------------------------------------------------

/-- `s'` is `s`, except that it may have yet to load some of the descriptors. -/
structure Lags (s' s : Ipu4State) : Prop where
  rest : s' = { s with isSendQ := s'.isSendQ, isRecvQ := s'.isRecvQ }
  send : ∀ stream, s'.isSendQ stream = s.isSendQ stream ∨ s'.isSendQ stream = none
  recv : s'.isRecvQ = s.isRecvQ ∨ s'.isRecvQ = none

/-- What `s` has loaded and `s'` has not is in memory when the cursor of `stream` is
written, and `s` has seen no cursor of a stream that `s'` has to load. -/
structure Rereads (dma : Dma) (s' s : Ipu4State) (stream : Nat) : Prop where
  send : ∀ q, s.isSendQ stream = some q → s'.isSendQ stream = none →
    loadSendQueue dma s.syscomConfigIova stream = some q
  unseen : ∀ q, s.isSendQ stream = some q → s'.isSendQ stream = none → s.isSendWrSeen stream = 0
  recv : ∀ q, s.isRecvQ = some q → s'.isRecvQ = none →
    loadRecvQueue dma s.syscomConfigIova = some q

section
variable {dma : Dma} {s s' : Ipu4State}

theorem Lags.refl (s : Ipu4State) : Lags s s := ⟨rfl, fun _ => .inl rfl, .inl rfl⟩

theorem lags_of {a : Nat → Option SysQueue} {b : Option SysQueue}
    (hsend : ∀ stream, a stream = s.isSendQ stream ∨ a stream = none)
    (hrecv : b = s.isRecvQ ∨ b = none) : Lags { s with isSendQ := a, isRecvQ := b } s :=
  ⟨rfl, hsend, hrecv⟩

theorem getSendQueue_caches {a : Nat → Option SysQueue} (b : Option SysQueue)
    (h : a stream = s.isSendQ stream) :
    ipu4GetSendQueue dma { s with isSendQ := a, isRecvQ := b } stream =
      ({ (ipu4GetSendQueue dma s stream).1 with
        isSendQ := Function.update a stream ((ipu4GetSendQueue dma s stream).1.isSendQ stream)
        isRecvQ := b }, (ipu4GetSendQueue dma s stream).2) := by
  unfold ipu4GetSendQueue
  dsimp only
  rw [h]
  split
  · rw [← h, Function.update_eq_self]
  cases hq : s.isSendQ stream with
  | some q =>
    have hsome : Function.update a stream (some q) = a := by
      rw [← h.trans hq, Function.update_eq_self]
    dsimp only
    rw [hq, hsome]
  | none =>
    have hnone : Function.update a stream none = a := by
      rw [← h.trans hq, Function.update_eq_self]
    dsimp only
    split
    · rw [hq, hnone]
    cases dma.config s.syscomConfigIova with
    | none => rw [hq, hnone]
    | some cfg =>
      dsimp only
      cases ipu4LoadQueueDesc dma cfg.inputQueue (IPU4_BASE_MSG_SEND_QUEUES + stream) with
      | none => rw [hq, hnone]
      | some q => simp only [Function.update_self]

theorem getSendQueue_others (h : k ≠ stream) :
    (ipu4GetSendQueue dma s stream).1.isSendQ k = s.isSendQ k := by
  unfold ipu4GetSendQueue
  split
  · rfl
  split
  · rfl
  split
  · rfl
  split
  · rfl
  split
  · rfl
  · exact Function.update_of_ne h _ _

theorem getSendQueue_isRecvQ (dma : Dma) (s : Ipu4State) (stream : Nat) :
    (ipu4GetSendQueue dma s stream).1.isRecvQ = s.isRecvQ ∧
      (ipu4GetSendQueue dma s stream).1.syscomConfigIova = s.syscomConfigIova := by
  unfold ipu4GetSendQueue
  split
  · exact ⟨rfl, rfl⟩
  split
  · exact ⟨rfl, rfl⟩
  split
  · exact ⟨rfl, rfl⟩
  split
  · exact ⟨rfl, rfl⟩
  split
  · exact ⟨rfl, rfl⟩
  · exact ⟨rfl, rfl⟩

theorem Lags.getSendQueue (h : Lags s' s) (hr : Rereads dma s' s stream) (hstream : stream < 8) :
    (ipu4GetSendQueue dma s' stream).2 = (ipu4GetSendQueue dma s stream).2 ∧
      Lags (ipu4GetSendQueue dma s' stream).1 (ipu4GetSendQueue dma s stream).1 := by
  obtain ⟨hrest, hsend, hrecv⟩ := h
  have hunseen := hr.unseen
  have hload := hr.send
  generalize s'.isSendQ = a at hrest hsend hunseen hload
  generalize s'.isRecvQ = b at hrest hrecv
  subst hrest
  by_cases heq : a stream = s.isSendQ stream
  · rw [getSendQueue_caches b heq]
    refine ⟨rfl, lags_of (fun k => ?_) ?_⟩
    · by_cases hk : k = stream
      · subst hk
        exact .inl (Function.update_self ..)
      · rw [Function.update_of_ne hk, getSendQueue_others hk]
        exact hsend k
    · rw [(getSendQueue_isRecvQ dma s stream).1]
      exact hrecv
  · -- The descriptor is read again, and the cursor seen set to the 0 that it is.
    have hnone := (hsend stream).resolve_left heq
    obtain ⟨q, hq⟩ : ∃ q, s.isSendQ stream = some q := by
      rw [hnone] at heq
      exact Option.ne_none_iff_exists'.mp (Ne.symm heq)
    have hkept : ipu4GetSendQueue dma s stream = (s, some q) := by
      unfold ipu4GetSendQueue
      rw [if_neg (by unfold IPU4_MAX_MSG_STREAMS; omega)]
      simp only [hq]
    have hseen : Function.update s.isSendWrSeen stream 0 = s.isSendWrSeen := by
      rw [← hunseen q hq hnone, Function.update_eq_self]
    rw [hkept, getSendQueue_reload (s := { s with isSendQ := a, isRecvQ := b }) hstream hnone
      (hload q hq hnone)]
    dsimp only
    rw [hseen]
    refine ⟨rfl, lags_of (fun k => ?_) hrecv⟩
    by_cases hk : k = stream
    · subst hk
      rw [Function.update_self]
      exact .inl hq.symm
    · rw [Function.update_of_ne hk]
      exact hsend k

end

theorem Lags.catches {g' g : Guest} (h : Lags g'.dev g.dev) (hl1 : g'.l1Pfn = g.l1Pfn)
    (hmem : g'.mem = g.mem)
    (hr : ∀ q, g.dev.isRecvQ = some q → g'.dev.isRecvQ = none →
      loadRecvQueue g.dma g.dev.syscomConfigIova = some q) :
    ∃ g₁, Catches g₁ g ∧ g' = g₁.withSendQ g'.dev.isSendQ := by
  obtain ⟨dev', l1', mem'⟩ := g'
  obtain ⟨dev, l1, mem⟩ := g
  obtain ⟨hrest, -, hrecv⟩ := h
  dsimp only at hrest hl1 hmem hrecv hr ⊢
  subst hl1 hmem
  refine ⟨⟨{ dev with isRecvQ := dev'.isRecvQ }, l1', mem'⟩, ?_, congrArg (Guest.mk · l1' mem') hrest⟩
  rcases hrecv with heq | hnone
  · left
    rw [heq]
  · cases hq : dev.isRecvQ with
    | none =>
      left
      rw [hnone, ← hq]
    | some q =>
      right
      rw [hnone]
      exact ⟨rfl, q, hq, hr q hq hnone⟩

theorem Lags.bumpLoop {g' g : Guest} (h : Lags g'.dev g.dev) (hl1 : g'.l1Pfn = g.l1Pfn)
    (hmem : g'.mem = g.mem)
    (hr : ∀ q, g.dev.isRecvQ = some q → g'.dev.isRecvQ = none →
      loadRecvQueue g.dma g.dev.syscomConfigIova = some q) (q : SysQueue) (stream n slot : Nat) :
    Lags (Guest.bumpLoop q stream n slot g').dev (Guest.bumpLoop q stream n slot g).dev ∧
      (Guest.bumpLoop q stream n slot g').mem = (Guest.bumpLoop q stream n slot g).mem := by
  have hsend := h.send
  obtain ⟨g₁, hc, heq⟩ := h.catches hl1 hmem hr
  have hloop := hc.bumpLoop q stream n slot
  have hkept := bumpLoop_isSendQ g q stream n slot
  rw [heq, bumpLoop_withSendQ]
  rw [← hkept] at hsend
  generalize g'.dev.isSendQ = a at hsend
  generalize Guest.bumpLoop q stream n slot g₁ = r₁ at hloop
  generalize Guest.bumpLoop q stream n slot g = r at hloop hsend
  rcases hloop with rfl | ⟨rfl, -⟩
  · exact ⟨lags_of hsend (.inl rfl), rfl⟩
  · exact ⟨lags_of hsend (.inr rfl), rfl⟩

theorem Lags.wrSeen (h : Lags s' s) : s'.isSendWrSeen = s.isSendWrSeen := by
  rw [h.rest]

theorem Lags.see (h : Lags s' s) (seen : Nat → Nat) :
    Lags { s' with isSendWrSeen := seen } { s with isSendWrSeen := seen } := by
  obtain ⟨hrest, hsend, hrecv⟩ := h
  refine ⟨?_, hsend, hrecv⟩
  dsimp only
  rw [hrest]

theorem Lags.handleSendBump {g' g : Guest} (h : Lags g'.dev g.dev) (hl1 : g'.l1Pfn = g.l1Pfn)
    (hmem : g'.mem = g.mem) (hstream : stream < 8) (hr : Rereads g.dma g'.dev g.dev stream)
    (newWr : Nat) :
    Lags (g'.handleSendBump stream newWr).dev (g.handleSendBump stream newWr).dev ∧
      (g'.handleSendBump stream newWr).mem = (g.handleSendBump stream newWr).mem := by
  have hdma : g'.dma = g.dma := by
    unfold Guest.dma
    rw [hl1, hmem]
  obtain ⟨hq, hlag⟩ := h.getSendQueue hr hstream
  have hkept := getSendQueue_isRecvQ g.dma g.dev stream
  have hkept' := getSendQueue_isRecvQ g.dma g'.dev stream
  have hrecv := hr.recv
  rw [← hkept.1, ← hkept.2, ← hkept'.1] at hrecv
  unfold Guest.handleSendBump
  rw [hdma]
  generalize ipu4GetSendQueue g.dma g.dev stream = r at hq hlag hrecv
  generalize ipu4GetSendQueue g.dma g'.dev stream = r' at hq hlag hrecv
  obtain ⟨s, q⟩ := r
  obtain ⟨s', q'⟩ := r'
  dsimp only at hq hlag hrecv ⊢
  subst hq
  rw [hlag.wrSeen]
  have hsee := hlag.see (Function.update s.isSendWrSeen stream newWr)
  cases q' with
  | none => exact ⟨hsee, hmem⟩
  | some q =>
    dsimp only
    split
    · exact ⟨hsee, hmem⟩
    split
    · exact ⟨hlag, hmem⟩
    · refine Lags.bumpLoop ?_ ?_ ?_ ?_ q stream _ _
      · exact hsee
      · exact hl1
      · exact hmem
      · exact hrecv

theorem Lags.put (h : Lags s' s) (reg val : Nat) :
    Lags { s' with isDmem := Function.update s'.isDmem reg val }
      { s with isDmem := Function.update s.isDmem reg val } := by
  obtain ⟨hrest, hsend, hrecv⟩ := h
  have hdmem : s'.isDmem = s.isDmem := by
    rw [hrest]
  refine ⟨?_, hsend, hrecv⟩
  dsimp only
  rw [hdmem, hrest]

theorem Lags.dmemWrite {g' g : Guest} (h : Lags g'.dev g.dev) (hl1 : g'.l1Pfn = g.l1Pfn)
    (hmem : g'.mem = g.mem)
    (hr : ∀ stream < 8, reg = sendWrReg stream → Rereads g.dma g'.dev g.dev stream) (val : Nat) :
    Lags (g'.dmemWrite reg val).dev (g.dmemWrite reg val).dev ∧
      (g'.dmemWrite reg val).mem = (g.dmemWrite reg val).mem := by
  unfold Guest.dmemWrite SYSCOM_CONFIG_REG SYSCOM_STATE_REG IPU4_MAX_MSG_STREAMS
  dsimp only
  split
  next hcur =>
    obtain ⟨hlo, hhi, heven⟩ := hcur
    rw [if_neg (by omega), if_neg (by omega), if_neg (by omega), if_neg (by omega)]
    have hstream : (reg - 10) / 2 < 8 := by omega
    have hread := hr ((reg - 10) / 2) hstream (by unfold sendWrReg; omega)
    refine Lags.handleSendBump ?_ ?_ ?_ hstream ?_ val
    · exact h.put reg val
    · exact hl1
    · exact hmem
    · exact ⟨hread.send, hread.unseen, hread.recv⟩
  · refine ⟨?_, hmem⟩
    by_cases hcfg : reg = 1
    · subst hcfg
      simp only [if_true]
      refine Lags.put ?_ 1 val
      rw [h.rest]
      exact .refl _
    · simp only [if_neg hcfg]
      split
      · exact (h.see fun _ => 0).put reg val
      · exact h.put reg val

-- ---------------------------------------------------------------------------
-- Sequences of accesses
-- ---------------------------------------------------------------------------

/-- The device with other descriptors. -/
def Device.withCaches (d : Device) (a : Nat → Option SysQueue) (b : Option SysQueue) : Device :=
  { d with isSendQ := a, isRecvQ := b }

/-- `d'` is `d`, except that it may have yet to load some of the descriptors. -/
structure Behind (d' d : Device) : Prop where
  rest : d' = d.withCaches d'.isSendQ d'.isRecvQ
  lags : Lags d'.responder d.responder

theorem Device.behind_migrate (d : Device) : Behind d.migrate d :=
  ⟨rfl, rfl, fun _ => .inr rfl, .inr rfl⟩

/-- The write of a send cursor finds in memory what `d'` then has to load. -/
def Turn.Rereads (t : Turn) (d' d : Device) : Prop :=
  ∀ addr val stream, t.access = .write addr val → stream < 8 →
    decode addr = .dmem (sendWrReg stream) →
    Qemu.Rereads (memDma t.mem d.isMmuL1Pfn) d'.responder d.responder stream

theorem readReg_withCaches (clock : Nat) (r : Reg) (d : Device) (a : Nat → Option SysQueue)
    (b : Option SysQueue) :
    readReg clock (d.withCaches a b) r =
      ((readReg clock d r).1.withCaches a b, (readReg clock d r).2) := by
  cases r with
  | unispart r => cases r <;> rfl
  | _ => rfl

theorem writeReg_withCaches (val : Nat) (r : Reg) (d : Device) (a : Nat → Option SysQueue)
    (b : Option SysQueue) :
    writeReg (d.withCaches a b) val r = (writeReg d val r).withCaches a b := by
  cases r <;> rfl

theorem Behind.keeps (h : Behind d' d) (f : Device → Device)
    (hf : ∀ d a b, f (d.withCaches a b) = (f d).withCaches a b) : Behind (f d') (f d) := by
  have hself : f d = (f d).withCaches d.isSendQ d.isRecvQ := hf d d.isSendQ d.isRecvQ
  have hsend : (f d).isSendQ = d.isSendQ := by
    rw [hself]
    rfl
  have hrecv : (f d).isRecvQ = d.isRecvQ := by
    rw [hself]
    rfl
  have hlag := h.lags
  rw [h.rest, hf]
  refine ⟨rfl, rfl, fun stream => ?_, ?_⟩
  · show _ = (f d).isSendQ stream ∨ _
    rw [hsend]
    exact hlag.send stream
  · show _ = (f d).isRecvQ ∨ _
    rw [hrecv]
    exact hlag.recv

theorem Behind.after (h : Behind d' d) (hs : Lags s' s) : Behind (d'.after s') (d.after s) := by
  have hrest := h.rest
  refine ⟨?_, ?_⟩
  · rw [hrest, hs.rest]
    rfl
  · refine ⟨?_, hs.send, hs.recv⟩
    rw [hrest, hs.rest]
    rfl

theorem Behind.read (h : Behind d' d) (clock addr : Nat) :
    Behind (ipu4MmioRead clock d' addr).1 (ipu4MmioRead clock d addr).1 ∧
      (ipu4MmioRead clock d' addr).2 = (ipu4MmioRead clock d addr).2 := by
  unfold ipu4MmioRead
  cases decode addr with
  | reg r =>
    refine ⟨h.keeps (fun d => (readReg clock d r).1) fun d a b =>
      congrArg Prod.fst (readReg_withCaches clock r d a b), ?_⟩
    dsimp only
    rw [h.rest, readReg_withCaches]
  | dmem i | isMmu i | psMmu i | csi2 port off =>
    refine ⟨h, ?_⟩
    rw [h.rest]
    rfl
  | nowhere => exact ⟨h, rfl⟩

theorem Lags.posted (h : Lags s' s) : s'.posted = s.posted := by
  rw [h.rest]

theorem Behind.write (h : Behind d' d) (mem : Memory)
    (hr : ∀ stream < 8, decode addr = .dmem (sendWrReg stream) →
      Qemu.Rereads (memDma mem d.isMmuL1Pfn) d'.responder d.responder stream) (val : Nat) :
    Behind (ipu4MmioWrite mem d' addr val).1 (ipu4MmioWrite mem d addr val).1 ∧
      (ipu4MmioWrite mem d' addr val).2 = (ipu4MmioWrite mem d addr val).2 := by
  have hl1 : d'.isMmuL1Pfn = d.isMmuL1Pfn := by
    rw [h.rest]
    rfl
  have hcsi2 : d'.csi2 = d.csi2 := by
    rw [h.rest]
    rfl
  unfold ipu4MmioWrite
  cases hplace : decode addr with
  | reg r => exact ⟨h.keeps (writeReg · val r) (writeReg_withCaches val r), rfl⟩
  | dmem i =>
    let g' : Guest := ⟨d'.responder, d'.isMmuL1Pfn, mem⟩
    have hlags : Lags g'.dev d.responder := h.lags
    obtain ⟨hlag, hmem⟩ := Lags.dmemWrite (g := ⟨d.responder, d.isMmuL1Pfn, mem⟩) hlags hl1 rfl
      (fun stream hstream heq => hr stream hstream (heq ▸ hplace)) val
    refine ⟨h.after hlag, ?_⟩
    dsimp only
    rw [hmem, hlag.posted]
  | isMmu i =>
    exact ⟨h.keeps (fun d => { d with
      isMmuL1Pfn := if addr = IS_MMU_SUB0_REG_L1_PHYS then val else d.isMmuL1Pfn
      isMmu := Function.update d.isMmu i val }) fun _ _ _ => rfl, rfl⟩
  | psMmu i =>
    exact ⟨h.keeps (fun d => { d with psMmu := Function.update d.psMmu i val }) fun _ _ _ => rfl,
      rfl⟩
  | csi2 port off =>
    dsimp only
    rw [hcsi2]
    cases ipu4Csi2PortWrite (d.csi2 port) off val with
    | none => exact ⟨h, rfl⟩
    | some p =>
      have hport := h.keeps (fun d => { d with csi2 := Function.update d.csi2 port p })
        fun _ _ _ => rfl
      rw [hcsi2] at hport
      exact ⟨hport, rfl⟩
  | nowhere => exact ⟨h, rfl⟩

theorem Behind.access (h : Behind d' d) {t : Turn} (hr : t.Rereads d' d) :
    Behind (d'.next t) (d.next t) ∧ (d'.access t).2 = (d.access t).2 := by
  unfold Device.next Device.access
  cases hacc : t.access with
  | read addr =>
    obtain ⟨hnext, hval⟩ := h.read t.clock addr
    refine ⟨hnext, ?_⟩
    dsimp only
    rw [hval]
  | write addr val =>
    obtain ⟨hnext, heff⟩ := h.write t.mem (fun stream => hr addr val stream hacc) val
    refine ⟨hnext, ?_⟩
    dsimp only
    rw [heff]

/-- The saved device and the loaded one, both going on. -/
def bothNext (p : Device × Device) (t : Turn) : Device × Device := (p.1.next t, p.2.next t)

theorem Behind.seen (h : Behind d' d)
    (hr : ∀ x ∈ visited bothNext (d', d) ts, x.2.Rereads x.1.1 x.1.2) :
    d'.seen ts = d.seen ts := by
  induction ts generalizing d' d with
  | nil => rfl
  | cons t ts ih =>
    simp only [visited, List.forall_mem_cons] at hr
    obtain ⟨hnext, heq⟩ := h.access hr.1
    have htail := ih hnext hr.2
    unfold Device.seen visited
    rw [List.map_cons, List.map_cons, heq]
    exact congrArg _ htail

/-- Migration is transparent when each descriptor that the loaded device has to read
again is still in guest memory, and no cursor of its stream had been seen. -/
theorem migration_transparent (d : Device) (ts : List Turn)
    (hr : ∀ x ∈ visited bothNext (d.migrate, d) ts, x.2.Rereads x.1.1 x.1.2) :
    d.migrate.seen ts = d.seen ts :=
  d.behind_migrate.seen hr

-- ---------------------------------------------------------------------------
-- One queue
-- ---------------------------------------------------------------------------

/-- 32-bit words in guest memory. -/
def wordMemory (word : Nat → Nat) : Memory where
  byte := fun a => UInt8.ofNat (word (a / 4) / 256 ^ (a % 4))
  backed := fun _ => true

/-- A page table that maps each page of the first 4 MiB to itself; the configuration
at 0x3000; the descriptors of stream 0 and of the responses; and flush commands. -/
def flushWords (w : Nat) : Nat :=
  if w = 1024 then 2
  else if 2048 ≤ w ∧ w < 3072 then w - 2048
  else if 4096 ≤ w ∧ w < 4112 then if w % 4 = 3 then 5 else 0
  else ([(3075, 0x3040), (3076, 0x3200),
    (3106, 0x4000), (3107, 4), (3108, 16), (3109, 10), (3110, 11),
    (3210, 0x5000), (3211, 4), (3212, 64), (3213, 28), (3214, 29)].lookup w).getD 0

def writeTurn (mem : Memory) (addr val : Nat) : Turn := ⟨0, mem, .write addr val⟩

def flushMemory : Memory := wordMemory flushWords

/-- The address of the cursor of stream 0. -/
def cursorAddr : Nat := IS_DMEM_BASE + 4 * 10

/-- The device with the page table and the configuration of `flushMemory`. -/
def configured : Device :=
  [writeTurn flushMemory (IS_MMU_BASE + 4) 1, writeTurn flushMemory (IS_DMEM_BASE + 4) 0x3000].foldl
    Device.next Device.reset

/-- Nothing is pushed yet, but the descriptor of stream 0 is loaded. -/
def opened : Device := configured.next (writeTurn flushMemory cursorAddr 0)

/-- One command is pushed. -/
def pushedOne : Device × Seen := configured.access (writeTurn flushMemory cursorAddr 1)

def Device.Reached (d : Device) : Prop :=
  Reachable (· = Device.reset) (fun d t d' => d' = Device.next d t) d

theorem reached_foldl (ts : List Turn) (h : Device.Reached d) : (ts.foldl Device.next d).Reached := by
  induction ts generalizing d with
  | nil => exact h
  | cons t ts ih => exact ih (.step h rfl)

theorem opened_transparent :
    opened.Reached ∧ opened.isSendQ 0 ≠ none ∧
      opened.migrate.seen [writeTurn flushMemory cursorAddr 1] =
        opened.seen [writeTurn flushMemory cursorAddr 1] := by
  refine ⟨.step (reached_foldl _ (.init rfl)) rfl, by decide +kernel, migration_transparent _ _ ?_⟩
  intro x hx addr val stream hacc hstream hplace
  obtain rfl := List.mem_singleton.mp hx
  obtain ⟨rfl, rfl⟩ := Access.write.inj hacc
  have hzero : stream = 0 := by
    have hreg : Place.dmem 10 = .dmem (sendWrReg stream) := hplace
    have hinj := Place.dmem.inj hreg
    unfold sendWrReg at hinj
    omega
  subst hzero
  have hload : loadSendQueue (memDma flushMemory opened.isMmuL1Pfn) opened.syscomConfigIova 0 =
      opened.isSendQ 0 := by decide +kernel
  have hseen : opened.isSendWrSeen 0 = 0 := by decide +kernel
  have hrecv : opened.isRecvQ = none := by decide +kernel
  exact ⟨fun q hq _ => hload.trans hq, fun _ _ _ => hseen, fun q hq => by cases hrecv.symm.trans hq⟩

/-- After one command, the loaded device runs it again with the next. -/
theorem migration_runs_command_again :
    ¬ ∀ (d : Device) (ts : List Turn), d.Reached → d.migrate.seen ts = d.seen ts := by
  intro h
  have hsame := h pushedOne.1 [writeTurn pushedOne.2.effect.mem cursorAddr 2]
    (.step (reached_foldl _ (.init rfl)) rfl)
  have hcount := congrArg (List.map fun x : Seen => x.effect.posted.length) hsame
  revert hcount
  decide +kernel

end Ipu4.Qemu
