import Ipu4.FwCom.Tokens

/-!
# The interrupt handler loses no response

`ipu4_isys_isr` clears the status bits it read, serves the CSI-2 ports,
takes one response from the firmware and reads the status again. It is split
here at every access to the unispart registers and to the receive ring, and
runs against a firmware that writes a token, advances the write cursor and
then raises the SW bit. The device is powered and has a firmware context.

The handler clears SW bits it never read: after a handled token it sets
`status` to SW by itself. The invariant says why nothing is lost: whenever a
token waits in the ring, the SW bit is up, or the firmware is about to raise
it, or the handler is still on its way to look at the ring.
-/

namespace Ipu4.Isys.Isr

open FwCom
open Runs (Reachable Enabled)

-- ---------------------------------------------------------------------------
-- Registers
-- ---------------------------------------------------------------------------

/-- `IPU4_ISYS_UNISPART_IRQ_SW`, bit 30. -/
def irqSw : BitVec 32 := BitVec.twoPow 32 30

/-- `IPU4_ISYS_UNISPART_IRQ_CSI2(port)`: the first four ports start at bit 3,
the others at bit 11. -/
def irqCsi2 (port : Nat) : BitVec 32 :=
  if port < 4 then 0x8#32 <<< port else 0x800#32 <<< (port - 4)

/-- `isys->isr_csi2_bits`, collected by `isys_csi2_register_subdevices`. -/
def isrCsi2Bits (nports : Nat) : BitVec 32 :=
  (List.range nports).foldl (fun bits i => bits ||| irqCsi2 i) 0

/-- The C test `status & bits`. -/
def raised (status bits : BitVec 32) : Bool := status &&& bits != 0

-- ---------------------------------------------------------------------------
-- The handler and the firmware, one register access a step
-- ---------------------------------------------------------------------------

/-- Where `ipu4_isys_isr` is. `getWr` to `putWrite` are inside
`isys_isr_one`. -/
inductive Pc
  | out
  | clear (status : BitVec 32)
  | csi2 (status : BitVec 32)
  | swReg (status : BitVec 32)
  | getWr
  | getRd (wr : Nat)
  | body (rd : Nat)
  | putRead
  | putWrite (rd : Nat)
  | reread (status : BitVec 32)
  deriving DecidableEq

/-- Where the firmware is with one response. After `advanced` it raises the
SW bit. -/
inductive FwPc (τ : Type)
  | idle
  | ready
  | wrote (t : τ)
  | advanced

structure State (τ : Type) where
  ring : Ring τ
  irqStatus : BitVec 32
  swIrqReg : BitVec 32
  isr : Pc
  fw : FwPc τ
  /-- responses whose cursor advance is done -/
  posted : List τ
  /-- responses passed to the body of `isys_isr_one` -/
  handled : List τ
  /-- ports whose `ipu6_isys_csi2_isr` ran -/
  served : List Nat

inductive Ev (τ : Type)
  | enter | clear | csi2 | swReg | getWr | getRd | body | putRead | putWrite | reread
  | fwTest | fwWrite (t : τ) | fwAdvance | fwRaise | csiRaise (bits : BitVec 32)

/-- The loop body's test for a firmware event. -/
def afterSwReg (status : BitVec 32) : Pc :=
  if raised status irqSw then .getWr else .reread 0

/-- The loop condition after the status was read again. -/
def again (nports : Nat) (status : BitVec 32) : Pc :=
  if raised status (isrCsi2Bits nports ||| irqSw) then .clear status else .out

def step (q : SysQueue) (nports : Nat) (s : State τ) : Ev τ → Option (State τ)
  | .enter => match s.isr with
    | .out => some { s with isr := .clear s.irqStatus }
    | _ => none
  -- IRQ_CLEAR is write-one-to-clear
  | .clear => match s.isr with
    | .clear status => some { s with irqStatus := s.irqStatus &&& ~~~status, isr := .csi2 status }
    | _ => none
  | .csi2 => match s.isr with
    | .csi2 status =>
      let ports := if raised (isrCsi2Bits nports) status then
          (List.range nports).filter fun i => raised (irqCsi2 i) status
        else []
      some { s with served := s.served ++ ports, isr := .swReg status }
    | _ => none
  | .swReg => match s.isr with
    | .swReg status => some { s with swIrqReg := 0, isr := afterSwReg status }
    | _ => none
  -- isys_isr_one: a NULL token makes it return 1
  | .getWr => match s.isr with
    | .getWr => some { s with isr := .getRd s.ring.wr }
    | _ => none
  | .getRd => match s.isr with
    | .getRd wr =>
      if noToken (recvPackets q.size wr s.ring.rd) then some { s with isr := .reread 0 }
      else some { s with isr := .body s.ring.rd }
    | _ => none
  | .body => match s.isr with
    | .body rd => some { s with handled := s.handled ++ [s.ring.slots rd], isr := .putRead }
    | _ => none
  | .putRead => match s.isr with
    | .putRead => some { s with isr := .putWrite s.ring.rd }
    | _ => none
  | .putWrite => match s.isr with
    | .putWrite rd => some { s with ring := s.ring.setRd (putCursor q.size rd), isr := .reread irqSw }
    | _ => none
  | .reread => match s.isr with
    | .reread status => some { s with isr := again nports (status ||| s.irqStatus) }
    | _ => none
  | .fwTest => match s.fw with
    | .idle => if noToken (sendPackets q.size s.ring.wr s.ring.rd) then none
      else some { s with fw := .ready }
    | _ => none
  | .fwWrite t => match s.fw with
    | .ready => some { s with ring := s.ring.store s.ring.wr t, fw := .wrote t }
    | _ => none
  | .fwAdvance => match s.fw with
    | .wrote t => some { s with ring := s.ring.setWr ((s.ring.wr + 1) % q.size), fw := .advanced,
                                posted := s.posted ++ [t] }
    | _ => none
  | .fwRaise => match s.fw with
    | .advanced => some { s with irqStatus := s.irqStatus ||| irqSw, fw := .idle }
    | _ => none
  | .csiRaise bits => some { s with irqStatus := s.irqStatus ||| (bits &&& isrCsi2Bits nports) }

/-- An empty ring and a handler that is not running; any status bits may be
up. -/
def Init (q : SysQueue) (s : State τ) : Prop :=
  s.ring.wr = s.ring.rd ∧ s.ring.wr < q.size ∧ s.isr = .out ∧ s.fw = .idle ∧
    s.posted = [] ∧ s.handled = []

-- ---------------------------------------------------------------------------
-- The invariant
-- ---------------------------------------------------------------------------

theorem raised_irqSw : raised status irqSw = true ↔ status.getLsbD 30 = true := by
  unfold raised irqSw
  rw [BitVec.and_twoPow]
  cases status.getLsbD 30
  · simp
  · simp only [if_true, bne_iff_ne, ne_eq, iff_true]
    decide

theorem raised_or_left (h : raised a irqSw = true) : raised (a ||| b) irqSw = true := by
  simp only [raised_irqSw, BitVec.getLsbD_or, Bool.or_eq_true] at h ⊢
  exact .inl h

theorem raised_or_right (h : raised b irqSw = true) : raised (a ||| b) irqSw = true := by
  rw [BitVec.or_comm]
  exact raised_or_left h

theorem raised_clear (h : raised a irqSw = true) (hs : ¬ raised status irqSw = true) :
    raised (a &&& ~~~status) irqSw = true := by
  simp only [raised_irqSw, Bool.not_eq_true] at h hs ⊢
  rw [BitVec.getLsbD_and, BitVec.getLsbD_not, h, hs]
  rfl

theorem again_of_sw (h : raised status irqSw = true) : again nports status = .clear status := by
  have hbit := raised_irqSw.mp h
  have hsw : irqSw.getLsbD 30 = true := by decide
  have hr : raised status (isrCsi2Bits nports ||| irqSw) = true := by
    simp only [raised, bne_iff_ne, ne_eq]
    intro he
    have h30 := congrArg (·.getLsbD 30) he
    simp only [BitVec.getLsbD_and, BitVec.getLsbD_or, hbit, hsw, Bool.or_true, Bool.and_true] at h30
    exact absurd h30 (by decide)
  simp [again, hr]

/-- The handler will look at the ring before it returns. -/
def Pc.Looks (r : Ring τ) : Pc → Prop
  | .out => False
  | .clear status | .csi2 status | .swReg status | .reread status => raised status irqSw = true
  | .getRd wr => wr ≠ r.rd
  | .getWr | .body _ | .putRead | .putWrite _ => True

/-- Someone still answers for the token at the head of the ring. -/
def Signalled (s : State τ) : Prop :=
  raised s.irqStatus irqSw = true ∨ s.fw = .advanced ∨ s.isr.Looks s.ring

/-- What the handler knows about the ring while the firmware may push. -/
def Pc.Knows (size : Nat) (r : Ring τ) : Pc → Prop
  | .getRd wr => wr < size ∧ (wr ≠ r.rd → r.wr ≠ r.rd)
  | .body rd | .putWrite rd => rd = r.rd ∧ r.wr ≠ r.rd
  | .putRead => r.wr ≠ r.rd
  | _ => True

def FwPc.Knows (size : Nat) (r : Ring τ) : FwPc τ → Prop
  | .idle | .advanced => True
  | .ready => r.Room size
  | .wrote t => r.slots r.wr = t ∧ r.Room size

/-- Posted responses not yet passed to the body. Between the body and the
cursor write the head of the ring has been passed already. -/
def pending (size : Nat) (r : Ring τ) : Pc → List τ
  | .putRead | .putWrite _ => (r.contents size).tail
  | _ => r.contents size

structure Inv (q : SysQueue) (s : State τ) : Prop where
  ok : s.ring.Ok q.size
  order : s.posted = s.handled ++ pending q.size s.ring s.isr
  isr : s.isr.Knows q.size s.ring
  fw : s.fw.Knows q.size s.ring
  signal : s.ring.wr ≠ s.ring.rd → Signalled s

theorem Inv.init (h : Init q s) : Inv q s := by
  obtain ⟨heq, hlt, hisr, hfw, hp, hh⟩ := h
  have hok : s.ring.Ok q.size := ⟨hlt, heq ▸ hlt⟩
  refine ⟨hok, ?_, by simp [hisr, Pc.Knows], by simp [hfw, FwPc.Knows], fun hne => absurd heq hne⟩
  rw [hp, hh]
  simp [pending, hisr, (Ring.contents_eq_nil hok).mpr heq]

/-- `s'` is `s` but for where the handler is and what it served. -/
def SameButIsr (s s' : State τ) : Prop :=
  s'.ring = s.ring ∧ s'.irqStatus = s.irqStatus ∧ s'.fw = s.fw ∧ s'.posted = s.posted ∧
    s'.handled = s.handled

/-- A handler step that leaves the ring, the status and the firmware alone
only has to account for itself. -/
theorem Inv.silent (h : Inv q s) (hsame : SameButIsr s s')
    (hp : pending q.size s.ring s'.isr = pending q.size s.ring s.isr) (hk : s'.isr.Knows q.size s.ring)
    (hl : s.ring.wr ≠ s.ring.rd → s.isr.Looks s.ring ∨ raised s.irqStatus irqSw = true →
      raised s.irqStatus irqSw = true ∨ s'.isr.Looks s.ring) : Inv q s' := by
  obtain ⟨hr, hst, hf, hpo, hh⟩ := hsame
  refine ⟨by rw [hr]; exact h.ok, by rw [hr, hp, hpo, hh]; exact h.order, by rw [hr]; exact hk,
    by rw [hr, hf]; exact h.fw, fun hne => ?_⟩
  rw [hr] at hne
  unfold Signalled
  rw [hr, hst, hf]
  rcases h.signal hne with hsw | hadv | hlook
  · exact .inl hsw
  · exact .inr (.inl hadv)
  · rcases hl hne (.inl hlook) with hsw | hlook
    · exact .inl hsw
    · exact .inr (.inr hlook)

theorem Pc.Knows.store (h : Pc.Knows size r pc) : Pc.Knows size (r.store r.wr t) pc := by
  cases pc <;> exact h

theorem Pc.Looks.store (h : Pc.Looks r pc) : Pc.Looks (r.store i t) pc := by
  cases pc <;> exact h

theorem Pc.Knows.advanceWr (h : Pc.Knows size r pc) (ho : r.Ok size) (hroom : Ring.Room size r) :
    Pc.Knows size (r.setWr (Ring.next size r.wr)) pc := by
  cases pc with
  | getRd wr => exact ⟨h.1, fun hw => wr_ne_of_push ho hroom (h.2 hw)⟩
  | body rd => exact ⟨h.1, wr_ne_of_push ho hroom h.2⟩
  | putRead => exact wr_ne_of_push ho hroom h
  | putWrite rd => exact ⟨h.1, wr_ne_of_push ho hroom h.2⟩
  | _ => trivial

theorem FwPc.Knows.advanceRd (h : FwPc.Knows size r pc) (ho : r.Ok size) (hne : r.wr ≠ r.rd) :
    FwPc.Knows size (r.setRd (Ring.next size r.rd)) pc := by
  cases pc with
  | ready => exact Ring.Room.advanceRd h ho hne
  | wrote t => exact ⟨h.1, h.2.advanceRd ho hne⟩
  | _ => trivial

/-- A push appends to the pending responses: the ring is not empty when the
handler has already passed its head on. -/
theorem pending_push (hk : Pc.Knows size r pc) (ho : Ring.Ok size r)
    (hc : Ring.contents size r' = Ring.contents size r ++ [t]) :
    pending size r' pc = pending size r pc ++ [t] := by
  have hne (h : r.wr ≠ r.rd) : r.contents size ≠ [] :=
    fun he => h ((Ring.contents_eq_nil ho).mp he)
  cases pc with
  | putRead => rw [pending, hc, List.tail_append_of_ne_nil (hne hk), pending]
  | putWrite rd => rw [pending, hc, List.tail_append_of_ne_nil (hne hk.2), pending]
  | _ => exact hc

/-- The handler is not between the body and the cursor write. -/
def Pc.Between : Pc → Bool
  | .putRead | .putWrite _ => false
  | _ => true

theorem pending_eq (h : pc.Between = true) : pending size r pc = Ring.contents size r := by
  cases pc with
  | putRead => cases h
  | putWrite rd => cases h
  | _ => rfl

theorem afterSwReg_cases (status : BitVec 32) :
    (raised status irqSw = true ∧ afterSwReg status = .getWr) ∨
      (¬ raised status irqSw = true ∧ afterSwReg status = .reread 0) := by
  by_cases h : raised status irqSw = true
  · exact .inl ⟨h, by simp [afterSwReg, h]⟩
  · exact .inr ⟨h, by simp [afterSwReg, h]⟩

theorem again_cases (nports : Nat) (status : BitVec 32) :
    again nports status = .clear status ∨ again nports status = .out := by
  unfold again
  split
  · exact .inl rfl
  · exact .inr rfl

-- ---------------------------------------------------------------------------
-- One step
-- ---------------------------------------------------------------------------

theorem Inv.clear (h : Inv q s) (hpc : s.isr = .clear status) :
    Inv q { s with irqStatus := s.irqStatus &&& ~~~status, isr := .csi2 status } := by
  have hord := h.order
  rw [pending_eq (by rw [hpc]; rfl)] at hord
  refine ⟨h.ok, hord, trivial, h.fw, fun hne => ?_⟩
  by_cases hst : raised status irqSw = true
  · exact .inr (.inr hst)
  · rcases h.signal hne with hsw | hadv | hlook
    · exact .inl (raised_clear hsw hst)
    · exact .inr (.inl hadv)
    · rw [hpc] at hlook
      exact absurd hlook hst

theorem Inv.swReg (h : Inv q s) (hpc : s.isr = .swReg status) :
    Inv q { s with swIrqReg := 0, isr := afterSwReg status } := by
  rcases afterSwReg_cases status with ⟨hsw, hnext⟩ | ⟨hsw, hnext⟩ <;> rw [hnext]
  · exact h.silent ⟨rfl, rfl, rfl, rfl, rfl⟩ (by simp [pending, hpc]) trivial
      fun _ _ => .inr trivial
  · refine h.silent ⟨rfl, rfl, rfl, rfl, rfl⟩ (by simp [pending, hpc]) trivial fun _ hl => ?_
    rw [hpc] at hl
    exact .inl (hl.resolve_left hsw)

theorem Inv.getRd_null (hs : q.size < 2 ^ 32) (h : Inv q s) (hpc : s.isr = .getRd wr)
    (hnull : noToken (recvPackets q.size wr s.ring.rd) = true) :
    Inv q { s with isr := .reread 0 } := by
  have hknow := h.isr
  rw [hpc] at hknow
  refine h.silent ⟨rfl, rfl, rfl, rfl, rfl⟩ (by simp [pending, hpc]) trivial fun _ hl => ?_
  rw [hpc] at hl
  exact .inl (hl.resolve_left fun hne =>
    hne ((noToken_recvPackets hs hknow.1 h.ok.rd_lt).mp hnull))

theorem Inv.getRd_token (hs : q.size < 2 ^ 32) (h : Inv q s) (hpc : s.isr = .getRd wr)
    (htok : ¬ noToken (recvPackets q.size wr s.ring.rd) = true) :
    Inv q { s with isr := .body s.ring.rd } := by
  have hknow := h.isr
  rw [hpc] at hknow
  have hne := hknow.2 fun heq => htok ((noToken_recvPackets hs hknow.1 h.ok.rd_lt).mpr heq)
  exact h.silent ⟨rfl, rfl, rfl, rfl, rfl⟩ (by simp [pending, hpc]) ⟨rfl, hne⟩
    fun _ _ => .inr trivial

theorem Inv.body (h : Inv q s) (hpc : s.isr = .body rd) :
    Inv q { s with handled := s.handled ++ [s.ring.slots rd], isr := .putRead } := by
  have hknow := h.isr
  have hord := h.order
  rw [hpc] at hknow
  obtain ⟨rfl, hne⟩ := hknow
  rw [pending_eq (by rw [hpc]; rfl), Ring.contents_eq_cons h.ok hne] at hord
  refine ⟨h.ok, ?_, hne, h.fw, fun _ => .inr (.inr trivial)⟩
  simp only [pending, Ring.contents_eq_cons h.ok hne, List.tail_cons, hord, List.append_assoc,
    List.singleton_append]

theorem Inv.putWrite (hs : q.size < 2 ^ 32) (h : Inv q s) (hpc : s.isr = .putWrite rd) :
    Inv q { s with ring := s.ring.setRd (putCursor q.size rd), isr := .reread irqSw } := by
  have hknow := h.isr
  have hord := h.order
  rw [hpc] at hknow
  obtain ⟨rfl, hne⟩ := hknow
  rw [putCursor_eq_next hs h.ok.rd_lt]
  refine ⟨h.ok.advanceRd, ?_, trivial, h.fw.advanceRd h.ok hne, fun _ => .inr (.inr ?_)⟩
  · simp only [pending, hpc, Ring.contents_eq_cons h.ok hne, List.tail_cons] at hord
    exact hord
  · exact raised_irqSw.mpr (by decide)

theorem Inv.reread (h : Inv q s) (hpc : s.isr = .reread status) (nports : Nat) :
    Inv q { s with isr := again nports (status ||| s.irqStatus) } := by
  have hlook : s.isr.Looks s.ring ∨ raised s.irqStatus irqSw = true →
      (again nports (status ||| s.irqStatus)).Looks s.ring := by
    intro hl
    rw [hpc] at hl
    have hsw : raised (status ||| s.irqStatus) irqSw = true :=
      hl.elim raised_or_left raised_or_right
    rw [again_of_sw hsw]
    exact hsw
  rcases again_cases nports (status ||| s.irqStatus) with hnext | hnext <;>
    rw [hnext] at hlook ⊢ <;>
    exact h.silent ⟨rfl, rfl, rfl, rfl, rfl⟩ (by simp [pending, hpc]) trivial
      fun _ hl => .inr (hlook hl)

/-- While the firmware is not between the cursor and the SW bit, the bit or the
handler answers for the head of the ring. -/
theorem Inv.answered (h : Inv q s) (hfw : s.fw ≠ .advanced) (hne : s.ring.wr ≠ s.ring.rd) :
    raised s.irqStatus irqSw = true ∨ s.isr.Looks s.ring := by
  rcases h.signal hne with hsw | hadv | hlook
  · exact .inl hsw
  · exact absurd hadv hfw
  · exact .inr hlook

theorem Inv.fwTest (h : Inv q s) (hfw : s.fw = .idle)
    (htok : ¬ noToken (sendPackets q.size s.ring.wr s.ring.rd) = true) :
    Inv q { s with fw := .ready } := by
  refine ⟨h.ok, h.order, h.isr, room_of_token h.ok htok, fun hne => ?_⟩
  exact (h.answered (by simp [hfw]) hne).imp id .inr

theorem Inv.fwWrite {s : State τ} (h : Inv q s) (hfw : s.fw = .ready) (t : τ) :
    Inv q { s with ring := s.ring.store s.ring.wr t, fw := .wrote t } := by
  have hroom := h.fw
  rw [hfw] at hroom
  refine ⟨h.ok.store, ?_, h.isr.store, ⟨by simp, hroom⟩, fun hne => ?_⟩
  · rw [h.order]
    simp only [pending, Ring.contents_store_wr h.ok]
  · exact (h.answered (by simp [hfw]) hne).imp id fun hlook => .inr hlook.store

theorem Inv.fwAdvance (h : Inv q s) (hfw : s.fw = .wrote t) :
    Inv q { s with ring := s.ring.setWr ((s.ring.wr + 1) % q.size), fw := .advanced,
                   posted := s.posted ++ [t] } := by
  have hroom := h.fw
  rw [hfw] at hroom
  obtain ⟨hslot, hroom⟩ := hroom
  rw [← Ring.next_eq_mod h.ok.wr_lt]
  have hpush : (s.ring.setWr (Ring.next q.size s.ring.wr)).contents q.size =
      s.ring.contents q.size ++ [t] := by
    rw [Ring.contents_advance_wr h.ok hroom, hslot]
  refine ⟨h.ok.advanceWr, ?_, h.isr.advanceWr h.ok hroom, trivial, fun _ => .inr (.inl rfl)⟩
  rw [pending_push h.isr h.ok hpush, h.order, List.append_assoc]

theorem Inv.csiRaise (h : Inv q s) (bits : BitVec 32) :
    Inv q { s with irqStatus := s.irqStatus ||| bits } := by
  refine ⟨h.ok, h.order, h.isr, h.fw, fun hne => ?_⟩
  rcases h.signal hne with hsw | hadv | hlook
  · exact .inl (raised_or_left hsw)
  · exact .inr (.inl hadv)
  · exact .inr (.inr hlook)

theorem Inv.step (hs : q.size < 2 ^ 32) (h : Inv q s) (he : step q nports s ev = some s') :
    Inv q s' := by
  cases ev <;> simp only [Isr.step] at he
  case enter =>
    split at he <;> cases he
    rename_i hpc
    refine h.silent ⟨rfl, rfl, rfl, rfl, rfl⟩ (by simp [pending, hpc]) trivial fun _ hl => ?_
    rw [hpc] at hl
    exact .inl (hl.resolve_left id)
  case clear =>
    split at he <;> cases he
    exact h.clear ‹_›
  case csi2 =>
    split at he <;> cases he
    rename_i status hpc
    refine h.silent ⟨rfl, rfl, rfl, rfl, rfl⟩ (by simp [pending, hpc]) trivial fun _ hl => ?_
    rw [hpc] at hl
    exact hl.symm
  case swReg =>
    split at he <;> cases he
    exact h.swReg ‹_›
  case getWr =>
    split at he <;> cases he
    rename_i hpc
    exact h.silent ⟨rfl, rfl, rfl, rfl, rfl⟩ (by simp [pending, hpc]) ⟨h.ok.wr_lt, id⟩
      fun hne _ => .inr hne
  case getRd =>
    split at he
    · split at he <;> cases he
      · exact h.getRd_null hs ‹_› ‹_›
      · exact h.getRd_token hs ‹_› ‹_›
    · cases he
  case body =>
    split at he <;> cases he
    exact h.body ‹_›
  case putRead =>
    split at he <;> cases he
    rename_i hpc
    have hknow := h.isr
    rw [hpc] at hknow
    exact h.silent ⟨rfl, rfl, rfl, rfl, rfl⟩ (by simp [pending, hpc]) ⟨rfl, hknow⟩
      fun _ _ => .inr trivial
  case putWrite =>
    split at he <;> cases he
    exact h.putWrite hs ‹_›
  case reread =>
    split at he <;> cases he
    exact h.reread ‹_› nports
  case fwTest =>
    split at he
    · split at he <;> cases he
      exact h.fwTest ‹_› ‹_›
    · cases he
  case fwWrite t =>
    split at he <;> cases he
    exact h.fwWrite ‹_› t
  case fwAdvance =>
    split at he <;> cases he
    exact h.fwAdvance ‹_›
  case fwRaise =>
    split at he <;> cases he
    exact ⟨h.ok, h.order, h.isr, trivial, fun _ => .inl (raised_or_right (by decide))⟩
  case csiRaise bits =>
    cases he
    exact h.csiRaise _

-- ---------------------------------------------------------------------------
-- No response is lost
-- ---------------------------------------------------------------------------

/-- Responses reach the body once each and in ring order. -/
def InOrder (q : SysQueue) (s : State τ) : Prop :=
  s.posted = s.handled ++ pending q.size s.ring s.isr

/-- The handler was running and has just returned. -/
def Returns (q : SysQueue) (nports : Nat) (s s' : State τ) : Prop :=
  step q nports s .reread = some s' ∧ s'.isr = .out

/-- Every response is passed on once and in order. When the handler
returns, the ring is empty, or the SW bit is up, or the firmware stands
between its cursor advance and raising the bit; so once the firmware is
idle and the bit is down, every posted response has been handled. -/
theorem isr_loses_nothing {τ : Type} (q : SysQueue) (nports : Nat) (hs : q.size < 2 ^ 32)
    (s : State τ) (hr : Reachable (Init q) (Enabled (step q nports)) s) :
    InOrder q s ∧
    (∀ s', Returns q nports s s' →
      s'.ring.contents q.size = [] ∨ raised s'.irqStatus irqSw = true ∨ s'.fw = .advanced) ∧
    (s.isr = .out → s.fw ≠ .advanced → raised s.irqStatus irqSw = false →
      s.posted = s.handled) := by
  have hinv (s : State τ) (hr : Reachable (Init q) (Enabled (step q nports)) s) : Inv q s :=
    hr.invariant (fun _ => Inv.init) fun _ _ _ h he => h.step hs he
  -- outside the handler nobody but the bit or the firmware answers for a token
  have hout (s : State τ) (h : Inv q s) (hpc : s.isr = .out) :
      s.ring.contents q.size = [] ∨ raised s.irqStatus irqSw = true ∨ s.fw = .advanced := by
    by_cases heq : s.ring.wr = s.ring.rd
    · exact .inl ((Ring.contents_eq_nil h.ok).mpr heq)
    · rcases h.signal heq with hsw | hadv | hlook
      · exact .inr (.inl hsw)
      · exact .inr (.inr hadv)
      · rw [hpc] at hlook
        exact hlook.elim
  refine ⟨(hinv s hr).order, fun s' hret => hout s' (hinv s' (.step hr hret.1)) hret.2, ?_⟩
  intro hpc hfw hsw
  have hord := (hinv s hr).order
  rw [pending_eq (by rw [hpc]; rfl)] at hord
  rcases hout s (hinv s hr) hpc with hnil | hup | hadv
  · rw [hord, hnil, List.append_nil]
  · rw [hup] at hsw
    cases hsw
  · exact absurd hadv hfw

/-- The receive queue of the driver: 40 tokens of 64 bytes. -/
def recvQueue : SysQueue := (ipu6SysQueueInit 40 64 ⟨0, 0, 28⟩).1

def State.quiet (t : τ) : State τ :=
  { ring := ⟨fun _ => t, 0, 0⟩, irqStatus := 0, swIrqReg := 0, isr := .out, fw := .idle,
    posted := [], handled := [], served := [] }

theorem quiet_reachable : Reachable (Init recvQueue) (Enabled (step recvQueue 6)) (State.quiet 0) :=
  .init ⟨rfl, by decide, rfl, rfl, rfl, rfl⟩

/-- A response that arrives while the handler runs: posted, signalled,
handled. -/
theorem isr_loses_nothing_one_response :
    ∃ s : State Nat, s.handled = [7] ∧ InOrder recvQueue s :=
  ⟨_, rfl, (isr_loses_nothing recvQueue 6 (by decide) _
    (Runs.reachable_of_replay quiet_reachable
      [.fwTest, .fwWrite 7, .fwAdvance, .fwRaise, .enter, .clear, .csi2, .swReg, .getWr, .getRd,
        .body, .putRead, .putWrite, .reread] rfl)).1⟩

/-- The handler may return with a token in the ring and the SW bit down:
the firmware advances its cursor after the handler's last look at the ring
and raises the bit only after the handler's last read of the status. -/
theorem isr_returns_before_signal :
    ¬ ∀ s s' : State Nat, Reachable (Init recvQueue) (Enabled (step recvQueue 6)) s →
      Returns recvQueue 6 s s' →
      s'.ring.contents recvQueue.size = [] ∨ raised s'.irqStatus irqSw = true := by
  intro h
  have hreach := Runs.reachable_of_replay quiet_reachable
    [.enter, .clear, .csi2, .swReg, .fwTest, .fwWrite 7, .fwAdvance] rfl
  have hbad := h _ _ hreach ⟨rfl, rfl⟩
  revert hbad
  decide

end Ipu4.Isys.Isr
