import Mathlib.Algebra.Group.Int.Defs
import Mathlib.Algebra.GroupWithZero.Nat
import Ipu4.Lib.Ring
import Ipu4.Lib.Runs

/-!
# Token queues between the host and the firmware

The fw-com layer keeps each queue as an array of tokens in system RAM and
its two cursors in DMEM. The host functions of `ipu6-fw-com.c` are split
here at every register access, so that the firmware may move between any two
of them. The firmware takes the other end of the same queue: it consumes what
the host sends and produces what the host receives.
-/

namespace Ipu4.FwCom

open Runs (Reachable Enabled)

-- ---------------------------------------------------------------------------
-- Queue descriptors
-- ---------------------------------------------------------------------------

/-- `struct ipu6_fw_sys_queue`. -/
structure SysQueue where
  hostAddress : Nat
  viedAddress : Nat
  size : Nat
  tokenSize : Nat
  wrReg : Nat
  rdReg : Nat
  deriving DecidableEq, Repr

/-- `struct ipu6_fw_sys_queue_res`: what is left of the shared buffer and of
the cursor registers. -/
structure SysQueueRes where
  hostAddress : Nat
  viedAddress : Nat
  reg : Nat
  deriving DecidableEq, Repr

/-- One slot more than the queue holds tokens: a full ring is told from an
empty one by the slot that stays free. -/
def ipu6SysQueueInit (size tokenSize : Nat) (res : SysQueueRes) : SysQueue × SysQueueRes :=
  let bufSize := (size + 1) * tokenSize % 2 ^ 32
  ({ hostAddress := res.hostAddress, viedAddress := res.viedAddress,
     size := (size + 1) % 2 ^ 32, tokenSize := tokenSize,
     wrReg := res.reg, rdReg := res.reg + 1 },
   { hostAddress := res.hostAddress + bufSize,
     viedAddress := (res.viedAddress + bufSize) % 2 ^ 32, reg := res.reg + 2 })

theorem ipu6SysQueueInit_size (h : n + 1 < 2 ^ 32) :
    (ipu6SysQueueInit n tokenSize res).1.size = n + 1 :=
  Nat.mod_eq_of_lt h

-- ---------------------------------------------------------------------------
-- What the host computes from the cursors it read
-- ---------------------------------------------------------------------------

/-- Free slots as `ipu6_send_get_token` counts them; `none` is its
`WARN_ON_ONCE` exit. -/
def sendPackets (size wr rd : Nat) : Option Nat :=
  if size ≤ wr ∨ size ≤ rd then none
  else if wr < rd then some (rd - wr - 1)
  else some (size - (wr - rd + 1))

/-- Tokens to read as `ipu6_recv_get_token` counts them, in 32-bit
arithmetic. -/
def recvPackets (size wr rd : Nat) : Option Nat :=
  if size ≤ wr ∨ size ≤ rd then none
  else
    let wr := if wr < rd then (wr + size) % 2 ^ 32 else wr
    some ((wr + 2 ^ 32 - rd) % 2 ^ 32)

/-- The token functions return NULL on the warning and on no packet. -/
def noToken : Option Nat → Bool
  | none => true
  | some packets => packets == 0

/-- The cursor value both put functions write after reading `cur`. -/
def putCursor (size cur : Nat) : Nat :=
  let cur := (cur + 1) % 2 ^ 32
  if size ≤ cur then 0 else cur

theorem noToken_sendPackets (hw : wr < size) (hr : rd < size) :
    noToken (sendPackets size wr rd) = true ↔ Ring.count size wr rd + 1 = size := by
  have hok : ¬ (size ≤ wr ∨ size ≤ rd) := by omega
  unfold sendPackets Ring.count
  simp only [hok, if_false]
  split <;> simp only [noToken, beq_iff_eq] <;> omega

theorem room_of_token {r : Ring τ} (ho : r.Ok size)
    (h : ¬ noToken (sendPackets size r.wr r.rd) = true) : r.Room size := by
  rw [noToken_sendPackets ho.wr_lt ho.rd_lt] at h
  have hlt := Ring.count_lt ho
  unfold Ring.Room
  omega

theorem noToken_recvPackets (hs : size < 2 ^ 32) (hw : wr < size) (hr : rd < size) :
    noToken (recvPackets size wr rd) = true ↔ wr = rd := by
  have hok : ¬ (size ≤ wr ∨ size ≤ rd) := by omega
  unfold recvPackets
  simp only [hok, if_false, noToken, beq_iff_eq]
  split <;> omega

theorem putCursor_eq_next (hs : size < 2 ^ 32) (h : cur < size) :
    putCursor size cur = Ring.next size cur := by
  unfold putCursor Ring.next
  rw [Nat.mod_eq_of_lt (by omega)]

-- ---------------------------------------------------------------------------
-- Sending
-- ---------------------------------------------------------------------------

/-- Where the host is between `ipu6_send_get_token`, writing the token and
`ipu6_send_put_token`. -/
inductive SendPc (τ : Type)
  | idle
  | getRd (wr : Nat)
  | getIndex
  | fill (index : Nat)
  | putRead (t : τ)
  | putWrite (wr : Nat) (t : τ)

/-- A send queue. `fw` is the token the firmware has read and not yet
retired; `sent` and `received` record the finished puts and retirements. -/
structure SendChan (τ : Type) where
  ring : Ring τ
  host : SendPc τ
  fw : Option τ
  sent : List τ
  received : List τ

inductive SendEv (τ : Type)
  | readWr | readRd | readIndex | fill (t : τ) | putReadWr | putWriteWr
  | fwRead | fwAdvance

def sendStep (q : SysQueue) (s : SendChan τ) : SendEv τ → Option (SendChan τ)
  -- ipu6_send_get_token: wr, rd, and wr again for the index
  | .readWr => match s.host with
    | .idle => some { s with host := .getRd s.ring.wr }
    | _ => none
  | .readRd => match s.host with
    | .getRd wr =>
      if noToken (sendPackets q.size wr s.ring.rd) then some { s with host := .idle }
      else some { s with host := .getIndex }
    | _ => none
  | .readIndex => match s.host with
    | .getIndex => some { s with host := .fill s.ring.wr }
    | _ => none
  -- the caller fills the token it was given
  | .fill t => match s.host with
    | .fill index => some { s with ring := s.ring.store index t, host := .putRead t }
    | _ => none
  -- ipu6_send_put_token
  | .putReadWr => match s.host with
    | .putRead t => some { s with host := .putWrite s.ring.wr t }
    | _ => none
  | .putWriteWr => match s.host with
    | .putWrite wr t =>
      some { s with ring := s.ring.setWr (putCursor q.size wr), host := .idle, sent := s.sent ++ [t] }
    | _ => none
  -- the firmware reads the token at rd, then advances rd
  | .fwRead =>
    if s.fw.isNone ∧ s.ring.wr ≠ s.ring.rd then some { s with fw := some (s.ring.slots s.ring.rd) }
    else none
  | .fwAdvance => match s.fw with
    | some t =>
      some { s with ring := s.ring.setRd ((s.ring.rd + 1) % q.size), fw := none,
                    received := s.received ++ [t] }
    | none => none

/-- Both cursors equal and below the size, nothing in flight. -/
def SendInit (q : SysQueue) (s : SendChan τ) : Prop :=
  s.ring.wr = s.ring.rd ∧ s.ring.wr < q.size ∧ s.host = .idle ∧ s.fw = none ∧
    s.sent = [] ∧ s.received = []

/-- Outstanding: put by the producer, not yet retired by the consumer. -/
def SendChan.outstanding (s : SendChan τ) : Nat := s.sent.length - s.received.length

/-- What the host knows at each point, stable under the firmware's moves. -/
def SendPc.Knows (size : Nat) (r : Ring τ) : SendPc τ → Prop
  | .idle => True
  | .getRd wr => wr = r.wr
  | .getIndex => r.Room size
  | .fill index => index = r.wr ∧ r.Room size
  | .putRead t => r.slots r.wr = t ∧ r.Room size
  | .putWrite wr t => wr = r.wr ∧ r.slots r.wr = t ∧ r.Room size

structure SendInv (q : SysQueue) (s : SendChan τ) : Prop where
  ok : s.ring.Ok q.size
  fifo : s.sent = s.received ++ s.ring.contents q.size
  host : s.host.Knows q.size s.ring
  fw : ∀ t, s.fw = some t → s.ring.Front t

theorem SendInv.init (h : SendInit q s) : SendInv q s := by
  obtain ⟨heq, hlt, hh, hf, hs, hr⟩ := h
  have hok : s.ring.Ok q.size := ⟨hlt, heq ▸ hlt⟩
  refine ⟨hok, ?_, by simp [hh, SendPc.Knows], by simp [hf]⟩
  rw [hs, hr, (Ring.contents_eq_nil hok).mpr heq]
  rfl

theorem SendPc.Knows.advanceRd (h : SendPc.Knows size r pc) (ho : r.Ok size)
    (hne : r.wr ≠ r.rd) : SendPc.Knows size (r.setRd (Ring.next size r.rd)) pc := by
  cases pc with
  | idle => trivial
  | getRd wr => exact h
  | getIndex => exact Ring.Room.advanceRd h ho hne
  | fill index => exact ⟨h.1, h.2.advanceRd ho hne⟩
  | putRead t => exact ⟨h.1, h.2.advanceRd ho hne⟩
  | putWrite wr t => exact ⟨h.1, h.2.1, h.2.2.advanceRd ho hne⟩

theorem SendInv.step (hs : q.size < 2 ^ 32) (h : SendInv q s) (he : sendStep q s ev = some s') :
    SendInv q s' := by
  obtain ⟨hok, hfifo, hhost, hfw⟩ := h
  cases ev with
  | readWr =>
    simp only [sendStep] at he
    split at he <;> cases he
    exact ⟨hok, hfifo, rfl, hfw⟩
  | readRd =>
    simp only [sendStep] at he
    split at he
    · rename_i wr hpc
      rw [hpc] at hhost
      obtain rfl : wr = s.ring.wr := hhost
      split at he <;> cases he
      · exact ⟨hok, hfifo, trivial, hfw⟩
      · rename_i hnt
        exact ⟨hok, hfifo, room_of_token hok hnt, hfw⟩
    · cases he
  | readIndex =>
    simp only [sendStep] at he
    split at he <;> cases he
    rename_i hpc
    rw [hpc] at hhost
    exact ⟨hok, hfifo, ⟨rfl, hhost⟩, hfw⟩
  | fill t =>
    simp only [sendStep] at he
    split at he <;> cases he
    rename_i index hpc
    rw [hpc] at hhost
    obtain ⟨rfl, hroom⟩ := hhost
    refine ⟨hok.store, ?_, ⟨by simp, hroom⟩, fun u hu => (hfw u hu).store⟩
    rw [Ring.contents_store_wr hok]
    exact hfifo
  | putReadWr =>
    simp only [sendStep] at he
    split at he <;> cases he
    rename_i t hpc
    rw [hpc] at hhost
    exact ⟨hok, hfifo, ⟨rfl, hhost⟩, hfw⟩
  | putWriteWr =>
    simp only [sendStep] at he
    split at he <;> cases he
    rename_i wr t hpc
    rw [hpc] at hhost
    obtain ⟨rfl, hslot, hroom⟩ := hhost
    rw [putCursor_eq_next hs hok.wr_lt]
    refine ⟨hok.advanceWr, ?_, trivial, fun u hu => (hfw u hu).advanceWr hok hroom⟩
    rw [Ring.contents_advance_wr hok hroom, hslot, hfifo, List.append_assoc]
  | fwRead =>
    simp only [sendStep] at he
    split at he <;> cases he
    rename_i hg
    refine ⟨hok, hfifo, hhost, fun u hu => ⟨hg.2, Option.some.inj hu⟩⟩
  | fwAdvance =>
    simp only [sendStep] at he
    split at he <;> cases he
    rename_i t ht
    have hfront := hfw t ht
    rw [← Ring.next_eq_mod hok.rd_lt]
    refine ⟨hok.advanceRd, ?_, hhost.advanceRd hok hfront.1, by simp⟩
    rw [hfifo, hfront.contents hok, List.append_assoc, List.singleton_append]

-- ---------------------------------------------------------------------------
-- Receiving
-- ---------------------------------------------------------------------------

/-- Where the host is between `ipu6_recv_get_token`, reading the token and
`ipu6_recv_put_token`. `getRd` also remembers how many tokens were
outstanding when `wr` was read: that moment decides the call. -/
inductive RecvPc (τ : Type)
  | idle
  | getRd (wr outstanding : Nat)
  | take (rd : Nat)
  | putRead (t : τ)
  | putWrite (rd : Nat) (t : τ)

/-- The firmware's end: it tests for a free slot, writes the token there and
then advances `wr`. -/
inductive FwPc (τ : Type)
  | idle
  | ready
  | wrote (t : τ)

structure RecvChan (τ : Type) where
  ring : Ring τ
  host : RecvPc τ
  fw : FwPc τ
  sent : List τ
  received : List τ

inductive RecvEv (τ : Type)
  | readWr | readRd | take | putReadRd | putWriteRd
  | fwTest | fwWrite (t : τ) | fwAdvance

def RecvChan.outstanding (s : RecvChan τ) : Nat := s.sent.length - s.received.length

def recvStep (q : SysQueue) (s : RecvChan τ) : RecvEv τ → Option (RecvChan τ)
  -- ipu6_recv_get_token
  | .readWr => match s.host with
    | .idle => some { s with host := .getRd s.ring.wr s.outstanding }
    | _ => none
  | .readRd => match s.host with
    | .getRd wr _ =>
      if noToken (recvPackets q.size wr s.ring.rd) then some { s with host := .idle }
      else some { s with host := .take s.ring.rd }
    | _ => none
  -- the caller reads the token it was given
  | .take => match s.host with
    | .take rd => some { s with host := .putRead (s.ring.slots rd) }
    | _ => none
  -- ipu6_recv_put_token
  | .putReadRd => match s.host with
    | .putRead t => some { s with host := .putWrite s.ring.rd t }
    | _ => none
  | .putWriteRd => match s.host with
    | .putWrite rd t =>
      some { s with ring := s.ring.setRd (putCursor q.size rd), host := .idle,
                    received := s.received ++ [t] }
    | _ => none
  | .fwTest => match s.fw with
    | .idle => if noToken (sendPackets q.size s.ring.wr s.ring.rd) then none
      else some { s with fw := .ready }
    | _ => none
  | .fwWrite t => match s.fw with
    | .ready => some { s with ring := s.ring.store s.ring.wr t, fw := .wrote t }
    | _ => none
  | .fwAdvance => match s.fw with
    | .wrote t =>
      some { s with ring := s.ring.setWr ((s.ring.wr + 1) % q.size), fw := .idle,
                    sent := s.sent ++ [t] }
    | _ => none

def RecvInit (q : SysQueue) (s : RecvChan τ) : Prop :=
  s.ring.wr = s.ring.rd ∧ s.ring.wr < q.size ∧ s.host = .idle ∧ s.fw = .idle ∧
    s.sent = [] ∧ s.received = []

/-- What the firmware knows: a free slot, then the token in it. -/
def FwPc.Knows (size : Nat) (r : Ring τ) : FwPc τ → Prop
  | .idle => True
  | .ready => r.Room size
  | .wrote t => r.slots r.wr = t ∧ r.Room size

/-- What the host knows. A `wr` read while the ring was empty may be out of
date, a token once seen stays. -/
def RecvPc.Knows (size : Nat) (r : Ring τ) : RecvPc τ → Prop
  | .idle => True
  | .getRd wr outstanding =>
    wr < size ∧ (wr = r.rd ↔ outstanding = 0) ∧ (wr ≠ r.rd → r.wr ≠ r.rd)
  | .take rd => rd = r.rd ∧ r.wr ≠ r.rd
  | .putRead t => r.Front t
  | .putWrite rd t => rd = r.rd ∧ r.Front t

structure RecvInv (q : SysQueue) (s : RecvChan τ) : Prop where
  ok : s.ring.Ok q.size
  fifo : s.sent = s.received ++ s.ring.contents q.size
  host : s.host.Knows q.size s.ring
  fw : s.fw.Knows q.size s.ring

theorem RecvInv.init (h : RecvInit q s) : RecvInv q s := by
  obtain ⟨heq, hlt, hh, hf, hs, hr⟩ := h
  have hok : s.ring.Ok q.size := ⟨hlt, heq ▸ hlt⟩
  refine ⟨hok, ?_, by simp [hh, RecvPc.Knows], by simp [hf, FwPc.Knows]⟩
  rw [hs, hr, (Ring.contents_eq_nil hok).mpr heq]
  rfl

theorem RecvInv.outstanding (h : RecvInv q s) :
    s.outstanding = Ring.count q.size s.ring.wr s.ring.rd := by
  simp [RecvChan.outstanding, h.fifo]

theorem FwPc.Knows.advanceRd (h : FwPc.Knows size r pc) (ho : r.Ok size) (hne : r.wr ≠ r.rd) :
    FwPc.Knows size (r.setRd (Ring.next size r.rd)) pc := by
  cases pc with
  | idle => trivial
  | ready => exact Ring.Room.advanceRd h ho hne
  | wrote t => exact ⟨h.1, h.2.advanceRd ho hne⟩

theorem RecvPc.Knows.store (h : RecvPc.Knows size r pc) :
    RecvPc.Knows size (r.store r.wr t) pc := by
  cases pc with
  | idle => trivial
  | getRd wr outstanding => exact h
  | take rd => exact h
  | putRead t => exact Ring.Front.store h
  | putWrite rd t => exact ⟨h.1, h.2.store⟩

theorem wr_ne_of_push (ho : r.Ok size) (hroom : Ring.Room size r) (hne : r.wr ≠ r.rd) :
    Ring.next size r.wr ≠ r.rd :=
  (Ring.Front.advanceWr (t := r.slots r.rd) ⟨hne, rfl⟩ ho hroom).1

theorem RecvPc.Knows.advanceWr (h : RecvPc.Knows size r pc) (ho : r.Ok size)
    (hroom : Ring.Room size r) : RecvPc.Knows size (r.setWr (Ring.next size r.wr)) pc := by
  cases pc with
  | idle => trivial
  | getRd wr outstanding =>
    obtain ⟨hlt, hz, hne⟩ := h
    exact ⟨hlt, hz, fun hw => wr_ne_of_push ho hroom (hne hw)⟩
  | take rd => exact ⟨h.1, wr_ne_of_push ho hroom h.2⟩
  | putRead t => exact Ring.Front.advanceWr h ho hroom
  | putWrite rd t => exact ⟨h.1, h.2.advanceWr ho hroom⟩

theorem RecvInv.step (hs : q.size < 2 ^ 32) (h : RecvInv q s) (he : recvStep q s ev = some s') :
    RecvInv q s' := by
  have hout := h.outstanding
  obtain ⟨hok, hfifo, hhost, hfw⟩ := h
  cases ev with
  | readWr =>
    simp only [recvStep] at he
    split at he <;> cases he
    refine ⟨hok, hfifo, ⟨hok.wr_lt, ?_, id⟩, hfw⟩
    rw [hout, Ring.count_eq_zero hok]
  | readRd =>
    simp only [recvStep] at he
    split at he
    · rename_i wr outstanding hpc
      rw [hpc] at hhost
      obtain ⟨hlt, -, hne⟩ := hhost
      split at he <;> cases he
      · exact ⟨hok, hfifo, trivial, hfw⟩
      · rename_i hnt
        rw [noToken_recvPackets hs hlt hok.rd_lt] at hnt
        exact ⟨hok, hfifo, ⟨rfl, hne hnt⟩, hfw⟩
    · cases he
  | take =>
    simp only [recvStep] at he
    split at he <;> cases he
    rename_i rd hpc
    rw [hpc] at hhost
    obtain ⟨rfl, hne⟩ := hhost
    exact ⟨hok, hfifo, ⟨hne, rfl⟩, hfw⟩
  | putReadRd =>
    simp only [recvStep] at he
    split at he <;> cases he
    rename_i t hpc
    rw [hpc] at hhost
    exact ⟨hok, hfifo, ⟨rfl, hhost⟩, hfw⟩
  | putWriteRd =>
    simp only [recvStep] at he
    split at he <;> cases he
    rename_i rd t hpc
    rw [hpc] at hhost
    obtain ⟨rfl, hfront⟩ := hhost
    rw [putCursor_eq_next hs hok.rd_lt]
    refine ⟨hok.advanceRd, ?_, trivial, hfw.advanceRd hok hfront.1⟩
    rw [hfifo, hfront.contents hok, List.append_assoc, List.singleton_append]
  | fwTest =>
    simp only [recvStep] at he
    split at he
    · split at he <;> cases he
      rename_i hnt
      exact ⟨hok, hfifo, hhost, room_of_token hok hnt⟩
    · cases he
  | fwWrite t =>
    simp only [recvStep] at he
    split at he <;> cases he
    rename_i hpc
    rw [hpc] at hfw
    refine ⟨hok.store, ?_, hhost.store, ⟨by simp, hfw⟩⟩
    rw [Ring.contents_store_wr hok]
    exact hfifo
  | fwAdvance =>
    simp only [recvStep] at he
    split at he <;> cases he
    rename_i t hpc
    rw [hpc] at hfw
    obtain ⟨hslot, hroom⟩ := hfw
    rw [← Ring.next_eq_mod hok.wr_lt]
    refine ⟨hok.advanceWr, ?_, hhost.advanceWr hok hroom, trivial⟩
    rw [Ring.contents_advance_wr hok hroom, hslot, hfifo, List.append_assoc]

-- ---------------------------------------------------------------------------
-- The queues are bounded FIFOs
-- ---------------------------------------------------------------------------

/-- A send queue that holds at most `n` tokens. Tokens are retired in the
order they were put, each once, and the slots still hold the others. -/
structure SendFifo (q : SysQueue) (n : Nat) (s : SendChan τ) : Prop where
  cursors : s.ring.wr < q.size ∧ s.ring.rd < q.size
  order : s.sent = s.received ++ s.ring.contents q.size
  bound : s.outstanding ≤ n
  /-- what the firmware took is the oldest token not yet retired -/
  taken : ∀ t, s.fw = some t → s.sent[s.received.length]? = some t
  /-- the slot the host fills holds no outstanding token -/
  kept : ∀ index, s.host = .fill index →
    ∀ k < s.outstanding, Ring.slotAt q.size s.ring.rd k ≠ index
  /-- the read of `rd` decides the call: NULL exactly on `n` outstanding tokens -/
  null : ∀ wr, s.host = .getRd wr →
    (noToken (sendPackets q.size wr s.ring.rd) = true ↔ s.outstanding = n)

/-- The mirror image of `SendFifo`. -/
structure RecvFifo (q : SysQueue) (n : Nat) (s : RecvChan τ) : Prop where
  cursors : s.ring.wr < q.size ∧ s.ring.rd < q.size
  order : s.sent = s.received ++ s.ring.contents q.size
  bound : s.outstanding ≤ n
  taken : ∀ t, (s.host = .putRead t ∨ ∃ rd, s.host = .putWrite rd t) →
    s.sent[s.received.length]? = some t
  kept : s.fw = .ready → ∀ k < s.outstanding, Ring.slotAt q.size s.ring.rd k ≠ s.ring.wr
  /-- NULL exactly when nothing was outstanding at the read of `wr` -/
  null : ∀ wr outstanding, s.host = .getRd wr outstanding →
    (noToken (recvPackets q.size wr s.ring.rd) = true ↔ outstanding = 0)

theorem SendInv.outstanding (h : SendInv q s) :
    s.outstanding = Ring.count q.size s.ring.wr s.ring.rd := by
  simp [SendChan.outstanding, h.fifo]

theorem getElem?_front {r : Ring τ} (ho : r.Ok size) (hfront : r.Front t) (received : List τ) :
    (received ++ r.contents size)[received.length]? = some t := by
  rw [hfront.contents ho]
  simp

theorem SendInv.sendFifo (h : SendInv q s) (hq : q.size = n + 1) : SendFifo q n s := by
  have hout := h.outstanding
  have hlt := Ring.count_lt h.ok
  refine ⟨⟨h.ok.wr_lt, h.ok.rd_lt⟩, h.fifo, by omega, ?_, ?_, ?_⟩
  · intro t ht
    rw [h.fifo]
    exact getElem?_front h.ok (h.fw t ht) s.received
  · intro index hpc k hk
    have hhost := h.host
    rw [hpc] at hhost
    rw [hhost.1]
    exact Ring.slotAt_ne_wr h.ok (hout ▸ hk)
  · intro wr hpc
    have hhost := h.host
    rw [hpc] at hhost
    obtain rfl : wr = s.ring.wr := hhost
    rw [noToken_sendPackets h.ok.wr_lt h.ok.rd_lt]
    omega

theorem RecvInv.recvFifo (h : RecvInv q s) (hq : q.size = n + 1) (hs : q.size < 2 ^ 32) :
    RecvFifo q n s := by
  have hout := h.outstanding
  have hlt := Ring.count_lt h.ok
  refine ⟨⟨h.ok.wr_lt, h.ok.rd_lt⟩, h.fifo, by omega, ?_, ?_, ?_⟩
  · intro t ht
    rw [h.fifo]
    have hhost := h.host
    rcases ht with hpc | ⟨rd, hpc⟩ <;> rw [hpc] at hhost
    · exact getElem?_front h.ok hhost s.received
    · exact getElem?_front h.ok hhost.2 s.received
  · intro _ k hk
    exact Ring.slotAt_ne_wr h.ok (hout ▸ hk)
  · intro wr outstanding hpc
    have hhost := h.host
    rw [hpc] at hhost
    rw [noToken_recvPackets hs hhost.1 h.ok.rd_lt]
    exact hhost.2.1

/-- Every queue `ipu6_sys_queue_init` sets up for `n` tokens is a bounded
FIFO in both directions, under every interleaving of the two ends. -/
theorem sysQueue_fifo {τ : Type} (n tokenSize : Nat) (res : SysQueueRes) (hn : n + 1 < 2 ^ 32) :
    (∀ s : SendChan τ,
      Reachable (SendInit (ipu6SysQueueInit n tokenSize res).1)
        (Enabled (sendStep (ipu6SysQueueInit n tokenSize res).1)) s →
      SendFifo (ipu6SysQueueInit n tokenSize res).1 n s) ∧
    (∀ s : RecvChan τ,
      Reachable (RecvInit (ipu6SysQueueInit n tokenSize res).1)
        (Enabled (recvStep (ipu6SysQueueInit n tokenSize res).1)) s →
      RecvFifo (ipu6SysQueueInit n tokenSize res).1 n s) := by
  have hq : (ipu6SysQueueInit n tokenSize res).1.size = n + 1 := ipu6SysQueueInit_size hn
  have hs : (ipu6SysQueueInit n tokenSize res).1.size < 2 ^ 32 := by rw [hq]; exact hn
  refine ⟨fun s hr => ?_, fun s hr => ?_⟩
  · have hinv : SendInv _ s := hr.invariant (fun _ => SendInv.init) fun _ _ _ h he => h.step hs he
    exact hinv.sendFifo hq
  · have hinv : RecvInv _ s := hr.invariant (fun _ => RecvInv.init) fun _ _ _ h he => h.step hs he
    exact hinv.recvFifo hq hs

/-- An empty send queue of the size the message queues have, before anything
was put. -/
def SendChan.empty (t : τ) : SendChan τ :=
  { ring := ⟨fun _ => t, 0, 0⟩, host := .idle, fw := none, sent := [], received := [] }

/-- One command through a message queue of 40 tokens. -/
theorem sysQueue_fifo_one_command :
    ∃ s : SendChan Nat, s.received = [7] ∧ SendFifo (ipu6SysQueueInit 40 16 ⟨0, 0, 10⟩).1 40 s :=
  ⟨_, rfl, (sysQueue_fifo 40 16 ⟨0, 0, 10⟩ (by decide)).1 _
    (Runs.reachable_of_replay (s := SendChan.empty 0)
      (.init ⟨rfl, by decide, rfl, rfl, rfl, rfl⟩)
      [.readWr, .readRd, .readIndex, .fill 7, .putReadWr, .putWriteWr, .fwRead, .fwAdvance] rfl)⟩

end Ipu4.FwCom
