import Mathlib.Data.List.Induction
import Ipu4.Qemu.Mmio

/-!
# Registers that only latch

Nine registers of the buttress and of the unispart block should keep what was last
written to them, and three more clear bits of a status and do nothing else. All of
this holds but for one field: what is written to `IU2CSEDATA0` lands in `IU2CSECSR`.
-/

namespace Ipu4.Qemu

/-- The registers that are read as they were written. -/
inductive Latch
  | btrsCtrl | isrEnable | securityCtl | iu2cseCsr
  | unispartEdge | unispartMask | unispartEnable | unispartLevel | unispartSwIrqMux
  deriving DecidableEq, Repr

def Latch.reg : Latch → Reg
  | .btrsCtrl => .btrsCtrl
  | .isrEnable => .isrEnable
  | .securityCtl => .securityCtl
  | .iu2cseCsr => .iu2cseCsr
  | .unispartEdge => .unispart .edge
  | .unispartMask => .unispart .mask
  | .unispartEnable => .unispart .enable
  | .unispartLevel => .unispart .levelNotPulse
  | .unispartSwIrqMux => .unispartSwIrqMux

def Latch.addr : Latch → Nat
  | .btrsCtrl => 0x00c
  | .isrEnable => 0x098
  | .securityCtl => 0x300
  | .iu2cseCsr => 0x108
  | .unispartEdge => 0x17c000
  | .unispartMask => 0x17c004
  | .unispartEnable => 0x17c010
  | .unispartLevel => 0x17c014
  | .unispartSwIrqMux => 0x17c418

/-- The value after `ipu4_reset`. -/
def Latch.resetVal : Latch → Nat
  | .btrsCtrl => 0x10
  | .securityCtl => 0x37002
  | _ => 0

def Latch.get (d : Device) : Latch → Nat
  | .btrsCtrl => d.btrsCtrl
  | .isrEnable => d.isrEnable
  | .securityCtl => d.securityCtl
  | .iu2cseCsr => d.iu2cseCsr
  | .unispartEdge => d.isUnispart.edge
  | .unispartMask => d.isUnispart.mask
  | .unispartEnable => d.isUnispart.enable
  | .unispartLevel => d.isUnispart.level
  | .unispartSwIrqMux => d.isUnispartSwIrqMux

/-- A status that is cleared by writing ones. -/
inductive Status
  | isr | cse2iuCsr | unispart
  deriving DecidableEq, Repr

/-- Where it is cleared. -/
def Status.clearAddr : Status → Nat
  | .isr => 0x09c
  | .cse2iuCsr => 0x30c
  | .unispart => 0x17c00c

def Status.get (d : Device) : Status → Nat
  | .isr => d.isrStatus
  | .cse2iuCsr => d.cse2iuCsr
  | .unispart => d.isUnispart.status

def Status.set (d : Device) (x : Nat) : Status → Device
  | .isr => { d with isrStatus := x }
  | .cse2iuCsr => { d with cse2iuCsr := x }
  | .unispart => { d with isUnispart := { d.isUnispart with status := x } }

def IU2CSEDATA0 : Nat := 0x104

-- ---------------------------------------------------------------------------
-- One write
-- ---------------------------------------------------------------------------

variable {mem : Memory} {d : Device} {addr val : Nat}

theorem decode_addr (l : Latch) : decode l.addr = .reg l.reg := by
  cases l <;> rfl

theorem regs_latch : ∀ x ∈ regs, (∀ l : Latch, x.2 = l.reg → x.1 = l.addr) ∧
    (x.2 = .iu2cseData0 → x.1 = IU2CSEDATA0) := by
  intro x hx
  constructor
  · intro l
    revert x
    cases l <;> decide +kernel
  · revert x
    decide +kernel

theorem decode_reg (h : decode addr = .reg r) : (addr, r) ∈ regs := by
  unfold decode at h
  split at h
  · rename_i r' hlookup
    obtain rfl := Place.reg.inj h
    obtain ⟨l₁, l₂, hsplit, -⟩ := List.lookup_eq_some_iff.mp hlookup
    rw [hsplit]
    exact List.mem_append_right _ List.mem_cons_self
  · repeat' split at h
    all_goals cases h

theorem get_writeReg (d : Device) (val : Nat) (r : Reg) (l : Latch) :
    l.get (writeReg d val r) =
      if r = l.reg ∨ l = .iu2cseCsr ∧ r = .iu2cseData0 then val else l.get d := by
  cases r with
  | unispart r => cases r <;> cases l <;> rfl
  | wdt | btrsCtrl | fwResetCtl | isFreqCtl | psFreqCtl | pwrState | fwSourceBaseLo
  | fwSourceBaseHi | fwSourceSize | fabricCmd | isrStatus | isrEnabledStatus | isrEnable | isrClear
  | iu2cseDb0 | iu2cseData0 | iu2cseCsr | tscLo | tscHi | securityCtl | cse2iuDb0 | cse2iuData0
  | cse2iuCsr | sku | unispartSwIrq | unispartSwIrqMux | isSpcStatusCtrl | psSpcStatusCtrl =>
    cases l <;> rfl

theorem get_write (mem : Memory) (d : Device) (addr val : Nat) (l : Latch) :
    l.get (ipu4MmioWrite mem d addr val).1 =
      if addr = l.addr ∨ l = .iu2cseCsr ∧ addr = IU2CSEDATA0 then val else l.get d := by
  have hother : decode addr ≠ .reg l.reg → decode addr ≠ .reg .iu2cseData0 →
      ¬ (addr = l.addr ∨ l = .iu2cseCsr ∧ addr = IU2CSEDATA0) := by
    rintro hreg hdata (rfl | ⟨-, rfl⟩)
    · exact hreg (decode_addr l)
    · exact hdata rfl
  unfold ipu4MmioWrite
  cases hplace : decode addr with
  | reg r =>
    obtain ⟨hlatch, hdata⟩ := regs_latch _ (decode_reg hplace)
    have hiff : (r = l.reg ∨ l = .iu2cseCsr ∧ r = .iu2cseData0) ↔
        (addr = l.addr ∨ l = .iu2cseCsr ∧ addr = IU2CSEDATA0) := by
      constructor
      · rintro (rfl | ⟨rfl, rfl⟩)
        · exact .inl (hlatch l rfl)
        · exact .inr ⟨rfl, hdata rfl⟩
      · rintro (rfl | ⟨rfl, rfl⟩)
        · exact .inl (Place.reg.inj (hplace.symm.trans (decode_addr l)))
        · exact .inr ⟨rfl, Place.reg.inj (hplace.symm.trans rfl)⟩
    dsimp only
    rw [get_writeReg]
    simp only [hiff]
  | dmem i =>
    rw [hplace] at hother
    rw [if_neg (hother nofun nofun)]
    cases l <;> rfl
  | isMmu i =>
    rw [hplace] at hother
    rw [if_neg (hother nofun nofun)]
    cases l <;> rfl
  | psMmu i =>
    rw [hplace] at hother
    rw [if_neg (hother nofun nofun)]
    cases l <;> rfl
  | csi2 port off =>
    rw [hplace] at hother
    rw [if_neg (hother nofun nofun)]
    dsimp only
    cases ipu4Csi2PortWrite (d.csi2 port) off val <;> cases l <;> rfl
  | nowhere =>
    rw [hplace] at hother
    rw [if_neg (hother nofun nofun)]

theorem read_latch (clock : Nat) (d : Device) (l : Latch) :
    (ipu4MmioRead clock d l.addr).2 = l.get d := by
  cases l <;> rfl

-- ---------------------------------------------------------------------------
-- Clearing
-- ---------------------------------------------------------------------------

theorem testBit_clearBits (x val : Nat) (hi : i < 32) :
    (clearBits x val).testBit i = (x.testBit i && !val.testBit i) := by
  have hones : (0xffffffff : Nat) = 2 ^ 32 - 1 := rfl
  rw [clearBits, Nat.testBit_and, Nat.testBit_xor, Nat.testBit_mod_two_pow, hones,
    Nat.testBit_two_pow_sub_one]
  simp [hi]

/-- A write of `val` clears the bits of `val` in its status, and is seen nowhere else. -/
structure Status.Clears (t : Status) (mem : Memory) (d : Device) (val : Nat) : Prop where
  bits : ∀ i < 32, (t.get (ipu4MmioWrite mem d t.clearAddr val).1).testBit i =
    ((t.get d).testBit i && !val.testBit i)
  rest : ipu4MmioWrite mem d t.clearAddr val =
    (t.set d (t.get (ipu4MmioWrite mem d t.clearAddr val).1), ⟨mem, []⟩)

theorem status_clears (t : Status) (mem : Memory) (d : Device) (val : Nat) : t.Clears mem d val := by
  cases t with
  | isr => exact ⟨fun i hi => testBit_clearBits d.isrStatus val hi, rfl⟩
  | cse2iuCsr => exact ⟨fun i hi => testBit_clearBits d.cse2iuCsr val hi, rfl⟩
  | unispart => exact ⟨fun i hi => testBit_clearBits d.isUnispart.status val hi, rfl⟩

-- ---------------------------------------------------------------------------
-- Runs
-- ---------------------------------------------------------------------------

/-- A write of the driver, with the guest memory it happens on. -/
structure MmioWrite where
  mem : Memory
  addr : Nat
  val : Nat

def writeAll (ws : List MmioWrite) : Device :=
  ws.foldl (fun d w => (ipu4MmioWrite w.mem d w.addr w.val).1) .reset

/-- The last value written to `l`, or that of the reset. -/
def Latch.lastWritten (l : Latch) (ws : List MmioWrite) : Nat :=
  ws.foldl (fun v w => if w.addr = l.addr then w.val else v) l.resetVal

/-- After these writes every latch reads as last written, and a clearing write would
clear just its bits. -/
structure Independent (ws : List MmioWrite) : Prop where
  latches : ∀ (l : Latch) clock, (ipu4MmioRead clock (writeAll ws) l.addr).2 = l.lastWritten ws
  clears : ∀ (t : Status) mem val, t.Clears mem (writeAll ws) val

theorem writeAll_append (ws : List MmioWrite) (w : MmioWrite) :
    writeAll (ws ++ [w]) = (ipu4MmioWrite w.mem (writeAll ws) w.addr w.val).1 := by
  rw [writeAll, List.foldl_append]
  rfl

theorem lastWritten_append (l : Latch) (ws : List MmioWrite) (w : MmioWrite) :
    l.lastWritten (ws ++ [w]) = if w.addr = l.addr then w.val else l.lastWritten ws := by
  rw [Latch.lastWritten, List.foldl_append]
  rfl

theorem get_reset (l : Latch) : l.get .reset = l.resetVal := by
  cases l <;> rfl

/-- A run that writes to `IU2CSEDATA0` only what `IU2CSECSR` holds anyway. -/
def KeepsCsr (ws : List MmioWrite) : Prop :=
  ∀ pre w, pre ++ [w] <+: ws → w.addr = IU2CSEDATA0 → w.val = Latch.iu2cseCsr.lastWritten pre

theorem get_writeAll (h : KeepsCsr ws) (hpre : pre <+: ws) (l : Latch) :
    l.get (writeAll pre) = l.lastWritten pre := by
  induction pre using List.reverseRec with
  | nil => exact get_reset l
  | append_singleton pre w ih =>
    have hbefore := ih ((List.prefix_append pre [w]).trans hpre)
    rw [writeAll_append, get_write, lastWritten_append, hbefore]
    by_cases hdata : l = .iu2cseCsr ∧ w.addr = IU2CSEDATA0
    · obtain ⟨rfl, haddr⟩ := hdata
      rw [if_pos (.inr ⟨rfl, haddr⟩), h pre w hpre haddr]
      exact (ite_self _).symm
    · simp only [hdata, or_false]

/-- The registers are independent throughout a run if and only if `IU2CSEDATA0` is never
written, or with the value that `IU2CSECSR` has. -/
theorem registers_independent_iff (ws : List MmioWrite) :
    (∀ pre, pre <+: ws → Independent pre) ↔ KeepsCsr ws := by
  constructor
  · rintro h pre w hpre haddr
    have hread := (h _ hpre).latches .iu2cseCsr 0
    rw [read_latch, writeAll_append, get_write, lastWritten_append, haddr, if_pos (.inr ⟨rfl, rfl⟩)] at hread
    exact hread
  · rintro h pre hpre
    refine ⟨fun l clock => ?_, fun t mem val => status_clears t mem _ val⟩
    rw [read_latch, get_writeAll h hpre]

/-- One command word for the CSE, and `IU2CSECSR` is no longer 0. -/
theorem iu2cseData0_misplaced : ¬ ∀ ws, Independent ws := by
  intro h
  exact absurd ((h [⟨⟨fun _ => 0, fun _ => false⟩, 0x104, 1⟩]).latches .iu2cseCsr 0) (by decide +kernel)

end Ipu4.Qemu
