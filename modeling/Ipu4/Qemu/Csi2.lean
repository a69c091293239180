import Ipu4.Qemu.Mmio

/-!
# The CSI-2 ports at the driver's addresses

The driver reaches a port at the base of the BAR plus the offset of the input system
plus the offset of the port. The ports of the model answer as such registers should,
but at the offsets of the ports alone. At the driver's addresses there is nothing:
writes are lost and every read gives 0.
-/

namespace Ipu4.Qemu

-- ---------------------------------------------------------------------------
-- What the driver needs of a register
-- ---------------------------------------------------------------------------

inductive Csi2Block
  | part | rx | s2m
  deriving DecidableEq, Repr

def Csi2Block.reg : Csi2Block → IrqReg → Csi2Reg
  | .part => .part
  | .rx => .rx
  | .s2m => .s2m

def Csi2Port.block (p : Csi2Port) : Csi2Block → IrqBlock
  | .part => p.part
  | .rx => p.rx
  | .s2m => p.s2m

/-- What is written stays and is read back. -/
def Csi2Reg.Latched (r : Csi2Reg) : Prop := ∀ b : Csi2Block, r ≠ b.reg .status ∧ r ≠ b.reg .clear

/-- The driver's access to a register that is in the list of the model. -/
structure Csi2Access where
  port : Fin 6
  off : Nat
  listed : off ∈ csi2Regs.map Prod.fst
  /-- The value of a `writel`, or a `readl`. -/
  val : Option Nat

section
variable (addr : Nat → Nat → Nat)

def csi2Readl (d : Device) (p off : Nat) : Nat := (ipu4MmioRead 0 d (addr p off)).2

def csi2Writel (mem : Memory) (d : Device) (p off val : Nat) : Device :=
  (ipu4MmioWrite mem d (addr p off) val).1

def csi2Step (mem : Memory) (d : Device) (a : Csi2Access) : Device :=
  match a.val with
  | none => (ipu4MmioRead 0 d (addr a.port a.off)).1
  | some val => csi2Writel addr mem d a.port a.off val

/-- Register `r` of port `p` answers at `addr p off`, after any accesses of the driver. -/
structure Csi2Contract (p off : Nat) (r : Csi2Reg) : Prop where
  reaches : decode (addr p off) = .csi2 p off
  latches : r.Latched → ∀ mem d val, ∀ accs : List Csi2Access,
    (∀ a ∈ accs, a.val ≠ none → (a.port : Nat) = p → a.off ≠ off) →
    csi2Readl addr (accs.foldl (csi2Step addr mem) (csi2Writel addr mem d p off val)) p off = val
  apart : ∀ mem d val p' off' r', (off', r') ∈ csi2Regs → (p', off') ≠ (p, off) →
    (∀ b : Csi2Block, r' ≠ b.reg .status) →
    ((csi2Writel addr mem d p off val).csi2 p').readReg r' = (d.csi2 p').readReg r'
  seen : ∀ b : Csi2Block, r = b.reg .status → ∀ d,
    csi2Readl addr d p off = ((d.csi2 p).block b).status &&& ((d.csi2 p).block b).enable
  clears : ∀ mem d val p' (b : Csi2Block),
    (((csi2Writel addr mem d p off val).csi2 p').block b).status =
      if p' = p ∧ r = b.reg .clear then clearBits ((d.csi2 p').block b).status val
      else ((d.csi2 p').block b).status

end

-- ---------------------------------------------------------------------------
-- At the model's own addresses
-- ---------------------------------------------------------------------------

/-- `ipu4_csi2_port_base`. -/
def portAddr (p off : Nat) : Nat := (ipu4Csi2Ports.getD p (0, 0)).1 + off

theorem decode_portAddr :
    ∀ p < 6, ∀ x ∈ csi2Regs, decode (portAddr p x.1) = .csi2 p x.1 := by
  decide +kernel

theorem lookup_csi2Regs : ∀ x ∈ csi2Regs, csi2Regs.lookup x.1 = some x.2 := by
  decide +kernel

theorem IrqBlock.read_write {b b' : IrqBlock} (h : b.write val r = some b') (hr : r' ≠ r)
    (hstatus : r' ≠ .status) : b'.read r' = b.read r' := by
  cases r with
  | status => cases h
  | edge | mask | clear | enable | levelNotPulse =>
    cases h
    cases r' with
    | status => exact absurd rfl hstatus
    | edge | mask | clear | enable | levelNotPulse => first | rfl | exact absurd rfl hr

theorem Csi2Port.readReg_writeReg {p p' : Csi2Port} (h : p.writeReg val r = some p') (hr : r' ≠ r)
    (hstatus : ∀ b : Csi2Block, r' ≠ b.reg .status) : p'.readReg r' = p.readReg r' := by
  have hpart := hstatus .part
  have hrx := hstatus .rx
  have hs2m := hstatus .s2m
  cases r with
  | part i | rx i | s2m i =>
    obtain ⟨b, hb, rfl⟩ := Option.map_eq_some_iff.mp h
    cases r' with
    | part j | rx j | s2m j =>
      first
      | rfl
      | exact IrqBlock.read_write hb (fun hij => hr (by rw [hij])) fun hj => by simp_all [Csi2Block.reg]
    | rxEnable | rxNofLanes | rxConfig | dlyTermenC | dlySettleC | dlyTermenD0 | dlySettleD0 => rfl
  | rxEnable | rxNofLanes | rxConfig | dlyTermenC | dlySettleC | dlyTermenD0 | dlySettleD0 =>
    obtain rfl := Option.some.inj h
    cases r' with
    | part j | rx j | s2m j => rfl
    | rxEnable | rxNofLanes | rxConfig | dlyTermenC | dlySettleC | dlyTermenD0 | dlySettleD0 =>
      first | rfl | exact absurd rfl hr

theorem Csi2Port.readReg_self {p : Csi2Port} (hr : r.Latched) (val : Nat) :
    ∃ p', p.writeReg val r = some p' ∧ p'.readReg r = some val := by
  cases r with
  | part i =>
    cases i with
    | status => exact absurd rfl (hr .part).1
    | clear => exact absurd rfl (hr .part).2
    | edge | mask | enable | levelNotPulse => exact ⟨_, rfl, rfl⟩
  | rx i =>
    cases i with
    | status => exact absurd rfl (hr .rx).1
    | clear => exact absurd rfl (hr .rx).2
    | edge | mask | enable | levelNotPulse => exact ⟨_, rfl, rfl⟩
  | s2m i =>
    cases i with
    | status => exact absurd rfl (hr .s2m).1
    | clear => exact absurd rfl (hr .s2m).2
    | edge | mask | enable | levelNotPulse => exact ⟨_, rfl, rfl⟩
  | rxEnable | rxNofLanes | rxConfig | dlyTermenC | dlySettleC | dlyTermenD0 | dlySettleD0 =>
    exact ⟨_, rfl, rfl⟩

theorem IrqBlock.status_write {b b' : IrqBlock} (h : b.write val r = some b') :
    b'.status = if r = .clear then clearBits b.status val else b.status := by
  cases r with
  | status => cases h
  | edge | mask | clear | enable | levelNotPulse =>
    cases h
    rfl

theorem Csi2Port.status_writeReg {p p' : Csi2Port} (h : p.writeReg val r = some p') (b : Csi2Block) :
    (p'.block b).status =
      if r = b.reg .clear then clearBits (p.block b).status val else (p.block b).status := by
  cases r with
  | part i | rx i | s2m i =>
    obtain ⟨b', hb, rfl⟩ := Option.map_eq_some_iff.mp h
    have hs := IrqBlock.status_write hb
    cases b <;> simp [Csi2Block.reg, Csi2Port.block, hs]
  | rxEnable | rxNofLanes | rxConfig | dlyTermenC | dlySettleC | dlyTermenD0 | dlySettleD0 =>
    obtain rfl := Option.some.inj h
    cases b <;> rfl

theorem csi2Regs_inj : ∀ x ∈ csi2Regs, ∀ y ∈ csi2Regs, x.2 = y.2 → x.1 = y.1 := by
  decide +kernel

section
variable {p off : Nat} {r : Csi2Reg}

theorem csi2Readl_portAddr (hp : p < 6) (hr : (off, r) ∈ csi2Regs) (d : Device) :
    csi2Readl portAddr d p off = ((d.csi2 p).readReg r).getD 0 := by
  unfold csi2Readl ipu4MmioRead
  rw [decode_portAddr p hp _ hr]
  dsimp only
  unfold ipu4Csi2PortRead
  rw [lookup_csi2Regs _ hr]
  rfl

theorem csi2Writel_portAddr (hp : p < 6) (hr : (off, r) ∈ csi2Regs) (mem : Memory) (d : Device)
    (val : Nat) :
    (csi2Writel portAddr mem d p off val).csi2 =
      match (d.csi2 p).writeReg val r with
      | some port => Function.update d.csi2 p port
      | none => d.csi2 := by
  unfold csi2Writel ipu4MmioWrite
  rw [decode_portAddr p hp _ hr]
  dsimp only
  unfold ipu4Csi2PortWrite
  rw [lookup_csi2Regs _ hr, Option.bind_some]
  cases (d.csi2 p).writeReg val r <;> rfl

theorem csi2Writel_apart (hp : p < 6) (hr : (off, r) ∈ csi2Regs) (mem : Memory) (d : Device)
    (val : Nat) (hr' : (off', r') ∈ csi2Regs) (hne : (p', off') ≠ (p, off))
    (hstatus : ∀ b : Csi2Block, r' ≠ b.reg .status) :
    ((csi2Writel portAddr mem d p off val).csi2 p').readReg r' = (d.csi2 p').readReg r' := by
  rw [csi2Writel_portAddr hp hr]
  cases hw : (d.csi2 p).writeReg val r with
  | none => rfl
  | some port =>
    dsimp only
    by_cases hpp : p' = p
    · subst hpp
      have hrr : r' ≠ r := fun heq =>
        hne (congrArg (Prod.mk p') (csi2Regs_inj _ hr' _ hr heq))
      rw [Function.update_self]
      exact Csi2Port.readReg_writeReg hw hrr hstatus
    · rw [Function.update_of_ne hpp]

theorem Csi2Access.exists_reg (a : Csi2Access) : ∃ r, (a.off, r) ∈ csi2Regs := by
  obtain ⟨x, hx, heq⟩ := List.mem_map.mp a.listed
  exact ⟨x.2, heq ▸ hx⟩

theorem csi2Step_read (a : Csi2Access) (ha : a.val = none) (mem : Memory) (d : Device) :
    csi2Step portAddr mem d a = d := by
  obtain ⟨r, hr⟩ := a.exists_reg
  unfold csi2Step ipu4MmioRead
  rw [ha, decode_portAddr a.port a.port.isLt _ hr]

theorem csi2Run_readReg (hr : (off, r) ∈ csi2Regs) (hl : r.Latched) (mem : Memory) (d : Device)
    (accs : List Csi2Access) (h : ∀ a ∈ accs, a.val ≠ none → (a.port : Nat) = p → a.off ≠ off) :
    ((accs.foldl (csi2Step portAddr mem) d).csi2 p).readReg r = (d.csi2 p).readReg r := by
  induction accs generalizing d with
  | nil => rfl
  | cons a accs ih =>
    obtain ⟨ha, hrest⟩ := List.forall_mem_cons.mp h
    rw [List.foldl_cons, ih _ hrest]
    cases hval : a.val with
    | none => rw [csi2Step_read a hval]
    | some val =>
      obtain ⟨r₁, hr₁⟩ := a.exists_reg
      have hstep : csi2Step portAddr mem d a = csi2Writel portAddr mem d a.port a.off val := by
        unfold csi2Step
        rw [hval]
      rw [hstep]
      refine csi2Writel_apart a.port.isLt hr₁ mem d val hr (fun heq => ?_) fun b => (hl b).1
      obtain ⟨hp, hoff⟩ := Prod.mk.inj heq
      exact ha (by simp [hval]) hp.symm hoff.symm

theorem csi2Contract_portAddr (hp : p < 6) (hr : (off, r) ∈ csi2Regs) :
    Csi2Contract portAddr p off r where
  reaches := decode_portAddr p hp _ hr
  latches := by
    intro hl mem d val accs haccs
    obtain ⟨port, hw, hread⟩ := Csi2Port.readReg_self (p := d.csi2 p) hl val
    rw [csi2Readl_portAddr hp hr, csi2Run_readReg hr hl mem _ accs haccs,
      csi2Writel_portAddr hp hr, hw]
    dsimp only
    rw [Function.update_self, hread]
    rfl
  apart := fun mem d val _ _ _ => csi2Writel_apart hp hr mem d val
  seen := by
    rintro b rfl d
    rw [csi2Readl_portAddr hp hr]
    cases b <;> rfl
  clears := by
    intro mem d val p' b
    rw [csi2Writel_portAddr hp hr]
    cases hw : (d.csi2 p).writeReg val r with
    | none =>
      have hclear : r ≠ b.reg .clear := by
        rintro rfl
        cases b <;> cases hw
      simp [hclear]
    | some port =>
      dsimp only
      by_cases hpp : p' = p
      · subst hpp
        rw [Function.update_self, Csi2Port.status_writeReg hw]
        simp
      · rw [Function.update_of_ne hpp]
        simp [hpp]

end

-- ---------------------------------------------------------------------------
-- At the driver's addresses
-- ---------------------------------------------------------------------------

def IPU4_ISYS_OFFSET : Nat := 0x100000

def ipu4CsiOffsets : List Nat := [0x64000, 0x65000, 0x66000, 0x67000, 0x6c000, 0x6c800]

/-- `csi2[p].base + off`, from the base of the BAR. -/
def driverAddr (p off : Nat) : Nat := IPU4_ISYS_OFFSET + ipu4CsiOffsets.getD p 0 + off

theorem decode_driverAddr : ∀ p < 6, ∀ x ∈ csi2Regs, decode (driverAddr p x.1) = .nowhere := by
  decide +kernel

section
variable {p off : Nat} {r : Csi2Reg}

theorem csi2Readl_driverAddr (hp : p < 6) (hr : (off, r) ∈ csi2Regs) (d : Device) :
    csi2Readl driverAddr d p off = 0 := by
  unfold csi2Readl ipu4MmioRead
  rw [decode_driverAddr p hp _ hr]

theorem csi2Writel_driverAddr (hp : p < 6) (hr : (off, r) ∈ csi2Regs) (mem : Memory) (d : Device)
    (val : Nat) : csi2Writel driverAddr mem d p off val = d := by
  unfold csi2Writel ipu4MmioWrite
  rw [decode_driverAddr p hp _ hr]

theorem csi2Step_driverAddr (mem : Memory) (d : Device) (a : Csi2Access) :
    csi2Step driverAddr mem d a = d := by
  obtain ⟨r, hr⟩ := a.exists_reg
  unfold csi2Step
  split
  · unfold ipu4MmioRead
    rw [decode_driverAddr a.port a.port.isLt _ hr]
  · exact csi2Writel_driverAddr a.port.isLt hr mem d _

theorem csi2Run_driverAddr (mem : Memory) (d : Device) (accs : List Csi2Access) :
    accs.foldl (csi2Step driverAddr mem) d = d := by
  induction accs generalizing d with
  | nil => rfl
  | cons a accs ih => rw [List.foldl_cons, csi2Step_driverAddr, ih]

/-- No register of any port answers where the driver accesses it. Whatever the driver
writes, it reads 0, sees no status bit and clears none. -/
theorem driver_csi2_unanswered (hp : p < 6) (hr : (off, r) ∈ csi2Regs) :
    ¬ Csi2Contract driverAddr p off r ∧
    ∀ (mem : Memory) (d : Device) (accs : List Csi2Access),
      accs.foldl (csi2Step driverAddr mem) d = d ∧ csi2Readl driverAddr d p off = 0 := by
  refine ⟨fun h => ?_, fun mem d accs => ⟨csi2Run_driverAddr mem d accs, csi2Readl_driverAddr hp hr d⟩⟩
  cases (decode_driverAddr p hp _ hr).symm.trans h.reaches

end

/-- The enable register of port 0. -/
theorem driver_csi2_unanswered_rxEnable :
    ¬ Csi2Contract driverAddr 0 0 .rxEnable ∧
    ∀ (mem : Memory) (d : Device) (accs : List Csi2Access),
      accs.foldl (csi2Step driverAddr mem) d = d ∧ csi2Readl driverAddr d 0 0 = 0 :=
  driver_csi2_unanswered (by decide) (by decide)

/-- The driver enables the receiver of port 0 and reads back that it is off. -/
theorem rxEnable_reads_zero :
    ¬ ∀ p < 6, ∀ x ∈ csi2Regs, Csi2Contract driverAddr p x.1 x.2 := by
  intro h
  have hread := (h 0 (by decide) (0, .rxEnable) (by decide)).latches
    (by intro b; cases b <;> exact ⟨nofun, nofun⟩) ⟨fun _ => 0, fun _ => true⟩ .reset 1 []
    (by intro a ha; cases ha)
  have hlisted : (0, Csi2Reg.rxEnable) ∈ csi2Regs := by decide
  have hzero := csi2Readl_driverAddr (by decide : 0 < 6) hlisted
    (csi2Writel driverAddr ⟨fun _ => 0, fun _ => true⟩ .reset 0 0 1)
  cases hzero.symm.trans hread

end Ipu4.Qemu
