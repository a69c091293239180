import Ipu4.FwCom.Tokens

/-!
# The DMA helpers of the QEMU model

The QEMU model of the device reaches guest memory through the IPU's own page
table: an IOVA is walked to a physical address, and the bytes go over the PCI
bus from there. `ipu4_dma_read_iova` and `ipu4_dma_write_iova` walk the first
byte only. Whether the other bytes are the ones the page table names depends
on where the pages of the transfer lie.
-/

namespace Ipu4.Qemu

-- ---------------------------------------------------------------------------
-- Guest memory
-- ---------------------------------------------------------------------------

/-- Guest memory as the PCI bus sees it. An access to an address that nothing
backs fails. -/
structure Memory where
  byte : Nat → UInt8
  backed : Nat → Bool

def Memory.allBacked (m : Memory) (addr len : Nat) : Bool :=
  (List.range len).all fun k => m.backed (addr + k)

def pciDmaRead (m : Memory) (addr len : Nat) : Option (List UInt8) :=
  if m.allBacked addr len then some ((List.range len).map fun k => m.byte (addr + k)) else none

/-- The bytes that can be written are, also when the whole access fails. -/
def pciDmaWrite (m : Memory) (addr : Nat) (buf : List UInt8) : Memory × Bool :=
  ({ m with byte := fun a =>
      if addr ≤ a ∧ a < addr + buf.length ∧ m.backed a then buf.getD (a - addr) 0 else m.byte a },
    m.allBacked addr buf.length)

/-- A little-endian 32-bit word. -/
def dword (b : List UInt8) : Nat :=
  (b.getD 0 0).toNat + 256 * (b.getD 1 0).toNat + 65536 * (b.getD 2 0).toNat +
    16777216 * (b.getD 3 0).toNat

-- ---------------------------------------------------------------------------
-- The walk
-- ---------------------------------------------------------------------------

/-- An entry of a page table; an entry of zero maps nothing. -/
def readPte (m : Memory) (pfn idx : Nat) : Option Nat :=
  match pciDmaRead m (pfn * 4096 + idx * 4) 4 with
  | none => none
  | some b => if dword b = 0 then none else some (dword b)

/-- `l1Pfn` is the register `is_mmu_l1_pfn`, and `iova` a `uint32_t`. -/
def ipu4IovaToPhys (m : Memory) (l1Pfn iova : Nat) : Option Nat :=
  let iova := iova % 2 ^ 32
  let l1Idx := iova / 2 ^ 22 % 1024
  let l2Idx := iova / 2 ^ 12 % 1024
  let offset := iova % 4096
  if l1Pfn = 0 then none
  else
    match readPte m l1Pfn l1Idx with
    | none => none
    | some l2PtPfn =>
      match readPte m l2PtPfn l2Idx with
      | none => none
      | some targetPfn => some (targetPfn * 4096 + offset)

def ipu4DmaReadIova (m : Memory) (l1Pfn iova len : Nat) : Option (List UInt8) :=
  match ipu4IovaToPhys m l1Pfn iova with
  | none => none
  | some phys => pciDmaRead m phys len

def ipu4DmaWriteIova (m : Memory) (l1Pfn iova : Nat) (buf : List UInt8) : Memory × Bool :=
  match ipu4IovaToPhys m l1Pfn iova with
  | none => (m, false)
  | some phys => pciDmaWrite m phys buf

-- ---------------------------------------------------------------------------
-- Where the bytes of a transfer are
-- ---------------------------------------------------------------------------

/-- The frame of a page of IOVA space. -/
def frame (m : Memory) (l1Pfn page : Nat) : Option Nat :=
  if l1Pfn = 0 then none
  else (readPte m l1Pfn (page / 1024 % 1024)).bind fun l2PtPfn => readPte m l2PtPfn (page % 1024)

theorem ipu4IovaToPhys_eq (m : Memory) (l1Pfn iova : Nat) :
    ipu4IovaToPhys m l1Pfn iova =
      (frame m l1Pfn (iova / 4096)).map fun pfn => pfn * 4096 + iova % 4096 := by
  have h₁ : iova % 2 ^ 32 / 2 ^ 22 % 1024 = iova / 4096 / 1024 % 1024 := by omega
  have h₂ : iova % 2 ^ 32 / 2 ^ 12 % 1024 = iova / 4096 % 1024 := by omega
  have h₃ : iova % 2 ^ 32 % 4096 = iova % 4096 := by omega
  simp only [ipu4IovaToPhys, frame, h₁, h₂, h₃]
  split
  · rfl
  · cases readPte m l1Pfn (iova / 4096 / 1024 % 1024) with
    | none => rfl
    | some l2PtPfn =>
      simp only [Option.bind_some]
      cases readPte m l2PtPfn (iova / 4096 % 1024) <;> rfl

/-- The pages a transfer enters after its first one lie behind it in physical
memory, each right after the one before. -/
def FramesFollow (m : Memory) (l1Pfn iova len : Nat) : Prop :=
  ∀ phys, ipu4IovaToPhys m l1Pfn iova = some phys →
    ∀ j, 0 < j → j * 4096 < iova % 4096 + len →
      ipu4IovaToPhys m l1Pfn (iova / 4096 * 4096 + j * 4096) =
        some (phys / 4096 * 4096 + j * 4096)

/-- Byte `k` of a transfer that starts at `phys` is at `phys + k`. That is where
the page table has it exactly if the pages follow each other. -/
theorem moved_iff_framesFollow (h : ipu4IovaToPhys m l1Pfn iova = some phys) :
    (∀ k < len, ipu4IovaToPhys m l1Pfn (iova + k) = some (phys + k)) ↔
      FramesFollow m l1Pfn iova len := by
  have hfirst := h
  rw [ipu4IovaToPhys_eq, Option.map_eq_some_iff] at hfirst
  obtain ⟨pfn, hpfn, rfl⟩ := hfirst
  have hdiv : (pfn * 4096 + iova % 4096) / 4096 = pfn := by omega
  constructor
  · rintro hall phys' h' j hj hlt
    obtain rfl := Option.some.inj (h.symm.trans h')
    -- the first byte of page `j`
    have hk := hall (j * 4096 - iova % 4096) (by omega)
    rw [show iova + (j * 4096 - iova % 4096) = iova / 4096 * 4096 + j * 4096 by omega] at hk
    rw [hk, hdiv, Option.some.injEq]
    omega
  · intro hfol k hk
    have hpage := hfol _ h ((iova % 4096 + k) / 4096)
    rw [ipu4IovaToPhys_eq] at hpage ⊢
    rw [show (iova + k) / 4096 = iova / 4096 + (iova % 4096 + k) / 4096 by omega]
    cases hj : (iova % 4096 + k) / 4096 with
    | zero =>
      rw [Nat.add_zero, hpfn]
      simp only [Option.map_some, Option.some.injEq]
      omega
    | succ j =>
      rw [hj] at hpage
      specialize hpage (Nat.succ_pos j) (by omega)
      rw [← Nat.add_mul, Nat.mul_div_cancel _ (by decide), hdiv, Option.map_eq_some_iff] at hpage
      obtain ⟨pfn', hpfn', heq⟩ := hpage
      rw [hpfn']
      simp only [Option.map_some, Option.some.injEq]
      omega

end Ipu4.Qemu
