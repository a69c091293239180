import Mathlib.Data.List.GetD
import Ipu4.FwCom.Layout
import Ipu4.Qemu.Iova

/-!
# Transfers against the page table and against the driver

A transfer of the QEMU model is right if every byte is at the physical address
the page table has for it, and a token is right if the driver, which sees the
buffer page by page, finds the bytes the model wrote and the model those the
driver wrote. Both hold exactly if the pages under the transfer follow each
other in physical memory.
-/

namespace Ipu4.Qemu

open FwCom (SysQueue ipu6FwComPrepare isysCfg)

-- ---------------------------------------------------------------------------
-- One transfer
-- ---------------------------------------------------------------------------

variable {m : Memory}

theorem allBacked_iff : m.allBacked addr len = true ↔ ∀ k < len, m.backed (addr + k) = true := by
  simp [Memory.allBacked]

theorem read_of_backed (hwalk : ipu4IovaToPhys m l1Pfn iova = some phys)
    (hok : m.allBacked phys len = true) :
    ipu4DmaReadIova m l1Pfn iova len = some ((List.range len).map fun k => m.byte (phys + k)) := by
  simp [ipu4DmaReadIova, hwalk, pciDmaRead, hok]

theorem write_of_backed (hwalk : ipu4IovaToPhys m l1Pfn iova = some phys)
    (hok : m.allBacked phys buf.length = true) :
    (ipu4DmaWriteIova m l1Pfn iova buf).2 = true := by
  simpa [ipu4DmaWriteIova, hwalk, pciDmaWrite] using hok

theorem byte_write (hwalk : ipu4IovaToPhys m l1Pfn iova = some phys)
    (hok : m.allBacked phys buf.length = true) (a : Nat) :
    (ipu4DmaWriteIova m l1Pfn iova buf).1.byte a =
      if phys ≤ a ∧ a < phys + buf.length then buf.getD (a - phys) 0 else m.byte a := by
  simp only [ipu4DmaWriteIova, hwalk, pciDmaWrite]
  by_cases ha : phys ≤ a ∧ a < phys + buf.length
  · have hb : m.backed a = true := by
      have := allBacked_iff.mp hok (a - phys) (by omega)
      rwa [show phys + (a - phys) = a by omega] at this
    simp [ha, hb]
  · rw [if_neg ha, if_neg fun h => ha ⟨h.1, h.2.1⟩]

-- ---------------------------------------------------------------------------
-- The driver's side of a buffer
-- ---------------------------------------------------------------------------

/-- A buffer of `ipu6_dma_alloc`: `nPages` pages with their frames, in a row at
`dmaAddr` for the device and in a row for the driver. -/
structure DmaBuf where
  dmaAddr : Nat
  nPages : Nat
  pfn : Nat → Nat

/-- The physical address of offset `o`. -/
def DmaBuf.hostAddr (b : DmaBuf) (o : Nat) : Nat := b.pfn (o / 4096) * 4096 + o % 4096

def DmaBuf.hostRead (b : DmaBuf) (m : Memory) (o len : Nat) : List UInt8 :=
  (List.range len).map fun k => m.byte (b.hostAddr (o + k))

def DmaBuf.hostWrite (b : DmaBuf) (m : Memory) (o : Nat) (buf : List UInt8) : Memory :=
  { m with byte := fun a =>
      match (List.range buf.length).find? fun k => b.hostAddr (o + k) = a with
      | some k => buf.getD k 0
      | none => m.byte a }

/-- What the driver sees to: the page table has the pages, memory is behind
them, no page is in the buffer twice, and none is a table of the walk. -/
structure DmaBuf.Mapped (b : DmaBuf) (m : Memory) (l1Pfn : Nat) : Prop where
  aligned : b.dmaAddr % 4096 = 0
  walk : ∀ j < b.nPages, ipu4IovaToPhys m l1Pfn (b.dmaAddr + j * 4096) = some (b.pfn j * 4096)
  backed : ∀ j < b.nPages, ∀ o < 4096, m.backed (b.pfn j * 4096 + o) = true
  distinct : ∀ i < b.nPages, ∀ j < b.nPages, b.pfn i = b.pfn j → i = j
  tables : ∀ j < b.nPages, b.pfn j ≠ l1Pfn ∧ ∀ i < 1024, readPte m l1Pfn i ≠ some (b.pfn j)

/-- The pages from the one of offset `o` to the end of `len` bytes follow each
other in physical memory. -/
def DmaBuf.PagesFollow (b : DmaBuf) (o len : Nat) : Prop :=
  ∀ j, 0 < j → j * 4096 < o % 4096 + len → b.pfn (o / 4096 + j) = b.pfn (o / 4096) + j

variable {b : DmaBuf}

theorem hostAddr_inj (h : b.Mapped m l1Pfn) (hx : x < b.nPages * 4096) (hy : y < b.nPages * 4096)
    (heq : b.hostAddr x = b.hostAddr y) : x = y := by
  unfold DmaBuf.hostAddr at heq
  have := h.distinct (x / 4096) (by omega) (y / 4096) (by omega) (by omega)
  omega

theorem walk_hostAddr (h : b.Mapped m l1Pfn) (ho : o < b.nPages * 4096) :
    ipu4IovaToPhys m l1Pfn (b.dmaAddr + o) = some (b.hostAddr o) := by
  have hal := h.aligned
  have hw := h.walk (o / 4096) (by omega)
  rw [ipu4IovaToPhys_eq, Option.map_eq_some_iff] at hw ⊢
  obtain ⟨pfn, hpfn, heq⟩ := hw
  rw [show (b.dmaAddr + o / 4096 * 4096) / 4096 = (b.dmaAddr + o) / 4096 by omega] at hpfn
  refine ⟨pfn, hpfn, ?_⟩
  unfold DmaBuf.hostAddr
  omega

theorem pagesFollow_iff (hlen : 0 < len) :
    b.PagesFollow o len ↔ ∀ k < len, b.hostAddr o + k = b.hostAddr (o + k) := by
  unfold DmaBuf.hostAddr
  constructor
  · intro h k hk
    have hj := h ((o % 4096 + k) / 4096)
    rw [show (o + k) / 4096 = o / 4096 + (o % 4096 + k) / 4096 by omega]
    cases hc : (o % 4096 + k) / 4096 with
    | zero =>
      rw [Nat.add_zero]
      omega
    | succ j =>
      rw [hc] at hj
      have := hj (Nat.succ_pos j) (by omega)
      omega
  · intro h j hj hlt
    have := h (j * 4096 - o % 4096) (by omega)
    rw [show (o + (j * 4096 - o % 4096)) / 4096 = o / 4096 + j by omega] at this
    omega

theorem hostRead_eq_iff (htok : token.length = len) :
    b.hostRead m o len = token ↔ ∀ k < len, m.byte (b.hostAddr (o + k)) = token.getD k 0 := by
  subst htok
  unfold DmaBuf.hostRead
  constructor
  · intro h k hk
    rw [← h]
    simp [List.getD_eq_getElem?_getD, hk]
  · intro h
    refine List.ext_getElem (by simp) fun k hk hk' => ?_
    simp only [List.getElem_map, List.getElem_range]
    rw [h k hk', List.getD_eq_getElem _ _ hk']

theorem exists_token_ne (len k : Nat) (hk : k < len) (v : UInt8) :
    ∃ token : List UInt8, token.length = len ∧ token.getD k 0 ≠ v ∧
      ∀ i < len, i ≠ k → token.getD i 0 = v := by
  refine ⟨(List.replicate len v).set k (v + 1), by simp, ?_, fun i hi hne => ?_⟩
  · simp [hk]
  · simp [List.getD_eq_getElem?_getD, Ne.symm hne, hi]

-- ---------------------------------------------------------------------------
-- Tokens
-- ---------------------------------------------------------------------------

/-- The driver finds the token that the model wrote, whatever the token is,
exactly if the pages under it follow each other. -/
theorem hostRead_write_iff (h : b.Mapped m l1Pfn) (hlen : 0 < len)
    (ho : o + len ≤ b.nPages * 4096) (hok : m.allBacked (b.hostAddr o) len = true) :
    (∀ token, token.length = len →
      b.hostRead (ipu4DmaWriteIova m l1Pfn (b.dmaAddr + o) token).1 o len = token) ↔
        b.PagesFollow o len := by
  have hwalk := walk_hostAddr h (o := o) (by omega)
  rw [pagesFollow_iff hlen]
  constructor
  · intro hall k hk
    by_contra hne
    -- a token that is different at `k` from all else the driver could find there
    obtain ⟨token, htok, hdiff, hsame⟩ :=
      exists_token_ne len k hk (m.byte (b.hostAddr (o + k)))
    subst htok
    have hread := (hostRead_eq_iff rfl).mp (hall token rfl) k hk
    rw [byte_write hwalk hok] at hread
    split at hread
    · rw [hsame _ (by omega) (by omega)] at hread
      exact hdiff hread.symm
    · exact hdiff hread.symm
  · intro hfol token htok
    subst htok
    refine (hostRead_eq_iff rfl).mpr fun k hk => ?_
    rw [byte_write hwalk hok, ← hfol k hk, if_pos (by omega), Nat.add_sub_cancel_left]

theorem byte_hostWrite (h : b.Mapped m l1Pfn) (ho : o + buf.length ≤ b.nPages * 4096)
    (hk : k < buf.length) :
    (b.hostWrite m o buf).byte (b.hostAddr (o + k)) = buf.getD k 0 := by
  unfold DmaBuf.hostWrite
  have hfound : (List.range buf.length).find? (fun i => b.hostAddr (o + i) = b.hostAddr (o + k)) =
      some k := by
    rw [List.find?_eq_some_iff_getElem]
    refine ⟨by simp, k, by simpa using hk, by simp, fun i hi => ?_⟩
    simp only [List.getElem_range, Bool.not_eq_true', decide_eq_false_iff_not]
    intro heq
    have := hostAddr_inj h (by omega) (by omega) heq
    omega
  simp only [hfound]

theorem byte_hostWrite_of_ne (h : ∀ k < buf.length, b.hostAddr (o + k) ≠ a) :
    (b.hostWrite m o buf).byte a = m.byte a := by
  unfold DmaBuf.hostWrite
  have hnone : (List.range buf.length).find? (fun k => b.hostAddr (o + k) = a) = none := by
    simpa using h
  simp only [hnone]

theorem readPte_hostWrite (hpage : ∀ k < buf.length, b.pfn ((o + k) / 4096) ≠ pfn)
    (hidx : idx < 1024) : readPte (b.hostWrite m o buf) pfn idx = readPte m pfn idx := by
  have hbytes : ∀ i < 4, (b.hostWrite m o buf).byte (pfn * 4096 + idx * 4 + i) =
      m.byte (pfn * 4096 + idx * 4 + i) := by
    refine fun i hi => byte_hostWrite_of_ne fun k hk heq => hpage k hk ?_
    unfold DmaBuf.hostAddr at heq
    omega
  have hread : pciDmaRead (b.hostWrite m o buf) (pfn * 4096 + idx * 4) 4 =
      pciDmaRead m (pfn * 4096 + idx * 4) 4 := by
    unfold pciDmaRead
    have hb : (b.hostWrite m o buf).allBacked (pfn * 4096 + idx * 4) 4 =
        m.allBacked (pfn * 4096 + idx * 4) 4 := rfl
    rw [hb]
    split
    · exact congrArg some (List.map_congr_left fun i hi => hbytes i (by simpa using hi))
    · rfl
  unfold readPte
  rw [hread]

theorem walk_hostWrite (h : b.Mapped m l1Pfn) (ho : o + buf.length ≤ b.nPages * 4096) (iova : Nat) :
    ipu4IovaToPhys (b.hostWrite m o buf) l1Pfn iova = ipu4IovaToPhys m l1Pfn iova := by
  have htab : ∀ k < buf.length, b.pfn ((o + k) / 4096) ≠ l1Pfn ∧
      ∀ i < 1024, readPte m l1Pfn i ≠ some (b.pfn ((o + k) / 4096)) :=
    fun k hk => h.tables _ (by omega)
  simp only [ipu4IovaToPhys_eq, frame]
  rw [readPte_hostWrite (fun k hk => (htab k hk).1) (Nat.mod_lt _ (by decide))]
  cases hl1 : readPte m l1Pfn (iova / 4096 / 1024 % 1024) with
  | none => rfl
  | some l2PtPfn =>
    have hne : ∀ k < buf.length, b.pfn ((o + k) / 4096) ≠ l2PtPfn := fun k hk heq =>
      (htab k hk).2 _ (Nat.mod_lt _ (by decide)) (heq ▸ hl1)
    simp only [Option.bind_some, readPte_hostWrite hne (Nat.mod_lt _ (by decide))]

/-- The model finds the token that the driver wrote, whatever the token is,
exactly if the pages under it follow each other. -/
theorem read_hostWrite_iff (h : b.Mapped m l1Pfn) (hlen : 0 < len)
    (ho : o + len ≤ b.nPages * 4096) (hok : m.allBacked (b.hostAddr o) len = true) :
    (∀ token, token.length = len →
      ipu4DmaReadIova (b.hostWrite m o token) l1Pfn (b.dmaAddr + o) len = some token) ↔
        b.PagesFollow o len := by
  have hread : ∀ token : List UInt8, token.length = len →
      ipu4DmaReadIova (b.hostWrite m o token) l1Pfn (b.dmaAddr + o) len =
        some ((List.range len).map fun k => (b.hostWrite m o token).byte (b.hostAddr o + k)) := by
    rintro token htok
    refine read_of_backed ?_ hok
    rw [walk_hostWrite h (by omega), walk_hostAddr h (by omega)]
  rw [pagesFollow_iff hlen]
  constructor
  · intro hall k hk
    by_contra hne
    obtain ⟨token, htok, hdiff, hsame⟩ := exists_token_ne len k hk (m.byte (b.hostAddr o + k))
    have hk' := (hread token htok).symm.trans (hall token htok)
    rw [Option.some.injEq] at hk'
    refine hdiff ?_
    rw [← hk']
    simp only [List.getD_eq_getElem?_getD, List.getElem?_map, List.getElem?_range hk,
      Option.map_some, Option.getD_some]
    -- the model looks at an address that holds another byte of the token, or none
    by_cases hother : ∃ i < token.length, b.hostAddr (o + i) = b.hostAddr o + k
    · obtain ⟨i, hi, heq⟩ := hother
      rw [← heq, byte_hostWrite h (by omega) hi, heq]
      exact hsame i (by omega) (by rintro rfl; exact hne heq.symm)
    · exact byte_hostWrite_of_ne fun i hi heq => hother ⟨i, hi, heq⟩
  · intro hfol token htok
    rw [hread token htok, Option.some.injEq]
    subst htok
    refine List.ext_getElem (by simp) fun k hk hk' => ?_
    simp only [List.getElem_map, List.getElem_range]
    rw [hfol k hk', byte_hostWrite h ho hk', List.getD_eq_getElem _ _ hk']

-- ---------------------------------------------------------------------------
-- The helpers and the ring slots
-- ---------------------------------------------------------------------------

/-- The offset of slot `i` in the buffer. -/
def slotOffset (b : DmaBuf) (q : SysQueue) (i : Nat) : Nat :=
  q.viedAddress - b.dmaAddr + i * q.tokenSize

theorem slot_within (hfit : b.dmaAddr + isysCfg.sizeall < 2 ^ 32)
    (hq : q ∈ (ipu6FwComPrepare isysCfg dmaBuffer b.dmaAddr).1 ++
      (ipu6FwComPrepare isysCfg dmaBuffer b.dmaAddr).2)
    (hi : i < q.size) (hlen : len ≤ q.tokenSize) :
    q.viedAddress + i * q.tokenSize = b.dmaAddr + slotOffset b q i ∧
      slotOffset b q i + len ≤ isysCfg.sizeall := by
  have hin := FwCom.ipu6FwComPrepare_within (by decide) hfit q hq
  have hle := hin.le
  have hfits := hin.fits
  have hslot : (i + 1) * q.tokenSize ≤ q.size * q.tokenSize := Nat.mul_le_mul_right _ hi
  rw [Nat.add_mul, Nat.one_mul] at hslot
  unfold slotOffset
  omega

/-- A transfer of the QEMU model moves the bytes from its first physical address
on; they are the bytes the page table names exactly if the pages follow each
other. At a ring slot of the driver that decides whether a token arrives, in
either direction. -/
theorem dmaIova_through_mmu_iff (m : Memory) (l1Pfn : Nat) :
    (∀ iova len phys, ipu4IovaToPhys m l1Pfn iova = some phys → m.allBacked phys len = true →
      ipu4DmaReadIova m l1Pfn iova len =
        some ((List.range len).map fun k => m.byte (phys + k)) ∧
      (∀ buf, buf.length = len → (ipu4DmaWriteIova m l1Pfn iova buf).2 = true ∧
        ∀ a, (ipu4DmaWriteIova m l1Pfn iova buf).1.byte a =
          if phys ≤ a ∧ a < phys + len then buf.getD (a - phys) 0 else m.byte a) ∧
      ((∀ k < len, ipu4IovaToPhys m l1Pfn (iova + k) = some (phys + k)) ↔
        FramesFollow m l1Pfn iova len)) ∧
    ∀ (b : DmaBuf) dmaBuffer q i len, b.Mapped m l1Pfn → isysCfg.sizeall ≤ b.nPages * 4096 →
      b.dmaAddr + isysCfg.sizeall < 2 ^ 32 →
      q ∈ (ipu6FwComPrepare isysCfg dmaBuffer b.dmaAddr).1 ++
        (ipu6FwComPrepare isysCfg dmaBuffer b.dmaAddr).2 →
      i < q.size → 0 < len → len ≤ q.tokenSize →
      m.allBacked (b.hostAddr (slotOffset b q i)) len = true →
      ((∀ token, token.length = len → b.hostRead
          (ipu4DmaWriteIova m l1Pfn (q.viedAddress + i * q.tokenSize) token).1
          (slotOffset b q i) len = token) ↔ b.PagesFollow (slotOffset b q i) len) ∧
      ((∀ token, token.length = len → ipu4DmaReadIova (b.hostWrite m (slotOffset b q i) token) l1Pfn
          (q.viedAddress + i * q.tokenSize) len = some token) ↔
        b.PagesFollow (slotOffset b q i) len) := by
  refine ⟨fun iova len phys hwalk hok => ⟨read_of_backed hwalk hok, ?_, ?_⟩, ?_⟩
  · rintro buf rfl
    exact ⟨write_of_backed hwalk hok, byte_write hwalk hok⟩
  · exact moved_iff_framesFollow hwalk
  · intro b dmaBuffer q i len h hpages hfit hq hi hlen htok hok
    obtain ⟨haddr, hin⟩ := slot_within hfit hq hi htok
    rw [haddr]
    exact ⟨hostRead_write_iff h hlen (by omega) hok, read_hostWrite_iff h hlen (by omega) hok⟩

/-- An L1 table in frame 1, an L2 table in frame 2, and a buffer of three
pages at IOVA `0x10000` in the frames 3, `f` and 9. -/
def sampleByte (f a : Nat) : UInt8 :=
  if a = 4096 then 2
  else if a = 2 * 4096 + 64 then 3
  else if a = 2 * 4096 + 68 then f.toUInt8
  else if a = 2 * 4096 + 72 then 9
  else 0

def sampleMemory (f : Nat) : Memory := ⟨sampleByte f, fun _ => true⟩

def sampleBuf (f : Nat) : DmaBuf := ⟨0x10000, 3, fun j => [3, f, 9].getD j 0⟩

/-- The queue of responses in that buffer. -/
def sampleRecv : SysQueue := ⟨6032, 0x10000 + 6032, 41, 64, 28, 29⟩

theorem sampleByte_l1 (h : a < 8192) : sampleByte f a = if a = 4096 then 2 else 0 := by
  have h₁ : a ≠ 2 * 4096 + 64 := by omega
  have h₂ : a ≠ 2 * 4096 + 68 := by omega
  have h₃ : a ≠ 2 * 4096 + 72 := by omega
  simp only [sampleByte, h₁, h₂, h₃, if_false]

theorem sample_l1_entry (hi : i < 1024) :
    readPte (sampleMemory f) 1 i = if i = 0 then some 2 else none := by
  have hbyte : ∀ k < 4, (sampleMemory f).byte (1 * 4096 + i * 4 + k) =
      if i = 0 ∧ k = 0 then 2 else 0 := by
    intro k hk
    have hlt : 1 * 4096 + i * 4 + k < 8192 := by omega
    exact (sampleByte_l1 hlt).trans (if_congr (by omega) rfl rfl)
  have hread : pciDmaRead (sampleMemory f) (1 * 4096 + i * 4) 4 =
      some ((List.range 4).map fun k => if i = 0 ∧ k = 0 then 2 else 0) := by
    unfold pciDmaRead
    rw [if_pos (allBacked_iff.mpr fun _ _ => rfl)]
    exact congrArg some (List.map_congr_left fun k hk => hbyte k (by simpa using hk))
  unfold readPte
  rw [hread]
  by_cases h : i = 0 <;> simp [h, dword, List.range_succ]

theorem sampleBuf_mapped (hf : f = 5 ∨ f = 8) : (sampleBuf f).Mapped (sampleMemory f) 1 := by
  have htables : ∀ pfn, pfn ≠ 2 → ∀ i < 1024, readPte (sampleMemory f) 1 i ≠ some pfn := by
    intro pfn hne i hi
    rw [sample_l1_entry hi]
    split
    · simpa using hne.symm
    · simp
  rcases hf with rfl | rfl
  · exact ⟨rfl, by decide +kernel, fun _ _ _ _ => rfl, by decide +kernel,
      fun j hj => ⟨by decide +revert, htables _ (by decide +revert)⟩⟩
  · exact ⟨rfl, by decide +kernel, fun _ _ _ _ => rfl, by decide +kernel,
      fun j hj => ⟨by decide +revert, htables _ (by decide +revert)⟩⟩

/-- Slot 33 of the responses crosses from the second page to the third. With the
third page elsewhere the end of the response goes to a page that is not in the
buffer, although the helper reports success. -/
theorem response_split_over_pages :
    sampleRecv ∈ (ipu6FwComPrepare isysCfg 0 0x10000).2 ∧
    (sampleBuf 5).Mapped (sampleMemory 5) 1 ∧
    (ipu4DmaWriteIova (sampleMemory 5) 1 (sampleRecv.viedAddress + 33 * 64)
      (List.replicate 64 1)).2 = true ∧
    ipu4IovaToPhys (sampleMemory 5) 1 (sampleRecv.viedAddress + 33 * 64) = some (6 * 4096 - 48) ∧
    ipu4IovaToPhys (sampleMemory 5) 1 (sampleRecv.viedAddress + 33 * 64 + 48) = some (9 * 4096) ∧
    (ipu4DmaWriteIova (sampleMemory 5) 1 (sampleRecv.viedAddress + 33 * 64)
      (List.replicate 64 1)).1.byte (9 * 4096) = 0 ∧
    (sampleBuf 5).hostRead (ipu4DmaWriteIova (sampleMemory 5) 1
      (sampleRecv.viedAddress + 33 * 64) (List.replicate 64 1)).1 (6032 + 33 * 64) 64 ≠
        List.replicate 64 1 := by
  refine ⟨by decide +kernel, sampleBuf_mapped (.inl rfl), by decide +kernel, by decide +kernel,
    by decide +kernel, by decide +kernel, by decide +kernel⟩

/-- With the third page right after the second one the response arrives. -/
theorem response_in_following_pages :
    (sampleBuf 8).hostRead (ipu4DmaWriteIova (sampleMemory 8) 1
      (sampleRecv.viedAddress + 33 * 64) (List.replicate 64 1)).1 (6032 + 33 * 64) 64 =
        List.replicate 64 1 :=
  (((dmaIova_through_mmu_iff (sampleMemory 8) 1).2 (sampleBuf 8) 0 sampleRecv 33 64
    (sampleBuf_mapped (.inr rfl)) (by decide) (by decide) (by decide +kernel) (by decide)
    (by decide) (by decide) (by decide +kernel)).1.mpr (by
      intro j hj hlt
      have hoff : slotOffset (sampleBuf 8) sampleRecv 33 = 8144 := rfl
      rw [hoff] at hlt ⊢
      obtain rfl : j = 1 := by omega
      rfl)) _ rfl

end Ipu4.Qemu
