import Ipu4.Qemu.Guest
import Ipu4.Qemu.Transfer

/-!
# What a register write does to memory

During one register write the device fills the buffers of captures with a pattern
and puts responses into their ring, through the page table. Every frame has the
pattern of number 0, and in a page-aligned buffer byte `a` of memory then is `a`
modulo 256. So a frame never spoils another one, also where it is longer than its
buffer. The page tables stay as they are, if the driver keeps them and its ring
away from where frames are written.
-/

namespace Ipu4.Qemu

open FwCom (SysQueue)

-- ---------------------------------------------------------------------------
-- Page tables
-- ---------------------------------------------------------------------------

/-- The frames that a walk reads. -/
def IsTable (m : Memory) (l1Pfn pfn : Nat) : Prop :=
  pfn = l1Pfn ∨ ∃ i < 1024, readPte m l1Pfn i = some pfn

/-- No page of the device's address space is a page table. -/
def TablesApart (m : Memory) (l1Pfn : Nat) : Prop :=
  ∀ page pfn, frame m l1Pfn page = some pfn → ¬ IsTable m l1Pfn pfn

/-- The byte that the pattern of number 0 has at `a`. -/
def Patterned (m : Memory) (a : Nat) : Prop := m.byte a = UInt8.ofNat a

/-- `m'` is `m` after writes that spare the page tables and, in the frames of `A`, the
pattern. -/
structure Spares (l1Pfn : Nat) (A : Nat → Prop) (m m' : Memory) : Prop where
  backed : m'.backed = m.backed
  tables : ∀ a, IsTable m l1Pfn (a / 4096) → m'.byte a = m.byte a
  patterned : ∀ a, A (a / 4096) → Patterned m a → Patterned m' a

section
variable {l1Pfn : Nat} {A : Nat → Prop} {m m' m'' : Memory}

theorem readPte_congr (hb : m'.backed = m.backed) (h : ∀ a, a / 4096 = pfn → m'.byte a = m.byte a)
    (hi : i < 1024) : readPte m' pfn i = readPte m pfn i := by
  have hbytes : ∀ k < 4, m'.byte (pfn * 4096 + i * 4 + k) = m.byte (pfn * 4096 + i * 4 + k) :=
    fun k hk => h _ (by omega)
  have hread : pciDmaRead m' (pfn * 4096 + i * 4) 4 = pciDmaRead m (pfn * 4096 + i * 4) 4 := by
    unfold pciDmaRead Memory.allBacked
    rw [hb]
    split
    · exact congrArg some (List.map_congr_left fun k hk => hbytes k (by simpa using hk))
    · rfl
  unfold readPte
  rw [hread]

theorem Spares.readPte_table (h : Spares l1Pfn A m m') (ht : IsTable m l1Pfn pfn) (hi : i < 1024) :
    readPte m' pfn i = readPte m pfn i :=
  readPte_congr h.backed (fun a ha => h.tables a (ha ▸ ht)) hi

theorem Spares.isTable_iff (h : Spares l1Pfn A m m') : IsTable m' l1Pfn pfn ↔ IsTable m l1Pfn pfn := by
  unfold IsTable
  refine or_congr Iff.rfl (exists_congr fun i => and_congr_right fun hi => ?_)
  rw [h.readPte_table (.inl rfl) hi]

theorem Spares.frame_eq (h : Spares l1Pfn A m m') (page : Nat) :
    frame m' l1Pfn page = frame m l1Pfn page := by
  unfold frame
  rw [h.readPte_table (.inl rfl) (Nat.mod_lt _ (by decide))]
  split
  · rfl
  · cases hl1 : readPte m l1Pfn (page / 1024 % 1024) with
    | none => rfl
    | some l2PtPfn =>
      have ht : IsTable m l1Pfn l2PtPfn := .inr ⟨_, Nat.mod_lt _ (by decide), hl1⟩
      exact h.readPte_table ht (Nat.mod_lt _ (by decide))

theorem Spares.walk (h : Spares l1Pfn A m m') (iova : Nat) :
    ipu4IovaToPhys m' l1Pfn iova = ipu4IovaToPhys m l1Pfn iova := by
  rw [ipu4IovaToPhys_eq, ipu4IovaToPhys_eq, h.frame_eq]

theorem Spares.refl (l1Pfn : Nat) (A : Nat → Prop) (m : Memory) : Spares l1Pfn A m m :=
  ⟨rfl, fun _ _ => rfl, fun _ _ => id⟩

theorem Spares.trans (h : Spares l1Pfn A m m') (h' : Spares l1Pfn A m' m'') :
    Spares l1Pfn A m m'' where
  backed := h'.backed.trans h.backed
  tables := fun a ha => (h'.tables a (h.isTable_iff.mpr ha)).trans (h.tables a ha)
  patterned := fun a ha hp => h'.patterned a ha (h.patterned a ha hp)

theorem Spares.apart (h : Spares l1Pfn A m m') (ht : TablesApart m l1Pfn) : TablesApart m' l1Pfn := by
  intro page pfn hpfn
  rw [h.isTable_iff]
  exact ht page pfn (h.frame_eq page ▸ hpfn)

theorem Spares.mapped (h : Spares l1Pfn A m m') (hb : DmaBuf.Mapped b m l1Pfn) : b.Mapped m' l1Pfn where
  aligned := hb.aligned
  walk := fun j hj => (h.walk _).trans (hb.walk j hj)
  backed := fun j hj o ho => by
    rw [h.backed]
    exact hb.backed j hj o ho
  distinct := hb.distinct
  tables := fun j hj => ⟨(hb.tables j hj).1, fun i hi => by
    rw [h.readPte_table (.inl rfl) hi]
    exact (hb.tables j hj).2 i hi⟩

-- ---------------------------------------------------------------------------
-- The pattern
-- ---------------------------------------------------------------------------

theorem ofNat_congr (h : x % 256 = y % 256) : UInt8.ofNat x = UInt8.ofNat y :=
  UInt8.toNat_inj.mp (by simpa using h)

theorem ofNat_hostAddr (b : DmaBuf) (k : Nat) : UInt8.ofNat (b.hostAddr k) = UInt8.ofNat k := by
  refine ofNat_congr ?_
  unfold DmaBuf.hostAddr
  omega

/-- One page of the pattern. -/
def patternChunk (off chunk : Nat) : List UInt8 :=
  (List.range chunk).map fun i => UInt8.ofNat (off + i + 0)

theorem length_patternChunk (off chunk : Nat) : (patternChunk off chunk).length = chunk := by
  simp [patternChunk]

theorem byte_chunk (m : Memory) (hoff : off % 4096 = 0) (pfn a : Nat) :
    (pciDmaWrite m (pfn * 4096) (patternChunk off 4096)).1.byte a =
      if a / 4096 = pfn ∧ m.backed a then UInt8.ofNat a else m.byte a := by
  have hlen := length_patternChunk off 4096
  unfold pciDmaWrite
  dsimp only
  rw [hlen]
  by_cases ha : a / 4096 = pfn
  · have hrange : pfn * 4096 ≤ a ∧ a < pfn * 4096 + 4096 := by omega
    have hget : (patternChunk off 4096).getD (a - pfn * 4096) 0 = UInt8.ofNat a := by
      rw [List.getD_eq_getElem _ _ (by omega)]
      simp only [patternChunk, List.getElem_map, List.getElem_range]
      exact ofNat_congr (by omega)
    simp only [ha, hrange, hget, true_and]
  · have hrange : ¬ (pfn * 4096 ≤ a ∧ a < pfn * 4096 + 4096 ∧ m.backed a = true) := by omega
    rw [if_neg hrange, if_neg fun h => ha h.1]

theorem spares_chunk (hoff : off % 4096 = 0) (hpfn : ¬ IsTable m l1Pfn pfn) :
    Spares l1Pfn A m (pciDmaWrite m (pfn * 4096) (patternChunk off 4096)).1 where
  backed := rfl
  tables := by
    intro a ha
    rw [byte_chunk m hoff, if_neg]
    rintro ⟨rfl, -⟩
    exact hpfn ha
  patterned := by
    intro a _ hp
    unfold Patterned
    rw [byte_chunk m hoff]
    split
    · rfl
    · exact hp

theorem walk_aligned (h : ipu4IovaToPhys m l1Pfn iova = some phys) (hal : iova % 4096 = 0) :
    ∃ pfn, frame m l1Pfn (iova / 4096) = some pfn ∧ phys = pfn * 4096 := by
  rw [ipu4IovaToPhys_eq, hal] at h
  obtain ⟨pfn, hpfn, rfl⟩ := Option.map_eq_some_iff.mp h
  exact ⟨pfn, hpfn, Nat.add_zero _⟩

theorem walk_mod (m : Memory) (l1Pfn iova : Nat) :
    ipu4IovaToPhys m l1Pfn (iova % 2 ^ 32) = ipu4IovaToPhys m l1Pfn iova := by
  simp only [ipu4IovaToPhys, Nat.mod_mod]

theorem patternLoop_succ (hbase : base % 4096 = 0) (htotal : total % 4096 = 0) (hoff : off % 4096 = 0)
    (hlt : off < total) (n : Nat) (m : Memory) :
    patternLoop l1Pfn base total 0 (n + 1) off m =
      match ipu4IovaToPhys m l1Pfn (base + off) with
      | none => m
      | some phys =>
        match pciDmaWrite m phys (patternChunk off 4096) with
        | (m, false) => m
        | (m, true) => patternLoop l1Pfn base total 0 n (off + 4096) m := by
  have hchunk : min (total - off) (4096 - (base + off) % 2 ^ 32 % 4096) = 4096 := by omega
  rw [patternLoop, if_pos hlt]
  dsimp only
  rw [hchunk, walk_mod]
  unfold patternChunk
  generalize List.map _ (List.range 4096) = buf
  rfl

theorem spares_patternLoop (hbase : base % 4096 = 0) (htotal : total % 4096 = 0)
    (hoff : off % 4096 = 0) (ht : TablesApart m l1Pfn) (n : Nat) :
    Spares l1Pfn A m (patternLoop l1Pfn base total 0 n off m) := by
  induction n generalizing off m with
  | zero => exact Spares.refl l1Pfn A m
  | succ n ih =>
    by_cases hlt : off < total
    · rw [patternLoop_succ hbase htotal hoff hlt]
      cases hwalk : ipu4IovaToPhys m l1Pfn (base + off) with
      | none => exact Spares.refl l1Pfn A m
      | some phys =>
        obtain ⟨pfn, hpfn, rfl⟩ := walk_aligned hwalk (by omega)
        have hchunk : Spares l1Pfn A m (pciDmaWrite m (pfn * 4096) (patternChunk off 4096)).1 :=
          spares_chunk hoff (ht _ _ hpfn)
        dsimp only
        cases hwrite : pciDmaWrite m (pfn * 4096) (patternChunk off 4096) with
        | mk m₁ ok =>
          rw [hwrite] at hchunk
          cases ok with
          | false => exact hchunk
          | true => exact hchunk.trans (ih (by omega) (hchunk.apart ht))
    · rw [patternLoop, if_neg hlt]
      exact Spares.refl l1Pfn A m

theorem patterned_patternLoop (hb : DmaBuf.Mapped b m l1Pfn) (ht : TablesApart m l1Pfn)
    (htotal : total % 4096 = 0) (hoff : off % 4096 = 0) (hk : off ≤ k) (hlt : k < total)
    (hin : k < b.nPages * 4096) (hn : k < off + n * 4096) :
    Patterned (patternLoop l1Pfn b.dmaAddr total 0 n off m) (b.hostAddr k) := by
  induction n generalizing off m with
  | zero => omega
  | succ n ih =>
    have hwalk : ipu4IovaToPhys m l1Pfn (b.dmaAddr + off) = some (b.pfn (off / 4096) * 4096) := by
      rw [walk_hostAddr hb (by omega), DmaBuf.hostAddr, hoff, Nat.add_zero]
    obtain ⟨pfn, hpfn, heq⟩ := walk_aligned hwalk (by have := hb.aligned; omega)
    have htable : ¬ IsTable m l1Pfn (b.pfn (off / 4096)) := by
      have hsame : b.pfn (off / 4096) = pfn := by omega
      rw [hsame]
      exact ht _ _ hpfn
    have hchunk : ∀ A, Spares l1Pfn A m
        (pciDmaWrite m (b.pfn (off / 4096) * 4096) (patternChunk off 4096)).1 := fun A =>
      spares_chunk hoff htable
    have hbyte := byte_chunk m hoff (b.pfn (off / 4096)) (b.hostAddr k)
    have hok : (pciDmaWrite m (b.pfn (off / 4096) * 4096) (patternChunk off 4096)).2 = true := by
      unfold pciDmaWrite
      dsimp only
      rw [length_patternChunk]
      exact allBacked_iff.mpr fun o ho => hb.backed _ (by omega) o ho
    rw [patternLoop_succ hb.aligned htotal hoff (by omega), hwalk]
    dsimp only
    cases hwrite : pciDmaWrite m (b.pfn (off / 4096) * 4096) (patternChunk off 4096) with
    | mk m₁ ok =>
      rw [hwrite] at hchunk hok hbyte
      obtain rfl : ok = true := hok
      dsimp only at hchunk hbyte ⊢
      by_cases hpage : k < off + 4096
      · -- written in this turn, and spared by the later ones
        have hdiv : b.hostAddr k / 4096 = b.pfn (off / 4096) := by
          have hsame : k / 4096 = off / 4096 := by omega
          unfold DmaBuf.hostAddr
          rw [hsame]
          omega
        have hback : m.backed (b.hostAddr k) = true :=
          hb.backed (k / 4096) (by omega) (k % 4096) (Nat.mod_lt _ (by decide))
        rw [if_pos ⟨hdiv, hback⟩] at hbyte
        have hrest : Spares l1Pfn (fun _ => True) m₁
            (patternLoop l1Pfn b.dmaAddr total 0 n (off + 4096) m₁) :=
          spares_patternLoop hb.aligned htotal (by omega) ((hchunk fun _ => True).apart ht) n
        exact hrest.patterned _ trivial hbyte
      · exact ih ((hchunk fun _ => True).mapped hb) ((hchunk fun _ => True).apart ht) (by omega)
          (by omega) (by omega)

-- ---------------------------------------------------------------------------
-- Writes of the device
-- ---------------------------------------------------------------------------

inductive DmaWrite where
  | frame (base : Nat)
  | response (iova : Nat) (resp : RespInfo)
  deriving DecidableEq, Repr

def DmaWrite.apply (l1Pfn : Nat) (m : Memory) : DmaWrite → Memory
  | .frame base =>
    patternLoop l1Pfn base IPU4_FRAME_PATTERN_BYTES 0 (IPU4_FRAME_PATTERN_BYTES / 4096 + 2) 0 m
  | .response iova resp => (ipu4DmaWriteIova m l1Pfn iova resp.bytes).1

/-- Frames go to whole pages, and responses to bytes that are neither in a page table
nor in a frame of `A`. -/
def DmaWrite.Safe (l1Pfn : Nat) (A : Nat → Prop) (m : Memory) : DmaWrite → Prop
  | .frame base => base % 4096 = 0
  | .response iova _ => ∀ phys, ipu4IovaToPhys m l1Pfn iova = some phys →
      ∀ k < 64, ¬ IsTable m l1Pfn ((phys + k) / 4096) ∧ ¬ A ((phys + k) / 4096)

theorem Spares.safe (h : Spares l1Pfn A m m') {w : DmaWrite} (hw : w.Safe l1Pfn A m) :
    w.Safe l1Pfn A m' := by
  cases w with
  | frame base => exact hw
  | response iova resp =>
    intro phys hphys k hk
    rw [h.isTable_iff]
    exact hw phys (h.walk iova ▸ hphys) k hk

theorem spares_write (ht : TablesApart m l1Pfn) {w : DmaWrite} (hw : w.Safe l1Pfn A m) :
    Spares l1Pfn A m (w.apply l1Pfn m) := by
  cases w with
  | frame base => exact spares_patternLoop hw (by decide) rfl ht _
  | response iova resp =>
    have hsafe : ∀ phys, ipu4IovaToPhys m l1Pfn iova = some phys →
        ∀ k < 64, ¬ IsTable m l1Pfn ((phys + k) / 4096) ∧ ¬ A ((phys + k) / 4096) := hw
    unfold DmaWrite.apply ipu4DmaWriteIova
    dsimp only
    cases hwalk : ipu4IovaToPhys m l1Pfn iova with
    | none => exact Spares.refl l1Pfn A m
    | some phys =>
      have hout : ∀ a, (IsTable m l1Pfn (a / 4096) ∨ A (a / 4096)) →
          (pciDmaWrite m phys resp.bytes).1.byte a = m.byte a := by
        intro a ha
        refine if_neg ?_
        rintro ⟨hle, hlt, -⟩
        rw [resp.length_bytes] at hlt
        have hka := hsafe phys hwalk (a - phys) (by omega)
        rw [Nat.add_sub_cancel' hle] at hka
        exact ha.elim hka.1 hka.2
      exact ⟨rfl, fun a ha => hout a (.inl ha), fun a ha hp => (hout a (.inr ha)).trans hp⟩

theorem spares_writes (ht : TablesApart m l1Pfn) {ws : List DmaWrite}
    (hws : ∀ w ∈ ws, w.Safe l1Pfn A m) : Spares l1Pfn A m (ws.foldl (DmaWrite.apply l1Pfn) m) := by
  induction ws generalizing m with
  | nil => exact Spares.refl l1Pfn A m
  | cons w ws ih =>
    obtain ⟨hw, hws⟩ := List.forall_mem_cons.mp hws
    have hfirst := spares_write ht hw
    exact hfirst.trans (ih (hfirst.apart ht) fun w' hw' => hfirst.safe (hws w' hw'))

theorem patterned_writes (hb : DmaBuf.Mapped b m l1Pfn) (ht : TablesApart m l1Pfn) {ws : List DmaWrite}
    (hws : ∀ w ∈ ws, w.Safe l1Pfn A m) (hframe : .frame b.dmaAddr ∈ ws)
    (hA : A (b.hostAddr k / 4096)) (hk : k < IPU4_FRAME_PATTERN_BYTES) (hin : k < b.nPages * 4096) :
    Patterned (ws.foldl (DmaWrite.apply l1Pfn) m) (b.hostAddr k) := by
  induction ws generalizing m with
  | nil => cases hframe
  | cons w ws ih =>
    obtain ⟨hw, hws⟩ := List.forall_mem_cons.mp hws
    have hfirst := spares_write ht hw
    have hrest : ∀ w' ∈ ws, w'.Safe l1Pfn A (w.apply l1Pfn m) := fun w' hw' =>
      hfirst.safe (hws w' hw')
    rcases List.mem_cons.mp hframe with rfl | hframe
    · have hfilled : Patterned (DmaWrite.apply l1Pfn m (.frame b.dmaAddr)) (b.hostAddr k) :=
        patterned_patternLoop hb ht (by decide) rfl (Nat.zero_le k) hk hin
          (Nat.lt_of_lt_of_le hk (by decide))
      exact (spares_writes (hfirst.apart ht) hrest).patterned _ hA hfilled
    · exact ih (hfirst.mapped hb) (hfirst.apart ht) hrest hframe

end

-- ---------------------------------------------------------------------------
-- The writes of one register write
-- ---------------------------------------------------------------------------

def Guest.responseWrites (g : Guest) (resp : RespInfo) : List DmaWrite :=
  match respSlot g.dma g.dev with
  | none => []
  | some iova => [.response iova resp]

def Guest.pinWrites (stream : Nat) : Nat → List OutputPin → Guest → List DmaWrite
  | _, [], _ => []
  | i, pin :: pins, g =>
    if pin.addr = 0 then Guest.pinWrites stream (i + 1) pins g
    else
      let filled := g.writePattern pin.addr 0
      let resp : RespInfo := ⟨.pinDataReady, stream, i, pin⟩
      .frame pin.addr :: (filled.responseWrites resp ++
        Guest.pinWrites stream (i + 1) pins (filled.postResponseFull resp))

def Guest.frameWrites (g : Guest) (stream frameBuffSetIova : Nat) : List DmaWrite :=
  match g.dma.pins frameBuffSetIova with
  | none => []
  | some pins =>
    let g := { g with dev := { g.dev with
      csi2PartStatus := g.dev.csi2PartStatus ||| CSI2_PART_IRQ_FS_VC0
      isUnispartIrqStatus := g.dev.isUnispartIrqStatus ||| ISYS_UNISPART_IRQ_CSI2_PORT0 } }
    g.responseWrites ⟨.frameSof, stream, 0, ⟨0, 0⟩⟩ ++
      Guest.pinWrites stream 0 pins (g.postResponse .frameSof stream)

def Guest.tokenWrites (stream : Nat) (g : Guest) (token : SendToken) : List DmaWrite :=
  let g := { g with dev := { g.dev with dispatched := g.dev.dispatched ++ [(stream, token)] } }
  let ack := fun type => g.responseWrites ⟨type, stream, 0, ⟨0, 0⟩⟩
  match token.sendType with
  | .streamOpen => ack .streamOpenDone
  | .streamStart => ack .streamStartAck
  | .streamStartAndCapture => ack .streamStartAndCaptureAck ++
      (g.postResponse .streamStartAndCaptureAck stream).frameWrites stream token.payload
  | .streamCapture => g.frameWrites stream token.payload
  | .streamFlush => ack .streamFlushAck
  | .streamClose => ack .streamCloseAck
  | .streamStop => []
  | .other _ => []

def Guest.bumpWrites (q : SysQueue) (stream : Nat) : Nat → Nat → Guest → List DmaWrite
  | 0, _, _ => []
  | pushed + 1, slot, g =>
    match readToken g.dma q slot with
    | none => Guest.bumpWrites q stream pushed ((slot + 1) % q.size) g
    | some token => g.tokenWrites stream token ++
        Guest.bumpWrites q stream pushed ((slot + 1) % q.size) (g.dispatch stream token)

def Guest.sendBumpWrites (g : Guest) (stream newWr : Nat) : List DmaWrite :=
  let (s, q) := ipu4GetSendQueue g.dma g.dev stream
  let prev := s.isSendWrSeen stream
  match q with
  | none => []
  | some q =>
    if q.size = 0 ∨ newWr = prev then []
    else Guest.bumpWrites q stream (pushed q newWr prev) prev
      { g with dev := { s with isSendWrSeen := Function.update s.isSendWrSeen stream newWr } }

/-- The register takes the value; what a new cursor makes of it comes after. -/
def Guest.dmemPut (g : Guest) (reg val : Nat) : Guest :=
  let s := g.dev
  let s := if reg = SYSCOM_CONFIG_REG then
      { s with
        syscomConfigIova := val
        isSendQ := fun _ => none
        isRecvQ := none
        isSendWrSeen := fun _ => 0 }
    else s
  let s := if reg = SYSCOM_STATE_REG ∧ val = SYSCOM_STATE_UNINIT then
      { s with isSendWrSeen := fun _ => 0 }
    else s
  { g with dev := { s with isDmem := Function.update s.isDmem reg val } }

def Guest.dmemWrites (g : Guest) (reg val : Nat) : List DmaWrite :=
  if 10 ≤ reg ∧ reg < 10 + IPU4_MAX_MSG_STREAMS * 2 ∧ (reg - 10) % 2 = 0 then
    (g.dmemPut reg val).sendBumpWrites ((reg - 10) / 2) val
  else []

/-- What lies between `g` and `g'`: these writes, and responses that tell of a frame only
if it is among them. -/
structure Did (g g' : Guest) (ws : List DmaWrite) : Prop where
  l1 : g'.l1Pfn = g.l1Pfn
  mem : g'.mem = ws.foldl (DmaWrite.apply g.l1Pfn) g.mem
  posted : ∃ news, g'.dev.posted = g.dev.posted ++ news ∧
    ∀ r ∈ news, r.type = .pinDataReady → .frame r.pin.addr ∈ ws

section
variable {g g' g'' : Guest} {ws ws' : List DmaWrite}

theorem Did.quiet (hl1 : g'.l1Pfn = g.l1Pfn) (hmem : g'.mem = g.mem)
    (hposted : g'.dev.posted = g.dev.posted) : Did g g' [] :=
  ⟨hl1, hmem, [], by rw [hposted, List.append_nil], nofun⟩

theorem Did.trans (h : Did g g' ws) (h' : Did g' g'' ws') : Did g g'' (ws ++ ws') := by
  obtain ⟨news, hnews, hframe⟩ := h.posted
  obtain ⟨news', hnews', hframe'⟩ := h'.posted
  refine ⟨h'.l1.trans h.l1, ?_, news ++ news', ?_, ?_⟩
  · rw [h'.mem, h.l1, h.mem, List.foldl_append]
  · rw [hnews', hnews, List.append_assoc]
  · intro r hr htype
    rcases List.mem_append.mp hr with hr | hr
    · exact List.mem_append_left _ (hframe r hr htype)
    · exact List.mem_append_right _ (hframe' r hr htype)

theorem Did.after (h : Did { g with dev := s } g' ws) (hposted : s.posted = g.dev.posted) :
    Did g g' ws := by
  obtain ⟨news, hnews, hframe⟩ := h.posted
  exact ⟨h.l1, h.mem, news, by rw [hnews, hposted], hframe⟩

theorem posted_getRecvQueue (dma : Dma) (s : Ipu4State) :
    (ipu4GetRecvQueue dma s).1.posted = s.posted := by
  unfold ipu4GetRecvQueue
  repeat' split
  all_goals rfl

theorem posted_getSendQueue (dma : Dma) (s : Ipu4State) (stream : Nat) :
    (ipu4GetSendQueue dma s stream).1.posted = s.posted := by
  unfold ipu4GetSendQueue
  repeat' split
  all_goals rfl

theorem posted_post (dma : Dma) (s : Ipu4State) (resp : RespInfo) :
    ∃ news, (ipu4PostResponseFull dma s resp).posted = s.posted ++ news ∧ ∀ r ∈ news, r = resp := by
  have hget := posted_getRecvQueue dma s
  unfold ipu4PostResponseFull
  generalize ipu4GetRecvQueue dma s = r at hget ⊢
  obtain ⟨s', _ | rq⟩ := r
  · exact ⟨[], by simpa using hget, nofun⟩
  · dsimp only at hget ⊢
    split
    · exact ⟨[], by simpa using hget, nofun⟩
    split
    · exact ⟨[], by simpa using hget, nofun⟩
    generalize (if rq.size ≤ s'.isDmem rq.wrReg then 0 else s'.isDmem rq.wrReg) = wr
    split
    · exact ⟨[], by simpa using hget, nofun⟩
    · exact ⟨[resp], by simp [hget], by simp⟩

theorem mem_post (g : Guest) (resp : RespInfo) :
    (g.postResponseFull resp).mem = (g.responseWrites resp).foldl (DmaWrite.apply g.l1Pfn) g.mem := by
  unfold Guest.postResponseFull Guest.responseWrites
  cases respSlot g.dma g.dev with
  | none => rfl
  | some iova => rfl

theorem did_post (g : Guest) (hresp : resp.type ≠ .pinDataReady) :
    Did g (g.postResponseFull resp) (g.responseWrites resp) := by
  obtain ⟨news, hnews, hall⟩ := posted_post g.dma g.dev resp
  refine ⟨rfl, mem_post g resp, news, hnews, fun r hr htype => ?_⟩
  rw [hall r hr] at htype
  exact absurd htype hresp

theorem did_ack (g : Guest) (type : RespType) (htype : type ≠ .pinDataReady) (stream : Nat) :
    Did g (g.postResponse type stream) (g.responseWrites ⟨type, stream, 0, ⟨0, 0⟩⟩) :=
  did_post g htype

theorem did_frame (g : Guest) (resp : RespInfo) :
    Did g ((g.writePattern resp.pin.addr 0).postResponseFull resp)
      (.frame resp.pin.addr :: (g.writePattern resp.pin.addr 0).responseWrites resp) := by
  obtain ⟨news, hnews, hall⟩ := posted_post (g.writePattern resp.pin.addr 0).dma
    (g.writePattern resp.pin.addr 0).dev resp
  refine ⟨rfl, mem_post (g.writePattern resp.pin.addr 0) resp, news, hnews, fun r hr _ => ?_⟩
  rw [hall r hr]
  exact List.mem_cons_self

theorem did_pins (g : Guest) (stream i : Nat) (pins : List OutputPin) :
    Did g (Guest.deliverPins stream i pins g) (Guest.pinWrites stream i pins g) := by
  induction pins generalizing g i with
  | nil => exact Did.quiet rfl rfl rfl
  | cons pin pins ih =>
    unfold Guest.deliverPins Guest.pinWrites
    by_cases haddr : pin.addr = 0
    · rw [if_pos haddr, if_pos haddr]
      exact ih g (i + 1)
    · rw [if_neg haddr, if_neg haddr]
      exact (did_frame g ⟨.pinDataReady, stream, i, pin⟩).trans (ih _ (i + 1))

theorem did_deliverFrame (g : Guest) (stream iova : Nat) :
    Did g (g.deliverFrame stream iova) (g.frameWrites stream iova) := by
  unfold Guest.deliverFrame Guest.frameWrites
  cases g.dma.pins iova with
  | none => exact Did.quiet rfl rfl rfl
  | some pins => exact Did.after ((did_ack _ .frameSof (by decide) stream).trans (did_pins _ stream 0 pins)) rfl

theorem did_dispatch (g : Guest) (stream : Nat) (token : SendToken) :
    Did g (g.dispatch stream token) (g.tokenWrites stream token) := by
  unfold Guest.dispatch Guest.tokenWrites
  cases token.sendType with
  | streamStartAndCapture =>
    exact Did.after ((did_ack _ .streamStartAndCaptureAck (by decide) stream).trans
      (did_deliverFrame _ _ _)) rfl
  | streamCapture => exact Did.after (did_deliverFrame _ _ _) rfl
  | streamStop | other n => exact Did.quiet rfl rfl rfl
  | streamOpen | streamStart | streamFlush | streamClose =>
    exact Did.after (did_ack _ _ (by decide) stream) rfl

theorem did_bumpLoop (g : Guest) (q : SysQueue) (stream n slot : Nat) :
    Did g (Guest.bumpLoop q stream n slot g) (Guest.bumpWrites q stream n slot g) := by
  induction n generalizing g slot with
  | zero => exact Did.quiet rfl rfl rfl
  | succ n ih =>
    unfold Guest.bumpLoop Guest.bumpWrites
    cases readToken g.dma q slot with
    | none => exact ih g _
    | some token => exact (did_dispatch g stream token).trans (ih _ _)

theorem did_handleSendBump (g : Guest) (stream newWr : Nat) :
    Did g (g.handleSendBump stream newWr) (g.sendBumpWrites stream newWr) := by
  have hget := posted_getSendQueue g.dma g.dev stream
  unfold Guest.handleSendBump Guest.sendBumpWrites
  generalize ipu4GetSendQueue g.dma g.dev stream = r at hget ⊢
  obtain ⟨s, _ | q⟩ := r
  · exact Did.quiet rfl rfl hget
  dsimp only at hget ⊢
  by_cases hsize : q.size = 0
  · rw [if_pos hsize, if_pos (.inl hsize)]
    exact Did.quiet rfl rfl hget
  by_cases hsame : newWr = s.isSendWrSeen stream
  · rw [if_neg hsize, if_pos hsame, if_pos (.inr hsame)]
    exact Did.quiet rfl rfl hget
  · rw [if_neg hsize, if_neg hsame, if_neg (not_or.mpr ⟨hsize, hsame⟩)]
    exact Did.after (did_bumpLoop _ q stream _ _) hget

theorem dmemWrite_eq (g : Guest) (reg val : Nat) :
    g.dmemWrite reg val =
      if 10 ≤ reg ∧ reg < 10 + IPU4_MAX_MSG_STREAMS * 2 ∧ (reg - 10) % 2 = 0 then
        (g.dmemPut reg val).handleSendBump ((reg - 10) / 2) val
      else g.dmemPut reg val := rfl

theorem posted_dmemPut (g : Guest) (reg val : Nat) :
    (g.dmemPut reg val).dev.posted = g.dev.posted := by
  unfold Guest.dmemPut
  dsimp only
  split <;> split <;> rfl

theorem did_dmemWrite (g : Guest) (reg val : Nat) :
    Did g (g.dmemWrite reg val) (g.dmemWrites reg val) := by
  have hput : Did g (g.dmemPut reg val) [] := Did.quiet rfl rfl (posted_dmemPut g reg val)
  rw [dmemWrite_eq]
  unfold Guest.dmemWrites
  split
  · exact hput.trans (did_handleSendBump _ _ _)
  · exact hput

end

end Ipu4.Qemu
