import Ipu4.Dma.Live
import Ipu4.Dma.RoundTrip
import Ipu4.Isys.Format
import Ipu4.Qemu.Walker
import Ipu4.Qemu.Writer

/-!
# Frames and their buffers

`ipu4_deliver_frame` writes 64 KiB from the address of each output pin on. It relies on
the walk to fail behind a smaller buffer. The walk does not fail there: what the driver
has not mapped goes to the dummy page, and what it has mapped is another buffer.
-/

namespace Ipu4.Qemu

open FwCom (SysQueue)
open Mmu
open Ipu4.Dma (LiveBuffer World Keeps LiveIn Sg SgEnv SgEnvOk ipu6DmaMapSg emptyStore framesOf)
open Runs (Reachable)
open Isys (ipu6IsysTryFmtCap videoCapture fourcc)

-- ---------------------------------------------------------------------------
-- The writes of a frame
-- ---------------------------------------------------------------------------

/-- The areas of one of the writes. -/
def DmaWrite.log (l1Pfn : Nat) (m : Memory) : DmaWrite → List Area
  | .frame base =>
    (patternTrace l1Pfn base IPU4_FRAME_PATTERN_BYTES 0 (IPU4_FRAME_PATTERN_BYTES / 4096 + 2) 0 m).log
  | .response iova resp => ((ipu4IovaToPhys m l1Pfn iova).map fun phys => ⟨phys, resp.bytes.length⟩).toList

/-- The areas of all of them, each in the memory that the ones before it leave. -/
def writeLog (l1Pfn : Nat) : List DmaWrite → Memory → List Area
  | [], _ => []
  | w :: ws, m => w.log l1Pfn m ++ writeLog l1Pfn ws (w.apply l1Pfn m)

/-- The areas that `ipu4_deliver_frame` writes. -/
def Guest.deliverLog (g : Guest) (stream frameBuffSetIova : Nat) : List Area :=
  writeLog g.l1Pfn (g.frameWrites stream frameBuffSetIova) g.mem

/-- All the bytes of the areas meet `P`. -/
def LogMeets (P : Nat → Prop) (log : List Area) : Prop :=
  ∀ area ∈ log, ∀ a, area.start ≤ a → a < area.start + area.len → P a

/-- Memory is behind every page of the device's address space. -/
def Populated (m : Memory) (l1Pfn : Nat) : Prop :=
  ∀ p pfn, frame m l1Pfn p = some pfn → ∀ o < 4096, m.backed (pfn * 4096 + o) = true

section
variable {m m' : Memory} {l1Pfn base : Nat}

theorem TablesApart.keepsWalks (h : TablesApart m l1Pfn) (base total : Nat) :
    KeepsWalks m l1Pfn base total := by
  intro p q pfn hp _ _ _
  have hno := h p pfn hp.walk
  exact ⟨fun heq => hno (.inl heq), fun heq => hno (.inr ⟨_, Nat.mod_lt _ (by decide), heq⟩)⟩

theorem Populated.backed (h : Populated m l1Pfn) (base total : Nat) : Backed m l1Pfn base total := by
  intro k a _ hphys
  rw [ipu4IovaToPhys_eq] at hphys
  obtain ⟨pfn, hpfn, rfl⟩ := Option.map_eq_some_iff.mp hphys
  exact h _ pfn hpfn _ (Nat.mod_lt _ (by decide))

/-- Byte `a` is one that a frame at `base` is written to. -/
def Hits (m : Memory) (l1Pfn base a : Nat) : Prop :=
  ∃ k, Written m l1Pfn base IPU4_FRAME_PATTERN_BYTES k ∧ ipu4IovaToPhys m l1Pfn (base + k) = some a

theorem Spares.hits_iff (h : Spares l1Pfn A m m') : Hits m' l1Pfn base a ↔ Hits m l1Pfn base a := by
  unfold Hits Written Reached
  simp only [h.frame_eq, h.walk]

theorem Spares.populated (h : Spares l1Pfn A m m') (hp : Populated m l1Pfn) : Populated m' l1Pfn := by
  intro p pfn hpfn o ho
  rw [h.backed]
  exact hp p pfn (h.frame_eq p ▸ hpfn) o ho

/-- Byte `a` is one that the write goes to. -/
def DmaWrite.Hits (m : Memory) (l1Pfn a : Nat) : DmaWrite → Prop
  | .frame base => Qemu.Hits m l1Pfn base a
  | .response iova _ => ∃ phys, ipu4IovaToPhys m l1Pfn iova = some phys ∧ phys ≤ a ∧ a < phys + 64

theorem Spares.write_hits_iff (h : Spares l1Pfn A m m') (w : DmaWrite) :
    w.Hits m' l1Pfn a ↔ w.Hits m l1Pfn a := by
  cases w with
  | frame base => exact h.hits_iff
  | response iova resp => simp only [DmaWrite.Hits, h.walk]

theorem logMeets_append {l l' : List Area} : LogMeets P (l ++ l') ↔ LogMeets P l ∧ LogMeets P l' := by
  unfold LogMeets
  simp only [List.mem_append, or_imp, forall_and]

theorem logMeets_write (ht : TablesApart m l1Pfn) (hp : Populated m l1Pfn) (P : Nat → Prop) (w : DmaWrite) :
    LogMeets P (w.log l1Pfn m) ↔ ∀ a, w.Hits m l1Pfn a → P a := by
  cases w with
  | frame base =>
    obtain ⟨m', -, hdone⟩ := pattern_done (ht.keepsWalks base IPU4_FRAME_PATTERN_BYTES)
      (hp.backed base IPU4_FRAME_PATTERN_BYTES) (Nat.le_refl _) 0
    have hlog := hdone.log
    simp only [Nat.zero_le, true_and] at hlog
    constructor
    · intro h a hhits
      obtain ⟨area, harea, hlo, hhi⟩ := (hlog a).mpr hhits
      exact h area harea a hlo hhi
    · intro h area harea a hlo hhi
      exact h a ((hlog a).mp ⟨area, harea, hlo, hhi⟩)
  | response iova resp =>
    have hlen := resp.length_bytes
    unfold LogMeets DmaWrite.log DmaWrite.Hits
    simp only [Option.mem_toList, Option.map_eq_some_iff, hlen]
    constructor
    · rintro h a ⟨phys, hwalk, hlo, hhi⟩
      exact h _ ⟨phys, hwalk, rfl⟩ a hlo hhi
    · rintro h _ ⟨phys, hwalk, rfl⟩ a hlo hhi
      exact h a ⟨phys, hwalk, hlo, hhi⟩

theorem DmaWrite.safe_of_hits {P : Nat → Prop} (hP : ∀ a, P a → ¬ IsTable m l1Pfn (a / 4096)) {w : DmaWrite}
    (hal : ∀ base, w = .frame base → base % 4096 = 0) (h : ∀ a, w.Hits m l1Pfn a → P a) :
    w.Safe l1Pfn (fun _ => False) m := by
  cases w with
  | frame base => exact hal base rfl
  | response iova resp =>
    intro phys hphys k hk
    exact ⟨hP _ (h _ ⟨phys, hphys, Nat.le_add_right _ _, by omega⟩), id⟩

/-- If `P` holds in no page table, a series of writes meets `P` exactly if each of them does
on its own. -/
theorem logMeets_writes {P : Nat → Prop} (ht : TablesApart m l1Pfn) (hp : Populated m l1Pfn)
    (hP : ∀ a, P a → ¬ IsTable m l1Pfn (a / 4096)) {ws : List DmaWrite}
    (hal : ∀ base, .frame base ∈ ws → base % 4096 = 0) :
    LogMeets P (writeLog l1Pfn ws m) ↔ ∀ w ∈ ws, ∀ a, w.Hits m l1Pfn a → P a := by
  induction ws generalizing m with
  | nil => simp [writeLog, LogMeets]
  | cons w ws ih =>
    rw [writeLog, logMeets_append, logMeets_write ht hp, List.forall_mem_cons]
    refine and_congr_right fun hfirst => ?_
    -- the first write has kept the tables, so the others are as they would be without it
    have hsafe := DmaWrite.safe_of_hits hP (fun base heq => hal base (heq ▸ List.mem_cons_self)) hfirst
    have hspares := spares_write ht hsafe
    rw [ih (hspares.apart ht) (hspares.populated hp) (fun a ha => hspares.isTable_iff.not.mpr (hP a ha))
      fun base hb => hal base (List.mem_cons_of_mem _ hb)]
    simp only [hspares.write_hits_iff]

theorem frame_not_mem_responseWrites (g : Guest) (resp : RespInfo) (base : Nat) :
    .frame base ∉ g.responseWrites resp := by
  unfold Guest.responseWrites
  cases respSlot g.dma g.dev with
  | none => exact nofun
  | some iova => simp

theorem frame_mem_pinWrites {g : Guest} {stream i : Nat} {pins : List OutputPin} :
    .frame base ∈ Guest.pinWrites stream i pins g ↔ ∃ pin ∈ pins, pin.addr ≠ 0 ∧ pin.addr = base := by
  induction pins generalizing g i with
  | nil => simp [Guest.pinWrites]
  | cons pin pins ih =>
    unfold Guest.pinWrites
    by_cases haddr : pin.addr = 0
    · simp [haddr, ih]
    · simp [haddr, ih, frame_not_mem_responseWrites, eq_comm]

theorem frame_mem_frameWrites {g : Guest} (h : g.dma.pins iova = some pins) :
    .frame base ∈ g.frameWrites stream iova ↔ ∃ pin ∈ pins, pin.addr ≠ 0 ∧ pin.addr = base := by
  unfold Guest.frameWrites
  rw [h]
  simp [frame_not_mem_responseWrites, frame_mem_pinWrites]

end

-- ---------------------------------------------------------------------------
-- The slots of the responses
-- ---------------------------------------------------------------------------

/-- The slot that the device posts to next. -/
def Ipu4State.nextSlot (s : Ipu4State) (rq : SysQueue) : Nat :=
  if rq.size ≤ s.isDmem rq.wrReg then 0 else s.isDmem rq.wrReg

/-- The device has the descriptor of `rq`, or loads it, and can post to such a queue. -/
structure Guest.Posts (g : Guest) (rq : SysQueue) : Prop where
  queue : (ipu4GetRecvQueue g.dma g.dev).2 = some rq
  size : 0 < rq.size
  token : 64 ≤ rq.tokenSize
  reg : rq.wrReg < 64

section
variable {g : Guest} {rq : SysQueue}

theorem Guest.Posts.get (h : g.Posts rq) :
    ipu4GetRecvQueue g.dma g.dev = ({ g.dev with isRecvQ := some rq }, some rq) := by
  have hq := h.queue
  unfold ipu4GetRecvQueue at hq ⊢
  cases hcached : g.dev.isRecvQ with
  | some q =>
    rw [hcached] at hq
    obtain rfl := Option.some.inj hq
    dsimp only
    rw [← hcached]
  | none =>
    rw [hcached] at hq
    dsimp only at hq ⊢
    split at hq
    · cases hq
    · next hsyscom =>
      rw [if_neg hsyscom]
      generalize g.dma.config g.dev.syscomConfigIova = cfg at hq ⊢
      cases cfg with
      | none => cases hq
      | some cfg =>
        dsimp only at hq ⊢
        generalize ipu4LoadQueueDesc g.dma cfg.outputQueue 1 = q at hq ⊢
        cases q with
        | none => cases hq
        | some q =>
          obtain rfl := Option.some.inj hq
          rfl

theorem Ipu4State.nextSlot_lt (s : Ipu4State) (h : 0 < rq.size) : s.nextSlot rq < rq.size := by
  unfold Ipu4State.nextSlot
  split <;> omega

theorem Guest.Posts.responseWrites (h : g.Posts rq) (resp : RespInfo) :
    g.responseWrites resp = [.response (slotIova rq (g.dev.nextSlot rq)) resp] := by
  have hsize : ¬ (rq.size = 0 ∨ rq.tokenSize < 64) := by
    have := h.size
    have := h.token
    omega
  unfold Guest.responseWrites respSlot
  rw [h.get]
  dsimp only
  rw [if_neg hsize, if_neg (Nat.not_le.mpr h.reg)]
  rfl

theorem Guest.Posts.loaded (h : g.Posts rq) {g' : Guest} (hq : g'.dev.isRecvQ = some rq) : g'.Posts rq where
  queue := by
    unfold ipu4GetRecvQueue
    rw [hq]
  size := h.size
  token := h.token
  reg := h.reg

theorem getRecvQueue_congr {s s' : Ipu4State} (hq : s'.isRecvQ = s.isRecvQ)
    (hc : s'.syscomConfigIova = s.syscomConfigIova) :
    (ipu4GetRecvQueue dma s').2 = (ipu4GetRecvQueue dma s).2 := by
  unfold ipu4GetRecvQueue
  rw [hq, hc]
  repeat' split
  all_goals rfl

theorem Guest.Posts.post (h : g.Posts rq) (resp : RespInfo) :
    (g.postResponseFull resp).dev.isRecvQ = some rq ∧ (g.postResponseFull resp).dev.nextSlot rq =
      if g.dma.respWrite (slotIova rq (g.dev.nextSlot rq)) then (g.dev.nextSlot rq + 1) % rq.size
      else g.dev.nextSlot rq := by
  have hsize : ¬ (rq.size = 0 ∨ rq.tokenSize < 64) := by
    have := h.size
    have := h.token
    omega
  have hdev : (g.postResponseFull resp).dev = ipu4PostResponseFull g.dma g.dev resp := rfl
  unfold ipu4PostResponseFull at hdev
  rw [h.get] at hdev
  dsimp only at hdev
  rw [if_neg hsize, if_neg (Nat.not_le.mpr h.reg)] at hdev
  change _ = if (!g.dma.respWrite (slotIova rq (g.dev.nextSlot rq))) = true then _ else _ at hdev
  have hcached : (g.postResponseFull resp).dev.isRecvQ = some rq := by
    rw [hdev]
    split <;> rfl
  refine ⟨hcached, ?_⟩
  rw [hdev]
  cases g.dma.respWrite (slotIova rq (g.dev.nextSlot rq)) with
  | false => rfl
  | true =>
    have hlt : (g.dev.nextSlot rq + 1) % rq.size < rq.size := Nat.mod_lt _ h.size
    change (if rq.size ≤ Function.update g.dev.isDmem rq.wrReg ((g.dev.nextSlot rq + 1) % rq.size) rq.wrReg then 0
      else Function.update g.dev.isDmem rq.wrReg ((g.dev.nextSlot rq + 1) % rq.size) rq.wrReg) = _
    rw [Function.update_self, if_neg (Nat.not_le.mpr hlt)]
    rfl

end

/-- What the next `n` responses, from slot `i` on, have behind the end of the page that
their slot starts in meets `P`. The cursor stays at a slot that cannot be written. -/
def SlotsCovered (m : Memory) (l1Pfn : Nat) (rq : SysQueue) (P : Nat → Prop) : Nat → Nat → Prop
  | 0, _ => True
  | n + 1, i =>
    (∀ phys, ipu4IovaToPhys m l1Pfn (slotIova rq i) = some phys →
      ∀ k < 64, 4096 ≤ slotIova rq i % 4096 + k → P (phys + k)) ∧
    ((memDma m l1Pfn).respWrite (slotIova rq i) → SlotsCovered m l1Pfn rq P n ((i + 1) % rq.size))

theorem Spares.respWrite (h : Spares l1Pfn A m m') (iova : Nat) :
    (memDma m' l1Pfn).respWrite iova = (memDma m l1Pfn).respWrite iova := by
  simp only [memDma, ipu4DmaWriteIova, h.walk]
  cases ipu4IovaToPhys m l1Pfn iova with
  | none => rfl
  | some phys => simp only [pciDmaWrite, Memory.allBacked, h.backed]

theorem Spares.slotsCovered_iff (h : Spares l1Pfn A m m') :
    SlotsCovered m' l1Pfn rq P n i ↔ SlotsCovered m l1Pfn rq P n i := by
  induction n generalizing i with
  | zero => rfl
  | succ n ih => simp only [SlotsCovered, h.walk, h.respWrite, ih]

theorem slotsCovered_stuck (hfirst : ∀ phys, ipu4IovaToPhys m l1Pfn (slotIova rq i) = some phys →
      ∀ k < 64, 4096 ≤ slotIova rq i % 4096 + k → P (phys + k))
    (hstuck : (memDma m l1Pfn).respWrite (slotIova rq i) = false) : SlotsCovered m l1Pfn rq P n i := by
  cases n with
  | zero => trivial
  | succ n => exact ⟨hfirst, fun h => absurd h (by simp [hstuck])⟩

/-- No byte of `P` is in a page table, and `P` has what a slot of the queue has in the page
that it starts in. -/
structure Ground (P : Nat → Prop) (rq : SysQueue) (g : Guest) : Prop where
  apart : TablesApart g.mem g.l1Pfn
  tables : ∀ a, P a → ¬ IsTable g.mem g.l1Pfn (a / 4096)
  posts : g.Posts rq
  slots : ∀ i < rq.size, ∀ phys, ipu4IovaToPhys g.mem g.l1Pfn (slotIova rq i) = some phys →
    ∀ k < 64, slotIova rq i % 4096 + k < 4096 → P (phys + k)

section
variable {P : Nat → Prop} {rq : SysQueue} {g g' : Guest}

theorem Ground.spared (h : Ground P rq g) (hs : Spares g.l1Pfn (fun _ => False) g.mem g'.mem)
    (hl1 : g'.l1Pfn = g.l1Pfn) (hposts : g'.Posts rq) : Ground P rq g' where
  apart := hl1 ▸ hs.apart h.apart
  tables a ha := by
    rw [hl1, hs.isTable_iff]
    exact h.tables a ha
  posts := hposts
  slots i hi phys hwalk := by
    rw [hl1, hs.walk] at hwalk
    exact h.slots i hi phys hwalk

theorem Ground.post_then (h : Ground P rq g) (resp : RespInfo) (ws : List DmaWrite)
    (hrest : Spares g.l1Pfn (fun _ => False) g.mem (g.postResponseFull resp).mem →
      ((∀ w ∈ ws, ∀ a, w.Hits g.mem g.l1Pfn a → P a) ↔
        F ∧ SlotsCovered g.mem g.l1Pfn rq P n ((g.postResponseFull resp).dev.nextSlot rq))) :
    (∀ w ∈ g.responseWrites resp ++ ws, ∀ a, w.Hits g.mem g.l1Pfn a → P a) ↔
      F ∧ SlotsCovered g.mem g.l1Pfn rq P (n + 1) (g.dev.nextSlot rq) := by
  have hlt := g.dev.nextSlot_lt h.posts.size
  have hwrites := h.posts.responseWrites resp
  have hmem := (mem_post g resp).symm
  obtain ⟨-, hnext⟩ := h.posts.post resp
  rw [hwrites] at hmem ⊢
  generalize g.dev.nextSlot rq = i at hlt hmem hnext ⊢
  -- the bytes in the first page are in the slot anyway
  have hfirst : (∀ a, DmaWrite.Hits g.mem g.l1Pfn a (.response (slotIova rq i) resp) → P a) ↔
      ∀ phys, ipu4IovaToPhys g.mem g.l1Pfn (slotIova rq i) = some phys →
        ∀ k < 64, 4096 ≤ slotIova rq i % 4096 + k → P (phys + k) := by
    constructor
    · intro hall phys hwalk k hk _
      exact hall _ ⟨phys, hwalk, Nat.le_add_right _ _, by omega⟩
    · rintro hbehind a ⟨phys, hwalk, hlo, hhi⟩
      obtain ⟨k, rfl⟩ := Nat.exists_eq_add_of_le hlo
      by_cases hpage : slotIova rq i % 4096 + k < 4096
      · exact h.slots i hlt phys hwalk k (by omega) hpage
      · exact hbehind phys hwalk k (by omega) (by omega)
  rw [List.singleton_append, List.forall_mem_cons, SlotsCovered, and_left_comm, hfirst]
  refine and_congr_right fun hbehind => ?_
  have hsafe := DmaWrite.safe_of_hits h.tables (fun _ heq => by cases heq) (hfirst.mpr hbehind)
  have hspares := spares_write h.apart hsafe
  change _ = (g.postResponseFull resp).mem at hmem
  rw [hrest (hmem ▸ hspares), hnext]
  refine and_congr_right fun _ => ?_
  have hdma : memDma g.mem g.l1Pfn = g.dma := rfl
  cases hdone : g.dma.respWrite (slotIova rq i) with
  | true => simp [hdma, hdone]
  | false => simpa [hdma, hdone] using slotsCovered_stuck hbehind (hdma ▸ hdone)

/-- The pins of a command in use. -/
def usedPins (pins : List OutputPin) : Nat := pins.countP fun pin => pin.addr ≠ 0

theorem Ground.pinWrites (h : Ground P rq g) (hq : g.dev.isRecvQ = some rq) (stream i : Nat)
    {pins : List OutputPin} (hal : ∀ pin ∈ pins, pin.addr ≠ 0 → pin.addr % 4096 = 0) :
    (∀ w ∈ Guest.pinWrites stream i pins g, ∀ a, w.Hits g.mem g.l1Pfn a → P a) ↔
      (∀ pin ∈ pins, pin.addr ≠ 0 → ∀ a, Hits g.mem g.l1Pfn pin.addr a → P a) ∧
        SlotsCovered g.mem g.l1Pfn rq P (usedPins pins) (g.dev.nextSlot rq) := by
  induction pins generalizing g i with
  | nil => simp [Guest.pinWrites, usedPins, SlotsCovered]
  | cons pin pins ih =>
    have hal' := fun pin' hmem => hal pin' (List.mem_cons_of_mem _ hmem)
    unfold Guest.pinWrites
    by_cases haddr : pin.addr = 0
    · rw [if_pos haddr, ih h hq (i + 1) hal', List.forall_mem_cons]
      simp [usedPins, haddr]
    · have hcount : usedPins (pin :: pins) = usedPins pins + 1 := by simp [usedPins, haddr]
      rw [if_neg haddr, List.forall_mem_cons, List.forall_mem_cons, hcount, and_assoc, imp_iff_right haddr]
      refine and_congr_right fun hframe => ?_
      -- the frame has kept the tables
      have hfilled : Spares g.l1Pfn (fun _ => False) g.mem (g.writePattern pin.addr 0).mem :=
        spares_write h.apart (w := .frame pin.addr) (hal pin List.mem_cons_self haddr)
      have hground := h.spared hfilled rfl (h.posts.loaded hq)
      let resp : RespInfo := ⟨.pinDataReady, stream, i, pin⟩
      obtain ⟨hloaded, -⟩ := hground.posts.post resp
      have hthen := hground.post_then resp (n := usedPins pins)
        (Guest.pinWrites stream (i + 1) pins ((g.writePattern pin.addr 0).postResponseFull resp))
        (F := ∀ pin ∈ pins, pin.addr ≠ 0 → ∀ a, Hits g.mem g.l1Pfn pin.addr a → P a) fun hs => ?_
      · rw [← hfilled.slotsCovered_iff]
        simp only [← hfilled.write_hits_iff]
        exact hthen
      · have hih := ih (hground.spared hs rfl (h.posts.loaded hloaded)) hloaded (i + 1) hal'
        have hall : Spares g.l1Pfn (fun _ => False) g.mem _ := hfilled.trans hs
        change (∀ w : DmaWrite, w ∈ _ → ∀ a, w.Hits _ g.l1Pfn a → P a) ↔
          (∀ pin ∈ pins, pin.addr ≠ 0 → ∀ a, Hits _ g.l1Pfn pin.addr a → P a) ∧
            SlotsCovered _ g.l1Pfn rq P _ _ at hih
        change (∀ w : DmaWrite, w ∈ _ → ∀ a, w.Hits _ g.l1Pfn a → P a) ↔ _ ∧ SlotsCovered _ g.l1Pfn rq P _ _
        rw [hall.slotsCovered_iff] at hih
        rw [hfilled.slotsCovered_iff]
        simp only [hall.write_hits_iff, hall.hits_iff] at hih
        simp only [hfilled.write_hits_iff]
        exact hih

theorem Ground.frameWrites (h : Ground P rq g) {pins : List OutputPin} (hpins : g.dma.pins iova = some pins)
    (stream : Nat) (hal : ∀ pin ∈ pins, pin.addr ≠ 0 → pin.addr % 4096 = 0) :
    (∀ w ∈ g.frameWrites stream iova, ∀ a, w.Hits g.mem g.l1Pfn a → P a) ↔
      (∀ pin ∈ pins, pin.addr ≠ 0 → ∀ a, Hits g.mem g.l1Pfn pin.addr a → P a) ∧
        SlotsCovered g.mem g.l1Pfn rq P (usedPins pins + 1) (g.dev.nextSlot rq) := by
  unfold Guest.frameWrites
  rw [hpins]
  dsimp only
  let g' : Guest := { g with dev := { g.dev with
    csi2PartStatus := g.dev.csi2PartStatus ||| CSI2_PART_IRQ_FS_VC0
    isUnispartIrqStatus := g.dev.isUnispartIrqStatus ||| ISYS_UNISPART_IRQ_CSI2_PORT0 } }
  have hqueue : (ipu4GetRecvQueue g'.dma g'.dev).2 = (ipu4GetRecvQueue g.dma g.dev).2 :=
    getRecvQueue_congr rfl rfl
  have hposts : g'.Posts rq := ⟨hqueue.trans h.posts.queue, h.posts.size, h.posts.token, h.posts.reg⟩
  have hground : Ground P rq g' := h.spared (Spares.refl _ _ _) rfl hposts
  let resp : RespInfo := ⟨.frameSof, stream, 0, ⟨0, 0⟩⟩
  obtain ⟨hloaded, -⟩ := hposts.post resp
  refine hground.post_then resp _ fun hs => ?_
  have hspares : Spares g.l1Pfn (fun _ => False) g.mem (g'.postResponseFull resp).mem := hs
  have hpinWrites := (hground.spared hs rfl (h.posts.loaded hloaded)).pinWrites hloaded stream 0 hal
  change (∀ w : DmaWrite, w ∈ _ → ∀ a, w.Hits _ g.l1Pfn a → P a) ↔
    (∀ pin ∈ pins, pin.addr ≠ 0 → ∀ a, Hits _ g.l1Pfn pin.addr a → P a) ∧
      SlotsCovered _ g.l1Pfn rq P _ _ at hpinWrites
  rw [hspares.slotsCovered_iff] at hpinWrites
  simp only [hspares.write_hits_iff, hspares.hits_iff] at hpinWrites
  exact hpinWrites

end

-- ---------------------------------------------------------------------------
-- Inside, or not
-- ---------------------------------------------------------------------------

/-- `pfn` is a frame of a buffer that a pin names. -/
def Named (live : List LiveBuffer) (pins : List OutputPin) (pfn : Nat) : Prop :=
  ∃ pin ∈ pins, pin.addr ≠ 0 ∧ ∃ b ∈ live, b.dmaAddr = pin.addr ∧ pfn ∈ b.frames

/-- Byte `a` is in a slot of the receive queue. -/
def InSlot (g : Guest) (rq : SysQueue) (a : Nat) : Prop :=
  ∃ i < rq.size, ∃ k < rq.tokenSize, ipu4IovaToPhys g.mem g.l1Pfn (slotIova rq i + k) = some a

/-- Byte `a` is in a buffer that a pin names, or in a slot of the receive queue. -/
def Meant (g : Guest) (rq : SysQueue) (live : List LiveBuffer) (pins : List OutputPin) (a : Nat) : Prop :=
  Named live pins (a / 4096) ∨ InSlot g rq a

/-- All that is written is in the buffers that the pins name, and in the receive queue. -/
def FramesInside (g : Guest) (rq : SysQueue) (live : List LiveBuffer) (pins : List OutputPin)
    (stream iova : Nat) : Prop :=
  LogMeets (Meant g rq live pins) (g.deliverLog stream iova)

/-- Where the device finds page `j` from the start of a buffer on. -/
def pageFrom (m : MmuInfo) (b : LiveBuffer) (j : Nat) : Nat := translate m ((b.dmaAddr / 4096 + j) % 2 ^ 20)

/-- Up to 64 KiB from the start of a buffer on, and as long as the walk does not fail, what
is behind the end of the buffer or has been unmapped is in a buffer that the pins name, or
in the receive queue. -/
def Covered (m : MmuInfo) (live : List LiveBuffer) (pins : List OutputPin) (P : Nat → Prop) : Prop :=
  ∀ pin ∈ pins, pin.addr ≠ 0 → ∀ b ∈ live, b.dmaAddr = pin.addr →
    ∀ j < 16, (∀ i ≤ j, pageFrom m b i ≠ 0) →
      (b.frames.length ≤ j ∨ pageFrom m b j = m.dummyPagePteval) → ∀ o < 4096, P (4096 * pageFrom m b j + o)

/-- A capture command whose pins name live buffers, the queue for its responses, and the
memory the device finds it in. No page is a buffer's and a table's. -/
structure Command (w : World) (g : Guest) (rq : SysQueue) (pins : List OutputPin) (iova : Nat) : Prop where
  holds : Holds g.mem w.d.mmu
  l1 : g.l1Pfn = w.d.mmu.l1PtDma
  tables : TablesApart g.mem g.l1Pfn
  buffers : ∀ b ∈ w.live, ∀ pfn ∈ b.frames, ¬ IsTable g.mem g.l1Pfn pfn
  populated : Populated g.mem g.l1Pfn
  posts : g.Posts rq
  read : g.dma.pins iova = some pins
  named : ∀ pin ∈ pins, pin.addr ≠ 0 → ∃ b ∈ w.live, b.dmaAddr = pin.addr

theorem frame_mod (m : Memory) (l1Pfn p : Nat) : frame m l1Pfn p = frame m l1Pfn (p % 2 ^ 20) := by
  have h₁ : p % 2 ^ 20 / 1024 % 1024 = p / 1024 % 1024 := by omega
  have h₂ : p % 2 ^ 20 % 1024 = p % 1024 := by omega
  unfold frame
  rw [h₁, h₂]

section
variable {w : World} {g : Guest} {rq : SysQueue} {pins : List OutputPin} {iova : Nat} {b : LiveBuffer}

theorem Command.frame_eq (h : Command w g rq pins iova) (hi : Mmu.Inv w.d.mmu) (hb : BaseAddrs w.d.mmu)
    (j : Nat) : frame g.mem g.l1Pfn (b.dmaAddr / 4096 + j) =
      if pageFrom w.d.mmu b j = 0 then none else some (pageFrom w.d.mmu b j) := by
  rw [frame_mod, h.l1, Qemu.frame_eq hi hb h.holds (Nat.mod_lt _ (by decide))]
  rfl

theorem Command.hits_iff (h : Command w g rq pins iova) (hi : Mmu.Inv w.d.mmu) (hb : BaseAddrs w.d.mmu)
    (hal : b.dmaAddr % 4096 = 0) :
    Hits g.mem g.l1Pfn b.dmaAddr a ↔
      ∃ j < 16, (∀ i ≤ j, pageFrom w.d.mmu b i ≠ 0) ∧ a / 4096 = pageFrom w.d.mmu b j := by
  have hsome : ∀ i, (frame g.mem g.l1Pfn (b.dmaAddr / 4096 + i)).isSome ↔ pageFrom w.d.mmu b i ≠ 0 := by
    intro i
    rw [h.frame_eq hi hb]
    split <;> simp [*]
  constructor
  · rintro ⟨k, ⟨hk, hreached⟩, hphys⟩
    have hlt : k < 65536 := hk
    have hpage : (b.dmaAddr + k) / 4096 = b.dmaAddr / 4096 + k / 4096 := by omega
    refine ⟨k / 4096, by omega, fun i hle => (hsome i).mp (hreached _ (by omega) (by omega)), ?_⟩
    rw [ipu4IovaToPhys_eq, hpage, h.frame_eq hi hb, Option.map_eq_some_iff] at hphys
    obtain ⟨pfn, hpfn, rfl⟩ := hphys
    split at hpfn
    · cases hpfn
    · obtain rfl := Option.some.inj hpfn
      omega
  · rintro ⟨j, hj, hall, hpage⟩
    have hpos : (b.dmaAddr + (4096 * j + a % 4096)) / 4096 = b.dmaAddr / 4096 + j := by omega
    have hlt : 4096 * j + a % 4096 < 65536 := by omega
    refine ⟨4096 * j + a % 4096, ⟨hlt, fun p hp hle => ?_⟩, ?_⟩
    · have hin := (hsome (p - b.dmaAddr / 4096)).mpr (hall _ (by omega))
      rwa [Nat.add_sub_cancel' hp] at hin
    · rw [ipu4IovaToPhys_eq, hpos, h.frame_eq hi hb, if_neg (hall j (Nat.le_refl j)), Option.map_some,
        Option.some.injEq]
      omega

theorem Command.meant_apart (h : Command w g rq pins iova) (ha : Meant g rq w.live pins a) :
    ¬ IsTable g.mem g.l1Pfn (a / 4096) := by
  rcases ha with ⟨pin, -, -, b, hb, -, hpfn⟩ | ⟨i, -, k, -, hwalk⟩
  · exact h.buffers b hb _ hpfn
  · rw [ipu4IovaToPhys_eq] at hwalk
    obtain ⟨pfn, hpfn, rfl⟩ := Option.map_eq_some_iff.mp hwalk
    have hdiv : (pfn * 4096 + (slotIova rq i + k) % 4096) / 4096 = pfn := by omega
    rw [hdiv]
    exact h.tables _ pfn hpfn

theorem Command.ground (h : Command w g rq pins iova) : Ground (Meant g rq w.live pins) rq g where
  apart := h.tables
  tables _ := h.meant_apart
  posts := h.posts
  slots i hi phys hwalk k hk hpage := by
    have htoken := h.posts.token
    refine .inr ⟨i, hi, k, by omega, ?_⟩
    rw [ipu4IovaToPhys_eq] at hwalk ⊢
    obtain ⟨pfn, hpfn, rfl⟩ := Option.map_eq_some_iff.mp hwalk
    have hdiv : (slotIova rq i + k) / 4096 = slotIova rq i / 4096 := by omega
    rw [hdiv, hpfn, Option.map_some, Option.some.injEq]
    omega

theorem Command.frame_covered_iff (h : Command w g rq pins iova) (hi : Mmu.Inv w.d.mmu)
    (hb : BaseAddrs w.d.mmu) (hlive : ∀ b ∈ w.live, LiveIn w.d b) :
    (∀ pin ∈ pins, pin.addr ≠ 0 → ∀ a, Hits g.mem g.l1Pfn pin.addr a → Meant g rq w.live pins a) ↔
      Covered w.d.mmu w.live pins (Meant g rq w.live pins) := by
  constructor
  · intro hinside pin hpin hne b hbuf haddr j hj hall _ o ho
    refine hinside pin hpin hne _ ?_
    rw [← haddr, h.hits_iff hi hb (hlive b hbuf).aligned]
    exact ⟨j, hj, hall, by omega⟩
  · intro hcovered pin hpin hne a hhits
    obtain ⟨b, hbuf, haddr⟩ := h.named pin hpin hne
    rw [← haddr, h.hits_iff hi hb (hlive b hbuf).aligned] at hhits
    obtain ⟨j, hj, hall, hpage⟩ := hhits
    by_cases hout : b.frames.length ≤ j ∨ pageFrom w.d.mmu b j = w.d.mmu.dummyPagePteval
    · have hmeant := hcovered pin hpin hne b hbuf haddr j hj hall hout (a % 4096) (Nat.mod_lt _ (by decide))
      rwa [← hpage, Nat.div_add_mod] at hmeant
    · -- a page of the buffer that is still mapped
      obtain ⟨hlen, hkept⟩ := not_or.mp hout
      have hbound := (hlive b hbuf).bound
      have hmod : (b.dmaAddr / 4096 + j) % 2 ^ 20 = b.dmaAddr / 4096 + j := Nat.mod_eq_of_lt (by omega)
      have hget : b.frames[j]? = some b.frames[j] := List.getElem?_eq_getElem (by omega)
      have hown := (hlive b hbuf).pages j _ hget
      unfold pageFrom at hkept hpage
      rw [hmod] at hkept hpage
      refine .inl ⟨pin, hpin, hne, b, hbuf, haddr, ?_⟩
      rw [hpage, hown.resolve_right hkept]
      exact List.getElem_mem _

theorem Command.framesInside_iff (h : Command w g rq pins iova) (stream : Nat) (hi : Mmu.Inv w.d.mmu)
    (hb : BaseAddrs w.d.mmu) (hlive : ∀ b ∈ w.live, LiveIn w.d b) :
    FramesInside g rq w.live pins stream iova ↔ Covered w.d.mmu w.live pins (Meant g rq w.live pins) ∧
      SlotsCovered g.mem g.l1Pfn rq (Meant g rq w.live pins) (usedPins pins + 1) (g.dev.nextSlot rq) := by
  have hpins : ∀ pin ∈ pins, pin.addr ≠ 0 → pin.addr % 4096 = 0 := by
    intro pin hpin hne
    obtain ⟨b, hbuf, haddr⟩ := h.named pin hpin hne
    rw [← haddr]
    exact (hlive b hbuf).aligned
  have hal : ∀ base, .frame base ∈ g.frameWrites stream iova → base % 4096 = 0 := by
    intro base hbase
    obtain ⟨pin, hpin, hne, rfl⟩ := (frame_mem_frameWrites h.read).mp hbase
    exact hpins pin hpin hne
  unfold FramesInside Guest.deliverLog
  rw [logMeets_writes h.tables h.populated (fun _ => h.meant_apart) hal, h.ground.frameWrites h.read stream hpins,
    h.frame_covered_iff hi hb hlive]

-- ---------------------------------------------------------------------------
-- Over whole runs
-- ---------------------------------------------------------------------------

theorem l2MapTable_sameBase (m : MmuInfo) (env : Nat → PageEnv) (i : Nat) :
    SameBase m (l2MapTable m env i).1 := by
  unfold l2MapTable
  split
  · cases hvirt : l2Virt m env i with
    | none => exact ⟨rfl, rfl, rfl⟩
    | some r =>
      obtain ⟨m', pt⟩ := r
      have hsame : SameBase m m' := by
        unfold l2Virt at hvirt
        split at hvirt
        · obtain ⟨rfl, -⟩ := Prod.mk.inj (Option.some.inj hvirt)
          exact ⟨rfl, rfl, rfl⟩
        · split at hvirt
          · cases hvirt
          · obtain ⟨rfl, -⟩ := Prod.mk.inj (Option.some.inj hvirt)
            exact ⟨rfl, rfl, rfl⟩
      dsimp only
      split
      · exact ⟨hsame.l1, hsame.dummyL2, hsame.dummyPage⟩
      · exact ⟨hsame.l1, hsame.dummyL2, hsame.dummyPage⟩
  · exact ⟨rfl, rfl, rfl⟩

theorem keeps_baseAddrs : Keeps BaseAddrs where
  map m env iova paddr size h := by
    refine mmuMap_keeps (fun m i _ hm => ?_) (fun m m' hk hm => ?_) h iova paddr size
    · exact (l2MapTable_sameBase m env i).addrs hm
    · exact ⟨hk.l1PtDma ▸ hm.l1, hk.dummyL2 ▸ hm.dummyL2, hk.dummyPage ▸ hm.dummyPage⟩
  unmap m iova size h := by
    have hk := (written_mmuUnmap m iova size).kept
    exact ⟨hk.l1PtDma ▸ h.l1, hk.dummyL2 ▸ h.dummyL2, hk.dummyPage ▸ h.dummyPage⟩

/-- The driver has its tables, and no buffer yet. -/
structure Boots (w : World) : Prop where
  begins : w.Begins
  base : BaseAddrs w.d.mmu

theorem ok_reachable (hrun : Reachable Boots World.Step w) : w.Ok ∧ BaseAddrs w.d.mmu :=
  hrun.invariant (I := fun w => w.Ok ∧ BaseAddrs w.d.mmu) (fun _ hb => ⟨hb.begins.ok, hb.base⟩)
    fun _ _ _ hi hs => ⟨hi.1.step hs, keeps_baseAddrs.call hi.2 hs.calls⟩

/-- In every state that the calls of the driver lead to: what a capture command has
written is in its buffers and in the receive queue if and only if the 64 KiB from the start
of each buffer are covered, and what its responses have behind the end of a page. -/
theorem framesInside_iff_covered (hrun : Reachable Boots World.Step w) (h : Command w g rq pins iova)
    (stream : Nat) :
    FramesInside g rq w.live pins stream iova ↔ Covered w.d.mmu w.live pins (Meant g rq w.live pins) ∧
      SlotsCovered g.mem g.l1Pfn rq (Meant g rq w.live pins) (usedPins pins + 1) (g.dev.nextSlot rq) := by
  obtain ⟨hok, hbase⟩ := ok_reachable hrun
  exact h.framesInside_iff stream hok.domain.inv hbase hok.live

end

-- ---------------------------------------------------------------------------
-- A small buffer and a large one
-- ---------------------------------------------------------------------------

/-- The page of the command, a buffer of the smallest image, and one of 64 KiB. -/
def commandSgl : List Sg := [⟨0, 4096 * 51, 4096⟩]
def smallSgl : List Sg := [⟨0, 4096 * 50, 1088⟩]
def largeSgl : List Sg := [⟨0, 4096 * 64, 65536⟩]

def commandEnv : SgEnv := ⟨some 900, plainTables 1⟩
def smallEnv : SgEnv := ⟨some 800, fun _ => ⟨none, none⟩⟩
def largeEnv : SgEnv := ⟨some 100, fun _ => ⟨none, none⟩⟩

def withCommand : Dma.Ipu6Mmu := ((ipu6DmaMapSg emptyStore commandEnv commandSgl).get rfl).1
def withSmall : Dma.Ipu6Mmu := ((ipu6DmaMapSg withCommand smallEnv smallSgl).get rfl).1
def withLarge : Dma.Ipu6Mmu := ((ipu6DmaMapSg withSmall largeEnv largeSgl).get rfl).1

theorem run_command : ipu6DmaMapSg emptyStore commandEnv commandSgl =
    some (withCommand, [⟨0, 4096 * 900, 4096⟩], 1) := rfl

theorem run_small : ipu6DmaMapSg withCommand smallEnv smallSgl =
    some (withSmall, [⟨0, 4096 * 800, 1088⟩], 1) := rfl

theorem run_large : ipu6DmaMapSg withSmall largeEnv largeSgl =
    some (withLarge, [⟨0, 4096 * 100, 65536⟩], 1) := rfl

def commandBuffer : LiveBuffer := ⟨[51], 4096 * 900⟩
def smallBuffer : LiveBuffer := ⟨[50], 4096 * 800⟩
def largeBuffer : LiveBuffer := ⟨List.range' 64 16, 4096 * 100⟩

def largeWorld : World := ⟨withLarge, [largeBuffer, smallBuffer, commandBuffer]⟩

theorem boots_emptyStore : Boots ⟨emptyStore, []⟩ :=
  ⟨⟨Dma.begun_emptyStore, rfl⟩, ⟨by decide, by decide, by decide⟩⟩

theorem sgEnvOk_command : SgEnvOk emptyStore commandEnv commandSgl where
  iova := by
    rintro _ ⟨⟩
    exact ⟨by decide, by decide, by simp [emptyStore]⟩
  tables := fresh_plainTables (by omega)
  phys := by decide

theorem sgEnvOk_small : SgEnvOk withCommand smallEnv smallSgl where
  iova := by
    rintro _ ⟨⟩
    refine ⟨by decide, by decide, fun p hlo hhi r hr => ?_⟩
    obtain rfl := List.mem_singleton.mp (show r ∈ [⟨900, 900⟩] from hr)
    have hlt : p < 801 := hhi
    simp only [Dma.Iova.Mem]
    omega
  tables := fun _ _ _ hdma => by cases hdma
  phys := by decide

theorem sgEnvOk_large : SgEnvOk withSmall largeEnv largeSgl where
  iova := by
    rintro _ ⟨⟩
    refine ⟨by decide, by decide, fun p hlo hhi r hr => ?_⟩
    have hlt : p < 116 := hhi
    rcases List.mem_pair.mp (show r ∈ [⟨800, 800⟩, ⟨900, 900⟩] from hr) with rfl | rfl
    · simp only [Dma.Iova.Mem]
      omega
    · simp only [Dma.Iova.Mem]
      omega
  tables := fun _ _ _ hdma => by cases hdma
  phys := by decide

theorem largeWorld_calls : Reachable Boots World.Step largeWorld ∧ Reachable Dma.Begun Dma.Calls withLarge := by
  have hok := boots_emptyStore.begins.ok
  have hcommand := hok.mapSg sgEnvOk_command run_command (by decide)
  have hok := hok.step hcommand
  have hsmall := hok.mapSg sgEnvOk_small run_small (by decide)
  have hok := hok.step hsmall
  have hlarge := hok.mapSg sgEnvOk_large run_large (by decide)
  exact ⟨.step (.step (.step (.init boots_emptyStore) hcommand) hsmall) hlarge,
    .step (.step (.step (.init Dma.begun_emptyStore) (Dma.calls_mapSg sgEnvOk_command run_command))
      (Dma.calls_mapSg sgEnvOk_small run_small)) (Dma.calls_mapSg sgEnvOk_large run_large)⟩

theorem translate_large (p : Nat) : translate withLarge.mmu p =
    if 100 ≤ p ∧ p < 116 then 64 + (p - 100) else if p = 800 then 50 else if p = 900 then 51 else 10 := by
  have hok := boots_emptyStore.begins.ok
  obtain ⟨_, ⟨⟩, hcommand⟩ := Dma.mapSg_placed hok.domain sgEnvOk_command run_command (by decide)
  have hok := hok.step (hok.mapSg sgEnvOk_command run_command (by decide))
  obtain ⟨_, ⟨⟩, hsmall⟩ := Dma.mapSg_placed hok.domain sgEnvOk_small run_small (by decide)
  have hok := hok.step (hok.mapSg sgEnvOk_small run_small (by decide))
  obtain ⟨_, ⟨⟩, hlarge⟩ := Dma.mapSg_placed hok.domain sgEnvOk_large run_large (by decide)
  have hcount : Dma.npages largeSgl = 16 ∧ Dma.npages smallSgl = 1 ∧ Dma.npages commandSgl = 1 := by
    decide
  have hframes : framesOf largeSgl = (List.range 16).map fun k => 64 + k := rfl
  split
  · next hin =>
    obtain ⟨k, rfl⟩ := Nat.exists_eq_add_of_le hin.1
    refine hlarge.placed.frames hlarge.length ?_
    rw [hframes, Nat.add_sub_cancel_left, List.getElem?_map, List.getElem?_range (by omega)]
    rfl
  rw [hlarge.rest p (by omega)]
  split
  · next heq =>
    subst heq
    exact hsmall.placed.frames (k := 0) hsmall.length rfl
  rw [hsmall.rest p (by omega)]
  split
  · next heq =>
    subst heq
    exact hcommand.placed.frames (k := 0) hcommand.length rfl
  · rw [hcommand.rest p (by omega)]
    simp only [Mmu.translate, inv_emptyMmu.2, emptyStore]
    rfl

-- ---------------------------------------------------------------------------
-- The memory of these tables
-- ---------------------------------------------------------------------------

/-- The tables by frame, and the command: its first pin has the address `addr`. -/
def largeTable (addr pfn : Nat) : Option (Nat → Nat) :=
  let m := withLarge.mmu
  if pfn = 12 then some m.l1Pt
  else if pfn = 11 then some m.dummyL2Pt
  else if pfn = 20 then (m.l2Pts 0).map L2Pt.pte
  else if pfn = 51 then some fun j => if j = 2 then addr else 0
  else none

/-- The receive queue, behind the command in its page. -/
def largeQueue : SysQueue where
  hostAddress := 0
  viedAddress := 4096 * 900 + 1024
  size := 16
  tokenSize := 64
  wrReg := 28
  rdReg := 29

def largeGuest (addr : Nat) : Guest where
  dev := ⟨fun _ => 0, 0, fun _ => none, some largeQueue, fun _ => 0, 0, 0, 0,
    fun _ => ⟨.streamOpenDone, 0, 0, ⟨0, 0⟩⟩, [], []⟩
  l1Pfn := 12
  mem := tableMemory (largeTable addr)

def onePin (addr : Nat) : List OutputPin := ⟨0, addr⟩ :: List.replicate 5 ⟨0, 0⟩

theorem l2Pts_large (h : withLarge.mmu.l2Pts i = some pt) : i = 0 ∧ pt.dma / 4096 = 20 := by
  have honly : ∀ i < 1024, i ≠ 0 → (withLarge.mmu.l2Pts i).isNone := by decide +kernel
  have hdma : (withLarge.mmu.l2Pts 0).map (fun pt => pt.dma / 4096) = some 20 := by decide +kernel
  have hlt : i < 1024 := by
    by_contra hge
    rw [Dma.slots_reachable largeWorld_calls.2 (Nat.not_lt.mp hge)] at h
    cases h
  obtain rfl : i = 0 := by
    by_contra hne
    have hnone := honly i hlt hne
    rw [h] at hnone
    cases hnone
  rw [h] at hdma
  exact ⟨rfl, Option.some.inj hdma⟩

theorem holds_large (addr : Nat) : Holds (largeGuest addr).mem withLarge.mmu where
  l1 := by
    refine tableIn_tableMemory rfl fun j _ => ?_
    have hi := (Dma.domain_reachable largeWorld_calls.2).inv
    cases htab : withLarge.mmu.l2Pts j with
    | none =>
      rw [hi.empty j htab]
      decide
    | some pt =>
      rw [hi.entry j pt htab, (l2Pts_large htab).2]
      decide
  dummy := by
    refine tableIn_tableMemory rfl fun j _ => ?_
    rw [(Dma.domain_reachable largeWorld_calls.2).inv.dummyTable]
    decide
  tables := fun i pt hpt => by
    obtain ⟨rfl, hdma⟩ := l2Pts_large hpt
    rw [hdma]
    refine tableIn_tableMemory (show (withLarge.mmu.l2Pts 0).map L2Pt.pte = some pt.pte by rw [hpt]; rfl)
      fun j hj => ?_
    have hlt : translate withLarge.mmu j < 2 ^ 32 := by
      rw [translate_large]
      split
      · omega
      split
      · omega
      split <;> omega
    have hdiv : j / 1024 = 0 := by omega
    have hmod : j % 1024 = j := by omega
    simpa only [Mmu.translate, hdiv, hmod, hpt] using hlt

theorem frame_large (addr p : Nat) :
    frame (largeGuest addr).mem 12 p = some (translate withLarge.mmu (p % 2 ^ 20)) := by
  have hbase : BaseAddrs withLarge.mmu := ⟨by decide, by decide, by decide⟩
  have hframe := frame_eq (Dma.domain_reachable largeWorld_calls.2).inv hbase (holds_large addr)
    (Nat.mod_lt p (by decide : 0 < 2 ^ 20))
  rw [frame_mod]
  refine hframe.trans (if_neg ?_)
  rw [translate_large]
  split
  · omega
  split
  · omega
  split <;> omega

theorem isTable_large (h : IsTable (largeGuest addr).mem 12 pfn) : pfn = 11 ∨ pfn = 12 ∨ pfn = 20 := by
  have hi := (Dma.domain_reachable largeWorld_calls.2).inv
  rcases h with rfl | ⟨i, hlt, hread⟩
  · exact .inr (.inl rfl)
  · have hentry : withLarge.mmu.l1Pt i = 11 ∨ withLarge.mmu.l1Pt i = 20 := by
      cases htab : withLarge.mmu.l2Pts i with
      | none => exact .inl (hi.empty i htab)
      | some pt => exact .inr ((hi.entry i pt htab).trans (l2Pts_large htab).2)
    have hl1 : readPte (largeGuest addr).mem 12 i = _ := (holds_large addr).l1.readPte hlt
    rw [hl1, if_neg (by omega)] at hread
    obtain rfl := Option.some.inj hread
    exact hentry.imp_right .inr

theorem tablesApart_large (addr : Nat) : TablesApart (largeGuest addr).mem 12 := by
  intro p pfn hpfn htable
  have htables := isTable_large htable
  rw [frame_large, Option.some.injEq, translate_large] at hpfn
  split at hpfn
  · omega
  split at hpfn
  · omega
  split at hpfn <;> omega

theorem mem_largeWorld (h : b ∈ largeWorld.live) : b = largeBuffer ∨ b = smallBuffer ∨ b = commandBuffer := by
  simpa [largeWorld] using h

theorem frames_large (hb : b ∈ largeWorld.live) (h : pfn ∈ b.frames) : 50 ≤ pfn := by
  obtain rfl | rfl | rfl := mem_largeWorld hb
  · obtain ⟨hlo, -⟩ := List.mem_range'_1.mp h
    omega
  · exact (List.mem_singleton.mp h).ge
  · exact Nat.le_of_succ_le (List.mem_singleton.mp h).ge

theorem command_large (addr : Nat) (hread : (largeGuest addr).dma.pins (4096 * 900) = some (onePin addr))
    (hnamed : ∃ b ∈ largeWorld.live, b.dmaAddr = addr) :
    Command largeWorld (largeGuest addr) largeQueue (onePin addr) (4096 * 900) where
  holds := holds_large addr
  l1 := rfl
  tables := tablesApart_large addr
  buffers b hb pfn hpfn htable := by
    have hframe := frames_large hb hpfn
    have htables := isTable_large htable
    omega
  populated := fun _ _ _ _ _ => rfl
  posts := ⟨rfl, by decide, by decide, by decide⟩
  read := hread
  named pin hpin hne := by
    rcases List.mem_cons.mp hpin with rfl | hpin
    · exact hnamed
    · obtain rfl := List.eq_of_mem_replicate hpin
      exact absurd rfl hne

theorem slot_large (hi : i < 16) (hk : k < 64) :
    slotIova largeQueue i % 4096 + k < 4096 ∧ (slotIova largeQueue i + k) / 4096 = 900 := by
  have hslot : slotIova largeQueue i = 4096 * 900 + 1024 + i * 64 :=
    Nat.mod_eq_of_lt (show 4096 * 900 + 1024 + i * 64 < 2 ^ 32 by omega)
  omega

theorem slotsCovered_large (hi : i < 16) : SlotsCovered m l1Pfn largeQueue P n i := by
  induction n generalizing i with
  | zero => trivial
  | succ n ih =>
    refine ⟨fun phys _ k hk hpage => ?_, fun _ => ih (Nat.mod_lt _ (by decide))⟩
    have hin := (slot_large hi hk).1
    omega

theorem pins_small : (largeGuest (4096 * 800)).dma.pins (4096 * 900) = some (onePin (4096 * 800)) := by
  decide +kernel

theorem pins_large : (largeGuest (4096 * 100)).dma.pins (4096 * 900) = some (onePin (4096 * 100)) := by
  decide +kernel

theorem mem_onePin (h : pin ∈ onePin addr) (hne : pin.addr ≠ 0) : pin = ⟨0, addr⟩ := by
  rcases List.mem_cons.mp h with rfl | h
  · rfl
  · obtain rfl := List.eq_of_mem_replicate h
    exact absurd rfl hne

theorem framesInside_large :
    FramesInside (largeGuest (4096 * 100)) largeQueue largeWorld.live (onePin (4096 * 100)) 0 (4096 * 900) := by
  have hcommand := command_large _ pins_large ⟨largeBuffer, .head _, rfl⟩
  refine (framesInside_iff_covered largeWorld_calls.1 hcommand 0).mpr ⟨?_, slotsCovered_large (by decide)⟩
  intro pin hpin hne b hb haddr j hj _ hout
  obtain rfl := mem_onePin hpin hne
  obtain rfl | rfl | rfl := mem_largeWorld hb
  · -- 16 pages, all of them mapped
    have hpage : pageFrom withLarge.mmu largeBuffer j = 64 + j := by
      have hstart : largeBuffer.dmaAddr / 4096 = 100 := rfl
      have hmod : (largeBuffer.dmaAddr / 4096 + j) % 2 ^ 20 = 100 + j := by omega
      rw [pageFrom, hmod, translate_large, if_pos (by omega), Nat.add_sub_cancel_left]
    have hdummy : withLarge.mmu.dummyPagePteval = 10 := rfl
    have hlen : largeBuffer.frames.length = 16 := rfl
    rcases hout with hout | hout
    · omega
    · have hlost : 64 + j = 10 := hpage.symm.trans hout
      omega
  · cases haddr
  · cases haddr

/-- A buffer of the smallest image the driver accepts has one page, and the frame goes on
into the dummy page. -/
theorem frames_outside_small :
    ipu6IsysTryFmtCap videoCapture ⟨fourcc 'G' 'R' 'E' 'Y', 2, 1, 0, 0⟩ =
      some ⟨fourcc 'G' 'R' 'E' 'Y', 2, 1, 64, 1088⟩ ∧
    Reachable Boots World.Step largeWorld ∧
    Command largeWorld (largeGuest (4096 * 800)) largeQueue (onePin (4096 * 800)) (4096 * 900) ∧
    ¬ FramesInside (largeGuest (4096 * 800)) largeQueue largeWorld.live (onePin (4096 * 800)) 0 (4096 * 900) := by
  have hcommand := command_large _ pins_small ⟨smallBuffer, .tail _ (.head _), rfl⟩
  obtain ⟨hok, hbase⟩ := ok_reachable largeWorld_calls.1
  refine ⟨by decide +kernel, largeWorld_calls.1, hcommand, fun hinside => ?_⟩
  obtain ⟨hcovered, -⟩ := (hcommand.framesInside_iff 0 hok.domain.inv hbase hok.live).mp hinside
  have hpages : pageFrom withLarge.mmu smallBuffer 0 = 50 ∧ pageFrom withLarge.mmu smallBuffer 1 = 10 :=
    ⟨translate_large 800, translate_large 801⟩
  have hmeant := hcovered ⟨0, 4096 * 800⟩ (.head _) (by decide) smallBuffer
    (.tail _ (.head _)) rfl 1 (by decide) (fun i hi => by
      obtain rfl | rfl : i = 0 ∨ i = 1 := by omega
      · exact fun hzero => absurd (hpages.1.symm.trans hzero) (by decide)
      · exact fun hzero => absurd (hpages.2.symm.trans hzero) (by decide)) (.inl (by decide)) 0 (by decide)
  have hpage : pageFrom largeWorld.d.mmu smallBuffer 1 = 10 := hpages.2
  rw [hpage] at hmeant
  rcases hmeant with ⟨pin, -, -, b, hb, -, hframe⟩ | ⟨i, hi, k, hk, hwalk⟩
  · have hlow := frames_large hb hframe
    omega
  · -- the slots are in frame 51
    rw [ipu4IovaToPhys_eq, (slot_large hi hk).2] at hwalk
    obtain ⟨pfn, hpfn, heq⟩ := Option.map_eq_some_iff.mp hwalk
    have hslot : frame (largeGuest (4096 * 800)).mem 12 900 = some 51 :=
      (frame_large _ _).trans (congrArg some (translate_large 900))
    obtain rfl : 51 = pfn := Option.some.inj (hslot.symm.trans hpfn)
    omega

end Ipu4.Qemu
