import Ipu4.Capture.Queue
import Ipu4.Lib.Runs
import Ipu4.Qemu.Migration
import Ipu4.Qemu.Pattern

/-!
# Frames and their numbers

The driver numbers a frame by the `FRAME_SOF` responses of its stream: a buffer that is
completed by a `PIN_DATA_READY` without a timestamp gets the count of them less one.
The device fills each buffer before it tells of it, with the pattern of number 0
whatever the count is. A buffer is what a client expects of its number exactly if the
number is a multiple of 256.

The ring of responses delivers in the order of posting, and it may lose some, since
a post does not look at the read cursor. What else happens in the guest between the
steps below is one event that leaves alone what the device has been given.
-/

namespace Ipu4.Qemu

open Capture (IPU4_ISYS_MAX_STREAMS IPU6_ISYS_OUTPUT_PINS)
open Runs (Reachable)

-- ---------------------------------------------------------------------------
-- The number of a frame
-- ---------------------------------------------------------------------------

def IPU6_ISYS_MAX_PARALLEL_SOF : Nat := 2

structure SequenceInfo where
  sequence : Nat
  timestamp : Nat
  deriving DecidableEq, Repr

/-- The counter of a stream and the table of its last frames. -/
structure StreamSeq where
  sequence : Nat
  seq : List SequenceInfo
  seqIndex : Nat
  deriving DecidableEq, Repr

/-- As `ipu6_isys_video_prepare_stream` sets it. -/
def StreamSeq.prepared : StreamSeq := ⟨0, List.replicate IPU6_ISYS_MAX_PARALLEL_SOF ⟨0, 0⟩, 0⟩

def getSofSequenceByTimestamp (st : StreamSeq) (time : Nat) : Nat :=
  if time = 0 then (st.sequence + (2 ^ 32 - 1)) % 2 ^ 32
  else
    match st.seq.find? fun e => e.timestamp = time with
    | some e => e.sequence
    | none => 0

theorem getSof_zero (st : StreamSeq) :
    getSofSequenceByTimestamp st 0 = (st.sequence + (2 ^ 32 - 1)) % 2 ^ 32 := if_pos rfl

/-- The case `FRAME_SOF` of `isys_isr_one`. -/
def StreamSeq.frameSof (st : StreamSeq) (time : Nat) : StreamSeq :=
  let sequence := (st.sequence + 1) % 2 ^ 32
  { sequence := sequence
    seq := st.seq.set st.seqIndex ⟨(sequence + (2 ^ 32 - 1)) % 2 ^ 32, time⟩
    seqIndex := (st.seqIndex + 1) % IPU6_ISYS_MAX_PARALLEL_SOF }

-- ---------------------------------------------------------------------------
-- The driver on the device
-- ---------------------------------------------------------------------------

/-- A buffer of a video node; `ipu6_isys_buf_prepare` checks the payload against the
size of the plane. -/
structure VideoBuffer where
  pages : DmaBuf
  payload : Nat
  fits : payload ≤ pages.nPages * 4096

/-- The bytes of a frame that carry the pattern. -/
def VideoBuffer.shown (b : VideoBuffer) : Nat := min b.payload IPU4_FRAME_PATTERN_BYTES

/-- A completed buffer, with the counter of the stream when it was completed. -/
structure Completion where
  buffer : VideoBuffer
  counter : Nat
  sequence : Nat
  content : List UInt8

/-- What `streamon.c` expects of a buffer. -/
def Completion.Matches (c : Completion) : Prop :=
  ∀ k < c.buffer.shown, c.content[k]? = some (UInt8.ofNat (k + c.sequence))

/-- `taken` counts the responses that the driver is past. -/
structure System where
  guest : Guest
  taken : Nat
  used : Nat → Bool
  outputPinsQueue : Nat → Nat → Option Nat
  stream : Nat → StreamSeq
  active : Nat → List VideoBuffer
  completed : List Completion

/-- The responses of the QEMU model have no timestamp. -/
def RespInfo.timestamp (_ : RespInfo) : Nat := 0

def System.bufReady (s : System) (k i pinAddr time : Nat) : System :=
  match (s.active i).reverse.find? fun b => b.pages.dmaAddr = pinAddr with
  | none => s
  | some b => { s with
      active := Function.update s.active i
        ((s.active i).reverse.eraseP fun b => b.pages.dmaAddr = pinAddr).reverse
      completed := ⟨b, (s.stream k).sequence, getSofSequenceByTimestamp (s.stream k) time,
        b.pages.hostRead s.guest.mem 0 b.shown⟩ :: s.completed }

/-- `isys_isr_one`, as far as frames go. -/
def System.isrOne (s : System) (resp : RespInfo) : System :=
  let k := resp.streamHandle
  if IPU4_ISYS_MAX_STREAMS ≤ k ∨ s.used k = false then s
  else
    match resp.type with
    | .frameSof =>
      { s with stream := Function.update s.stream k ((s.stream k).frameSof resp.timestamp) }
    | .pinDataReady =>
      if resp.pinId < IPU6_ISYS_OUTPUT_PINS then
        match s.outputPinsQueue k resp.pinId with
        | none => s
        | some i => s.bufReady k i resp.pin.addr resp.timestamp
      else s
    | _ => s

def System.pending (s : System) : List RespInfo := s.guest.dev.posted.drop s.taken

/-- `other` is all that the guest does apart from the steps named here. -/
inductive SystemEv where
  | prepare (k : Nat)
  | configure (k : Nat) (used : Bool) (pins : Nat → Option Nat)
  | activate (i : Nat) (b : VideoBuffer)
  | release (i : Nat)
  | other (g : Guest)
  | command (reg val : Nat)
  | isr (lost : Nat)

def System.next (s : System) : SystemEv → System
  | .prepare k => { s with stream := Function.update s.stream k .prepared }
  | .configure k used pins => { s with
      used := Function.update s.used k used
      outputPinsQueue := Function.update s.outputPinsQueue k pins }
  | .activate i b => { s with active := Function.update s.active i (b :: s.active i) }
  | .release i => { s with active := Function.update s.active i [] }
  | .other g => { s with guest := g }
  | .command reg val => { s with guest := s.guest.dmemWrite reg val }
  | .isr lost =>
    match s.pending[lost]? with
    | none => s
    | some resp => { s.isrOne resp with taken := s.taken + lost + 1 }

/-- The frames of memory that the device has been given to fill. -/
def System.lent (s : System) (pfn : Nat) : Prop :=
  ∃ i, ∃ b ∈ s.active i, ∃ j < b.pages.nPages, b.pages.pfn j = pfn

/-- The page table as the driver keeps it while buffers are active. -/
structure LaidOut (g : Guest) (active : Nat → List VideoBuffer) : Prop where
  tables : TablesApart g.mem g.l1Pfn
  mapped : ∀ i, ∀ b ∈ active i, b.pages.Mapped g.mem g.l1Pfn

/-- Frames go to whole pages, and the pages of response slots are in no frame of `A`. -/
def DmaWrite.Placed (l1Pfn : Nat) (A : Nat → Prop) (m : Memory) : DmaWrite → Prop
  | .frame base => base % 4096 = 0
  | .response iova _ => ∀ k < 64, ∀ a, ipu4IovaToPhys m l1Pfn (iova + k) = some a → ¬ A (a / 4096)

/-- The pages under a response slot follow each other in physical memory. -/
def DmaWrite.StaysInSlot (l1Pfn : Nat) (m : Memory) : DmaWrite → Prop
  | .frame _ => True
  | .response iova _ => FramesFollow m l1Pfn iova 64

theorem DmaWrite.Placed.safe {m : Memory} {w : DmaWrite} (h : w.Placed l1Pfn A m) (ht : TablesApart m l1Pfn)
    (hslot : w.StaysInSlot l1Pfn m) : w.Safe l1Pfn A m := by
  cases w with
  | frame base => exact h
  | response iova resp =>
    intro phys hphys k hk
    have hwalk := (moved_iff_framesFollow hphys).mpr hslot k hk
    refine ⟨?_, h k hk _ hwalk⟩
    rw [ipu4IovaToPhys_eq] at hwalk
    obtain ⟨pfn, hpfn, heq⟩ := Option.map_eq_some_iff.mp hwalk
    have hdiv : (phys + k) / 4096 = pfn := by omega
    rw [hdiv]
    exact ht _ pfn hpfn

/-- What the driver sees to. A buffer is handed over when it is mapped and nothing that
is still to come tells of its address: `stop_streaming` waits for an answer that comes after all
that. Addresses of buffers are page-aligned, and the ring shares no page with buffers. -/
def System.Allowed (s : System) : SystemEv → Prop
  | .activate _ b => b.pages.Mapped s.guest.mem s.guest.l1Pfn ∧
      ∀ r ∈ s.pending, r.type = .pinDataReady → r.pin.addr ≠ b.pages.dmaAddr
  | .other g => LaidOut g s.active ∧ g.dev.posted = s.guest.dev.posted ∧
      ∀ a, s.lent (a / 4096) → g.mem.byte a = s.guest.mem.byte a
  | .command reg val => ∀ w ∈ s.guest.dmemWrites reg val, w.Placed s.guest.l1Pfn s.lent s.guest.mem
  | _ => True

/-- No response of a command goes over the end of a page whose successor lies elsewhere. -/
def System.Meets (s : System) : SystemEv → Prop
  | .command reg val => ∀ w ∈ s.guest.dmemWrites reg val, w.StaysInSlot s.guest.l1Pfn s.guest.mem
  | _ => True

def System.Step (s : System) (e : SystemEv) (s' : System) : Prop := s.Allowed e ∧ s' = s.next e

/-- No buffer is active and none has been completed. -/
structure System.Begins (s : System) : Prop where
  tables : TablesApart s.guest.mem s.guest.l1Pfn
  active : ∀ i, s.active i = []
  completed : s.completed = []

-- ---------------------------------------------------------------------------
-- What every run keeps
-- ---------------------------------------------------------------------------

def VideoBuffer.Filled (b : VideoBuffer) (m : Memory) : Prop :=
  ∀ k < b.shown, Patterned m (b.pages.hostAddr k)

/-- Before a response tells of a buffer, the pattern is in it. -/
structure SystemInv (s : System) : Prop where
  laid : LaidOut s.guest s.active
  told : ∀ r ∈ s.pending, r.type = .pinDataReady →
    ∀ i, ∀ b ∈ s.active i, b.pages.dmaAddr = r.pin.addr → b.Filled s.guest.mem
  completed : ∀ c ∈ s.completed,
    (∀ k < c.buffer.shown, c.content[k]? = some (UInt8.ofNat k)) ∧
      c.sequence = (c.counter + (2 ^ 32 - 1)) % 2 ^ 32

theorem SystemInv.init (h : s.Begins) : SystemInv s where
  laid := ⟨h.tables, fun i b hb => by simp [h.active i] at hb⟩
  told := fun r _ _ i b hb => by simp [h.active i] at hb
  completed := by simp [h.completed]

section
variable {s : System}

theorem shown_lt_pages {b : VideoBuffer} (hk : k < b.shown) :
    k < IPU4_FRAME_PATTERN_BYTES ∧ k < b.pages.nPages * 4096 := by
  have hfits := b.fits
  unfold VideoBuffer.shown at hk
  omega

theorem lent_hostAddr {b : VideoBuffer} (hb : b ∈ s.active i) (hk : k < b.shown) :
    s.lent (b.pages.hostAddr k / 4096) := by
  have hin := (shown_lt_pages hk).2
  refine ⟨i, b, hb, k / 4096, by omega, ?_⟩
  unfold DmaBuf.hostAddr
  omega

theorem SystemInv.shrink (h : SystemInv s) {s' : System} (hguest : s'.guest = s.guest)
    (hactive : ∀ i, ∀ b ∈ s'.active i, b ∈ s.active i) (hpending : ∀ r ∈ s'.pending, r ∈ s.pending)
    (hcompleted : s'.completed = s.completed) : SystemInv s' where
  laid := by
    rw [hguest]
    exact ⟨h.laid.tables, fun i b hb => h.laid.mapped i b (hactive i b hb)⟩
  told := by
    rw [hguest]
    exact fun r hr htype i b hb => h.told r (hpending r hr) htype i b (hactive i b hb)
  completed := by
    rw [hcompleted]
    exact h.completed

theorem mem_update {f : Nat → List VideoBuffer} (h : b ∈ Function.update f i l j)
    (hl : b ∈ l → b ∈ f i) : b ∈ f j := by
  by_cases hj : j = i
  · subst hj
    rw [Function.update_self] at h
    exact hl h
  · rwa [Function.update_of_ne hj] at h

theorem mem_taken {f : Nat → List VideoBuffer} {p : VideoBuffer → Bool}
    (h : b ∈ Function.update f i ((f i).reverse.eraseP p).reverse j) : b ∈ f j :=
  mem_update h fun hin =>
    List.mem_reverse.mp (List.mem_of_mem_eraseP (List.mem_reverse.mp hin))

theorem SystemInv.activate (h : SystemInv s) (ha : s.Allowed (.activate i b)) :
    SystemInv (s.next (.activate i b)) := by
  obtain ⟨hmapped, hnew⟩ := ha
  have hcases : ∀ j, ∀ b' ∈ Function.update s.active i (b :: s.active i) j,
      b' = b ∨ b' ∈ s.active j := by
    intro j b' hb'
    by_cases hj : j = i
    · subst hj
      rw [Function.update_self] at hb'
      exact List.mem_cons.mp hb'
    · rw [Function.update_of_ne hj] at hb'
      exact .inr hb'
  refine ⟨⟨h.laid.tables, fun j b' hb' => ?_⟩, fun r hr htype j b' hb' haddr => ?_, h.completed⟩
  · rcases hcases j b' hb' with rfl | hb'
    · exact hmapped
    · exact h.laid.mapped j b' hb'
  · rcases hcases j b' hb' with rfl | hb'
    · exact absurd haddr.symm (hnew r hr htype)
    · exact h.told r hr htype j b' hb' haddr

theorem SystemInv.other (h : SystemInv s) (ha : s.Allowed (.other g)) :
    SystemInv (s.next (.other g)) := by
  obtain ⟨hlaid, hposted, hbytes⟩ := ha
  refine ⟨hlaid, fun r hr htype i b hb haddr k hk => ?_, h.completed⟩
  have hr : r ∈ s.pending := by
    have hr : r ∈ g.dev.posted.drop s.taken := hr
    rwa [hposted] at hr
  exact (hbytes _ (lent_hostAddr hb hk)).trans (h.told r hr htype i b hb haddr k hk)

theorem SystemInv.command (h : SystemInv s) (hplaced : s.Allowed (.command reg val))
    (hslots : s.Meets (.command reg val)) : SystemInv (s.next (.command reg val)) := by
  have ha : ∀ w ∈ s.guest.dmemWrites reg val, w.Safe s.guest.l1Pfn s.lent s.guest.mem :=
    fun w hw => (hplaced w hw).safe h.laid.tables (hslots w hw)
  have hdid := did_dmemWrite s.guest reg val
  have hspares : Spares s.guest.l1Pfn s.lent s.guest.mem (s.guest.dmemWrite reg val).mem := by
    rw [hdid.mem]
    exact spares_writes h.laid.tables ha
  obtain ⟨news, hnews, hframe⟩ := hdid.posted
  refine ⟨⟨?_, fun i b hb => ?_⟩, fun r hr htype i b hb haddr k hk => ?_, h.completed⟩
  · show TablesApart _ (s.guest.dmemWrite reg val).l1Pfn
    rw [hdid.l1]
    exact hspares.apart h.laid.tables
  · show b.pages.Mapped _ (s.guest.dmemWrite reg val).l1Pfn
    rw [hdid.l1]
    exact hspares.mapped (h.laid.mapped i b hb)
  · have hin := shown_lt_pages hk
    have hr : r ∈ (s.guest.dev.posted ++ news).drop s.taken := by
      rw [← hnews]
      exact hr
    rw [List.drop_append] at hr
    rcases List.mem_append.mp hr with hr | hr
    · exact hspares.patterned _ (lent_hostAddr hb hk) (h.told r hr htype i b hb haddr k hk)
    · have hwrite : .frame b.pages.dmaAddr ∈ s.guest.dmemWrites reg val := by
        rw [haddr]
        exact hframe r (List.mem_of_mem_drop hr) htype
      show Patterned (s.guest.dmemWrite reg val).mem _
      rw [hdid.mem]
      exact patterned_writes (h.laid.mapped i b hb) h.laid.tables ha hwrite (lent_hostAddr hb hk)
        hin.1 hin.2

theorem filled_content {b : VideoBuffer} {m : Memory} (h : b.Filled m) :
    ∀ k < b.shown, (b.pages.hostRead m 0 b.shown)[k]? = some (UInt8.ofNat k) := by
  intro k hk
  have hbyte : m.byte (b.pages.hostAddr k) = UInt8.ofNat k := (h k hk).trans (ofNat_hostAddr b.pages k)
  simp [DmaBuf.hostRead, hk, hbyte]

theorem SystemInv.isrOne (h : SystemInv s) (hresp : resp ∈ s.pending) (htaken : s.taken ≤ taken) :
    SystemInv { s.isrOne resp with taken := taken } := by
  have hpending : ∀ r ∈ s.guest.dev.posted.drop taken, r ∈ s.pending := by
    intro r hr
    exact (List.drop_subset_drop_left _ htaken) hr
  have hsame : SystemInv { s with taken := taken } := h.shrink rfl (fun _ _ => id) hpending rfl
  unfold System.isrOne
  dsimp only
  split
  · exact hsame
  cases htype : resp.type with
  | frameSof => exact ⟨hsame.laid, hsame.told, hsame.completed⟩
  | pinDataReady =>
    dsimp only
    split
    · cases s.outputPinsQueue resp.streamHandle resp.pinId with
      | none => exact hsame
      | some i =>
        dsimp only
        unfold System.bufReady
        cases hfind : (s.active i).reverse.find? fun b => b.pages.dmaAddr = resp.pin.addr with
        | none => exact hsame
        | some b =>
          have hb : b ∈ s.active i := List.mem_reverse.mp (List.mem_of_find?_eq_some hfind)
          have haddr : b.pages.dmaAddr = resp.pin.addr := by simpa using List.find?_some hfind
          refine ⟨⟨h.laid.tables, fun j b' hb' => h.laid.mapped j b' (mem_taken hb')⟩,
            fun r hr htype j b' hb' => h.told r (hpending r hr) htype j b' (mem_taken hb'),
            fun c hc => ?_⟩
          rcases List.mem_cons.mp hc with rfl | hc
          · exact ⟨filled_content (h.told resp hresp htype i b hb haddr), getSof_zero _⟩
          · exact h.completed c hc
    · exact hsame
  | streamOpenDone | streamStartAck | streamStartAndCaptureAck | streamFlushAck | streamCloseAck =>
    exact hsame

theorem SystemInv.step (h : SystemInv s) (hmeets : s.Meets e) (hs : s.Step e s') : SystemInv s' := by
  obtain ⟨ha, rfl⟩ := hs
  cases e with
  | prepare k => exact ⟨h.laid, h.told, h.completed⟩
  | configure k used pins => exact ⟨h.laid, h.told, h.completed⟩
  | activate i b => exact h.activate ha
  | release i =>
    refine h.shrink rfl (fun j b hb => ?_) (fun _ => id) rfl
    exact mem_update hb fun hin => by cases hin
  | other g => exact h.other ha
  | command reg val => exact h.command ha hmeets
  | isr lost =>
    simp only [System.next]
    cases hresp : s.pending[lost]? with
    | none => exact h
    | some resp =>
      have htaken : s.taken ≤ s.taken + lost + 1 := by omega
      exact h.isrOne (List.mem_of_getElem? hresp) htaken

theorem systemInv_reachable (h : Reachable System.Begins (fun s e s' => s.Meets e ∧ s.Step e s') s) :
    SystemInv s :=
  h.invariant (fun _ => SystemInv.init) fun _ _ _ hi hs => hi.step hs.1 hs.2

end

-- ---------------------------------------------------------------------------
-- What the client finds
-- ---------------------------------------------------------------------------

theorem matches_iff {c : Completion}
    (hcontent : ∀ k < c.buffer.shown, c.content[k]? = some (UInt8.ofNat k))
    (hseq : c.sequence = (c.counter + (2 ^ 32 - 1)) % 2 ^ 32) :
    c.Matches ↔ c.counter % 256 = 1 ∨ c.buffer.payload = 0 := by
  have hshown : c.buffer.payload ≠ 0 → 0 < c.buffer.shown := by
    intro hpay
    unfold VideoBuffer.shown IPU4_FRAME_PATTERN_BYTES
    omega
  constructor
  · intro hm
    by_cases hpay : c.buffer.payload = 0
    · exact .inr hpay
    · have hfirst := (hcontent 0 (hshown hpay)).symm.trans (hm 0 (hshown hpay))
      have hbytes := congrArg UInt8.toNat (Option.some.inj hfirst)
      simp only [UInt8.toNat_ofNat'] at hbytes
      left
      omega
  · rintro (hcount | hpay) k hk
    · rw [hcontent k hk, Option.some.injEq]
      refine ofNat_congr ?_
      omega
    · have hnone : c.buffer.shown = 0 := by
        unfold VideoBuffer.shown
        rw [hpay]
        exact Nat.zero_min _
      omega

/-- Along every run whose responses stay in their slots, the completed buffers have the
pattern of their number if and only if each was completed while the counter of its stream
was 1 modulo 256, or is empty. -/
theorem frames_match_iff (h : Reachable System.Begins (fun s e s' => s.Meets e ∧ s.Step e s') s) :
    (∀ c ∈ s.completed, c.Matches) ↔
      ∀ c ∈ s.completed, c.counter % 256 = 1 ∨ c.buffer.payload = 0 := by
  have hinv := systemInv_reachable h
  refine forall₂_congr fun c hc => ?_
  exact matches_iff (hinv.completed c hc).1 (hinv.completed c hc).2

-- ---------------------------------------------------------------------------
-- Two frames
-- ---------------------------------------------------------------------------

/-- A page table for the pages of the queues, of the responses and of two buffers; the
configuration and the two descriptors; two capture commands and their buffer sets. -/
def captureTable : List (Nat × Nat) :=
  [(1024, 2), (2064, 3), (2065, 4), (2080, 5), (2096, 6), (3075, 0x10040), (3076, 0x10100),
    (3106, 0x10200), (3107, 4), (3108, 16), (3109, 10), (3110, 11),
    (3146, 0x11000), (3147, 16), (3148, 64), (3149, 28), (3150, 29),
    (3202, 0x10300), (3203, 3), (3206, 0x10380), (3207, 3), (3266, 0x20000), (3298, 0x30000)]

def captureWord (w : Nat) : Nat := (captureTable.lookup w).getD 0

def captureMemory : Memory := wordMemory captureWord

def firstBuffer : VideoBuffer := ⟨⟨0x20000, 1, fun _ => 5⟩, 4096, by decide⟩

def secondBuffer : VideoBuffer := ⟨⟨0x30000, 1, fun _ => 6⟩, 4096, by decide⟩

/-- One stream with one queue on its pin 0. -/
def ready : System where
  guest := ⟨.reset, 1, captureMemory⟩
  taken := 0
  used := fun k => k = 0
  outputPinsQueue := fun k pin => if k = 0 ∧ pin = 0 then some 0 else none
  stream := fun _ => .prepared
  active := fun _ => []
  completed := []

theorem mem_captureTable (h : captureWord w ≠ 0) : (w, captureWord w) ∈ captureTable := by
  unfold captureWord at h ⊢
  cases hlookup : captureTable.lookup w with
  | none => simp [hlookup] at h
  | some v =>
    obtain ⟨l, r, hsplit, -⟩ := List.lookup_eq_some_iff.mp hlookup
    simp [hsplit]

theorem captureWord_lt (w : Nat) : captureWord w < 2 ^ 32 := by
  have hall : ∀ e ∈ captureTable, e.2 < 2 ^ 32 := by decide
  by_cases hzero : captureWord w = 0
  · rw [hzero]
    decide
  · exact hall _ (mem_captureTable hzero)

theorem readPte_wordMemory (hword : ∀ w, word w < 2 ^ 32) (pfn i : Nat) :
    readPte (wordMemory word) pfn i =
      if word (pfn * 1024 + i) = 0 then none else some (word (pfn * 1024 + i)) := by
  have hlt := hword (pfn * 1024 + i)
  have hbyte : ∀ k < 4, (wordMemory word).byte (pfn * 4096 + i * 4 + k) =
      UInt8.ofNat (word (pfn * 1024 + i) / 256 ^ k) := by
    intro k hk
    have hidx : (pfn * 4096 + i * 4 + k) / 4 = pfn * 1024 + i := by omega
    have hmod : (pfn * 4096 + i * 4 + k) % 4 = k := by omega
    simp only [wordMemory, hidx, hmod]
  have hall : (wordMemory word).allBacked (pfn * 4096 + i * 4) 4 = true := by
    simp [Memory.allBacked, wordMemory]
  have hval : dword ((List.range 4).map fun k =>
      (wordMemory word).byte (pfn * 4096 + i * 4 + k)) = word (pfn * 1024 + i) := by
    rw [List.map_congr_left fun k hk => hbyte k (List.mem_range.mp hk)]
    simp [dword, List.range_succ]
    omega
  simp only [readPte, pciDmaRead, hall, if_true, hval]

theorem readPte_capture (h : readPte captureMemory pfn i = some v) :
    (pfn * 1024 + i, v) ∈ captureTable := by
  rw [captureMemory, readPte_wordMemory captureWord_lt] at h
  split at h
  · cases h
  next hne =>
    obtain rfl := Option.some.inj h
    exact mem_captureTable hne

theorem l1_capture (hi : i < 1024) (h : readPte captureMemory 1 i = some pfn) : pfn = 2 := by
  have hall : ∀ e ∈ captureTable, e.1 < 2048 → e.2 = 2 := by decide
  exact hall _ (readPte_capture h) (by dsimp only; omega)

theorem isTable_capture (h : IsTable captureMemory 1 pfn) : pfn < 3 := by
  rcases h with rfl | ⟨i, hi, h⟩
  · decide
  · rw [l1_capture hi h]
    decide

theorem begins_ready : ready.Begins where
  tables := by
    intro page pfn hpfn htable
    have hall : ∀ e ∈ captureTable, 2048 ≤ e.1 → 3 ≤ e.2 := by decide
    change frame captureMemory 1 page = some pfn at hpfn
    rw [frame, if_neg (by decide), Option.bind_eq_some_iff] at hpfn
    obtain ⟨l2, hl2, hpfn⟩ := hpfn
    obtain rfl := l1_capture (Nat.mod_lt _ (by decide)) hl2
    have hge : 3 ≤ pfn := hall _ (readPte_capture hpfn) (by dsimp only; omega)
    exact absurd (isTable_capture htable) (by omega)
  active := fun _ => rfl
  completed := rfl

theorem mapped_capture (b : DmaBuf) (hpages : b.nPages = 1) (hal : b.dmaAddr % 4096 = 0)
    (hwalk : ipu4IovaToPhys captureMemory 1 b.dmaAddr = some (b.pfn 0 * 4096)) (hpfn : 3 ≤ b.pfn 0) :
    b.Mapped captureMemory 1 where
  aligned := hal
  walk := fun j hj => by
    obtain rfl : j = 0 := by omega
    rw [Nat.zero_mul]
    exact hwalk
  backed := fun _ _ _ _ => rfl
  distinct := fun i hi j hj _ => by omega
  tables := fun j hj => by
    obtain rfl : j = 0 := by omega
    refine ⟨by omega, fun i hi h => ?_⟩
    have htwo := l1_capture hi h
    omega

/-- Responses that stay in a page of frame 4, where no buffer is. -/
def DmaWrite.InRing (g : Guest) : DmaWrite → Bool
  | .frame base => base % 4096 = 0
  | .response iova _ => iova % 4096 + 64 ≤ 4096 ∧ Qemu.frame g.mem g.l1Pfn (iova / 4096) = some 4

theorem active_isr {s : System} (h : b ∈ (s.next (.isr lost)).active j) : b ∈ s.active j := by
  revert h
  simp only [System.next]
  cases s.pending[lost]? with
  | none => exact id
  | some resp =>
    simp only [System.isrOne]
    split
    · exact id
    cases resp.type with
    | pinDataReady =>
      dsimp only
      split
      · cases s.outputPinsQueue resp.streamHandle resp.pinId with
        | none => exact id
        | some i =>
          simp only [System.bufReady]
          cases (s.active i).reverse.find? fun b => b.pages.dmaAddr = resp.pin.addr with
          | none => exact id
          | some b => exact mem_taken
      · exact id
    | frameSof | streamOpenDone | streamStartAck | streamStartAndCaptureAck | streamFlushAck
    | streamCloseAck => exact id

/-- What the steps of the run keep. -/
structure Running (s : System) : Prop where
  reached : Reachable System.Begins (fun s e s' => s.Meets e ∧ s.Step e s') s
  apart : ∀ i, ∀ b ∈ s.active i, ∀ j, b.pages.pfn j ≠ 4

section
variable {s : System}

theorem Running.step (h : Running s) (e : SystemEv) (hmeets : s.Meets e) (ha : s.Allowed e)
    (hapart : ∀ i, ∀ b ∈ (s.next e).active i, ∀ j, b.pages.pfn j ≠ 4) : Running (s.next e) :=
  ⟨.step h.reached ⟨hmeets, ha, rfl⟩, hapart⟩

theorem Running.command (h : Running s)
    (hw : ∀ w ∈ s.guest.dmemWrites reg val, DmaWrite.InRing s.guest w = true) :
    Running (s.next (.command reg val)) := by
  have hlent : ¬ s.lent 4 := fun ⟨i, b, hb, j, _, heq⟩ => h.apart i b hb j heq
  refine h.step _ (fun w hin => ?_) (fun w hin => ?_) h.apart
  · cases w with
    | frame base => trivial
    | response iova resp =>
      -- the slot has one page
      obtain ⟨hfit, -⟩ := of_decide_eq_true (hw _ hin)
      intro _ _ j hj hlt
      omega
  · cases w with
    | frame base =>
      have hal : base % 4096 = 0 := of_decide_eq_true (hw _ hin)
      exact hal
    | response iova resp =>
      obtain ⟨hfit, hframe⟩ := of_decide_eq_true (hw _ hin)
      intro k hk a ha
      have hpage : (iova + k) / 4096 = iova / 4096 := by omega
      rw [ipu4IovaToPhys_eq, hpage, hframe] at ha
      have hdiv : a / 4096 = 4 := by
        have heq : 4 * 4096 + (iova + k) % 4096 = a := Option.some.inj ha
        omega
      rw [hdiv]
      exact hlent

theorem Running.isr (h : Running s) (lost : Nat) : Running (s.next (.isr lost)) :=
  h.step _ trivial trivial fun i b hb => h.apart i b (active_isr hb)

theorem Running.activate (h : Running s) (i : Nat) (hb : b.pages.Mapped s.guest.mem s.guest.l1Pfn)
    (hnew : s.pending = []) (hpfn : ∀ j, b.pages.pfn j ≠ 4) : Running (s.next (.activate i b)) := by
  refine h.step _ trivial ⟨hb, by simp [hnew]⟩ fun j b' hb' => ?_
  have hin : b' ∈ Function.update s.active i (b :: s.active i) j := hb'
  by_cases hj : j = i
  · subst hj
    rw [Function.update_self] at hin
    rcases List.mem_cons.mp hin with rfl | hin
    · exact hpfn
    · exact h.apart j b' hin
  · rw [Function.update_of_ne hj] at hin
    exact h.apart j b' hin

end

def given : System := (ready.next (.activate 0 firstBuffer)).next (.activate 0 secondBuffer)

def configuredRing : System := given.next (.command SYSCOM_CONFIG_REG 0x10000)

def capturedFirst : System := configuredRing.next (.command 10 1)

/-- The first frame is taken. -/
def afterFirst : System := (capturedFirst.next (.isr 0)).next (.isr 0)

def capturedSecond : System := afterFirst.next (.command 10 2)

def afterSecond : System := (capturedSecond.next (.isr 0)).next (.isr 0)

theorem running_given : Running given := by
  have hready : Running ready := ⟨.init begins_ready, fun i b hb => by cases hb⟩
  have hfirst : Running (ready.next (.activate 0 firstBuffer)) := hready.activate 0
    (mapped_capture _ rfl rfl (by decide +kernel) (by decide)) rfl nofun
  exact hfirst.activate 0 (mapped_capture _ rfl rfl (by decide +kernel) (by decide)) rfl nofun

theorem running_afterFirst : Running afterFirst := by
  have hconfig : Running configuredRing := running_given.command (by decide +kernel)
  have hcapture : Running capturedFirst := hconfig.command (by decide +kernel)
  exact (hcapture.isr 0).isr 0

theorem running_afterSecond : Running afterSecond := by
  have hcapture : Running capturedSecond :=
    running_afterFirst.command (by decide +kernel)
  exact (hcapture.isr 0).isr 0

/-- The first frame of a run. -/
theorem frames_match_first : ∃ c ∈ afterFirst.completed, c.Matches := by
  have hsome : afterFirst.completed.length ≠ 0 := by decide +kernel
  obtain ⟨c, hc⟩ := List.exists_mem_of_length_pos (Nat.pos_of_ne_zero hsome)
  exact ⟨c, hc, (frames_match_iff running_afterFirst.reached).mpr (by decide +kernel) c hc⟩

/-- The second frame has the pattern of the first. -/
theorem second_frame_mismatch :
    ¬ ∀ s, Reachable System.Begins System.Step s → ∀ c ∈ s.completed, c.Matches := by
  intro h
  have hinv := systemInv_reachable running_afterSecond.reached
  have hcounts : ∀ c ∈ afterSecond.completed, c.counter % 256 = 1 ∨ c.buffer.payload = 0 :=
    fun c hc => (matches_iff (hinv.completed c hc).1 (hinv.completed c hc).2).mp
      (h _ (running_afterSecond.reached.mono fun _ _ _ hs => hs.2) c hc)
  revert hcounts
  decide +kernel

end Ipu4.Qemu
