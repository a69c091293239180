import Ipu4.Lib.Trace
import Ipu4.Dma.Scatter

/-!
# Pages, ranges and the TLB

In which order the four functions of `ipu6-dma.c` unmap a translation, give
its page and its IOVA range back, and invalidate the TLB. Each function has a
trace of what it does, next to the state it computes; the device may hold
every translation that was live since the last invalidation, so a page or a
range is reused too early if it is given back while such a translation of it
has been unmapped. `ready` is set throughout, so `tlb_invalidate` always goes
through to the hardware.
-/

namespace Ipu4.Dma

open Mmu Ledger Trace
open Runs (Reachable)

-- ---------------------------------------------------------------------------
-- What the device may hold
-- ---------------------------------------------------------------------------

inductive Act
  | allocIova (r : Iova)
  | allocPages (pages : List Nat)
  | map (pfn : Nat) (page : Option Nat)
  | unmap (pfnLo count : Nat)
  | freePages (pages : List Nat)
  | tlbInvalidate
  | freeIova (r : Iova)
  deriving DecidableEq, Repr

/-- A page of the address space, and the page of memory it was mapped to if
`ipu6_dma_alloc` got that page itself. -/
structure Translation where
  pfn : Nat
  page : Option Nat
  deriving DecidableEq, Repr

/-- The ranges handed out, the translations in the page table, and those taken
out of it since the last invalidation. -/
structure Watch where
  ranges : List Iova
  live : List Translation
  stale : List Translation
  deriving DecidableEq, Repr

def Translation.within (pfnLo count : Nat) (u : Translation) : Bool :=
  pfnLo ≤ u.pfn && u.pfn < pfnLo + count

def Watch.next (w : Watch) : Act → Watch
  | .allocIova r => { w with ranges := r :: w.ranges }
  | .map pfn page => { w with live := ⟨pfn, page⟩ :: w.live }
  | .unmap pfnLo count =>
    { w with
      live := w.live.filter fun u => !u.within pfnLo count
      stale := w.live.filter (·.within pfnLo count) ++ w.stale }
  | .tlbInvalidate => { w with stale := [] }
  | .freeIova r => { w with ranges := w.ranges.erase r }
  | .allocPages _ | .freePages _ => w

/-- Nothing is given back that a translation used which has been unmapped and
may still be held. -/
def Watch.Allows (w : Watch) : Act → Prop
  | .freePages pages => ∀ u ∈ w.stale, ∀ page ∈ pages, u.page ≠ some page
  | .freeIova r => ∀ u ∈ w.stale, ¬ r.Mem u.pfn
  | _ => True

instance (w : Watch) : ∀ a, Decidable (w.Allows a)
  | .freePages _ | .freeIova _ => inferInstanceAs (Decidable (∀ u ∈ _, _))
  | .allocIova _ | .allocPages _ | .map .. | .unmap .. | .tlbInvalidate => instDecidableTrue

def reuse : Monitor Watch Act := ⟨Watch.next, Watch.Allows⟩

instance (w : Watch) (a : Act) : Decidable (reuse.allows w a) := inferInstanceAs (Decidable (w.Allows a))

-- ---------------------------------------------------------------------------
-- Traces of the page table
-- ---------------------------------------------------------------------------

/-- `l2_map`: the pages it got through, and the `l2_unmap` of its error path. -/
def l2MapTrace (m : MmuInfo) (env : Nat → PageEnv) (iova paddr size : Nat) (page : Option Nat) :
    List Act :=
  let c := ⟨iova, pageAlign paddr, 0, size⟩
  match l2MapTables env (l1ptPtes - l1Index iova) (l1Index iova) m c with
  | (_, c, err) =>
    (List.range (c.mapped / 4096)).map (fun k => .map (iova / 4096 + k) page) ++
      if err.isSome && c.mapped ≠ 0 then [.unmap ((c.iova - c.mapped) / 4096) (c.mapped / 4096)] else []

def mmuMapTrace (m : MmuInfo) (env : Nat → PageEnv) (iova paddr size : Nat) (page : Option Nat) :
    List Act :=
  if m.pgsizeBitmap = 0 then []
  else if !isAligned (iova ||| paddr ||| size) (minPagesz m) then []
  else l2MapTrace m env (iova / 4096 * 4096 % 2 ^ 32) paddr size page

-- ---------------------------------------------------------------------------
-- Traces of the buffers
-- ---------------------------------------------------------------------------

/-- `__alloc_buffer`, which gives back what it found when it does not find
everything. -/
def allocBufferTrace (env : AllocEnv) (size : Nat) : List Act :=
  if !env.kvzalloc then []
  else
    match allocBufferLoop env.allocPages (size / 4096) 0 (size / 4096) [] with
    | (pages, true) => [.allocPages pages]
    | (pages, false) => [.allocPages pages, .freePages pages]

def freeBufferTrace (pages : List Nat) (size : Nat) : List Act :=
  [.freePages (pages.take (size / 4096))]

def allocMapTrace (env : AllocEnv) (iova : Iova) (pages : List Nat) :
    Nat → Nat → Ipu6Mmu → List Act
  | 0, _, _ => []
  | n + 1, i, d =>
    match env.dmaMapPage i with
    | none => []
    | some addr =>
      let d := d.mapPage (pages.getD i 0) addr
      mmuMapTrace d.mmu env.tables (4096 * (iova.pfnLo + i)) addr 4096 (some (pages.getD i 0)) ++
        match ipu6MmuMap d.mmu env.tables (4096 * (iova.pfnLo + i)) addr 4096 with
        | (_, some _) => []
        | (mmu, none) => allocMapTrace env iova pages n (i + 1) { d with mmu := mmu }

def outUnmapTrace (iova : Iova) : Nat → List Act
  | 0 => []
  | i + 1 => .unmap (iova.pfnLo + i) 1 :: outUnmapTrace iova i

def dmaAllocTrace (d : Ipu6Mmu) (env : AllocEnv) (size : Nat) : List Act :=
  if !env.kzalloc then []
  else
    let size := pageAlign64 size
    let count := size / 4096
    match env.allocIova with
    | none => []
    | some pfnLo =>
      let iova := ⟨pfnLo, pfnLo + count - 1⟩
      .allocIova iova :: allocBufferTrace env size ++
        match allocBuffer { d with iovad := iova :: d.iovad } env size with
        | (_, none) => [.freeIova iova]
        | (d, some pages) =>
          allocMapTrace env iova pages (iova.pfnHi + 1 - iova.pfnLo) 0 d ++
            match allocMapLoop env iova pages (iova.pfnHi + 1 - iova.pfnLo) 0 d with
            | (_, i, mapped) =>
              match (if mapped then vmap env count else none) with
              | some _ => []
              | none => outUnmapTrace iova i ++ freeBufferTrace pages size ++ [.freeIova iova]

def dmaFreeTrace (d : Ipu6Mmu) (size dmaHandle : Nat) : List Act :=
  match findIova d.iovad (dmaHandle / 4096) with
  | none => []
  | some iova =>
    match getVmInfo d.vmaList dmaHandle with
    | none => []
    | some info =>
      if info.vaddr = 0 then []
      else
        .unmap iova.pfnLo (iova.pfnHi + 1 - iova.pfnLo) ::
          freeBufferTrace info.pages (pageAlign64 size) ++ [.tlbInvalidate, .freeIova iova]

-- ---------------------------------------------------------------------------
-- Traces of scatter lists
-- ---------------------------------------------------------------------------

def mapSgLoopTrace (env : SgEnv) : List Sg → Nat → MmuInfo → List Act
  | [], _, _ => []
  | e :: es, iovaAddr, m =>
    mmuMapTrace m env.tables (4096 * iovaAddr) e.dmaAddress (pageAlign32 e.dmaLen) none ++
      match ipu6MmuMap m env.tables (4096 * iovaAddr) e.dmaAddress (pageAlign32 e.dmaLen) with
      | (_, some _) => []
      | (m, none) => mapSgLoopTrace env es (iovaAddr + pfnUp e.dmaLen) m

def dmaUnmapSgTrace (d : Ipu6Mmu) (sgl : List Sg) (nents : Nat) : List Act :=
  let iova := sgl.head?.bind fun e => findIova d.iovad (e.dmaAddress / 4096)
  if nents = 0 then []
  else
    match iova with
    | none => []
    | some iova => [.unmap iova.pfnLo (iova.pfnHi + 1 - iova.pfnLo), .tlbInvalidate, .freeIova iova]

def dmaMapSgTrace (d : Ipu6Mmu) (env : SgEnv) (sgl : List Sg) : List Act :=
  if sgl.any fun e => e.offset ≠ 0 then []
  else
    match env.allocIova with
    | none => []
    | some pfnLo =>
      let iova := ⟨pfnLo, pfnLo + npages sgl - 1⟩
      .allocIova iova :: mapSgLoopTrace env sgl pfnLo d.mmu ++
        match mapSgLoop env sgl pfnLo d.mmu with
        | (_, _, true) => []
        | (mmu, done, false) =>
          dmaUnmapSgTrace { d with mmu := mmu, iovad := iova :: d.iovad }
            (done ++ sgl.drop done.length) done.length

-- ---------------------------------------------------------------------------
-- The four functions
-- ---------------------------------------------------------------------------

inductive Op
  | alloc (env : AllocEnv) (size : Nat)
  | free (size dmaHandle : Nat)
  | mapSg (env : SgEnv) (sgl : List Sg)
  | unmapSg (sgl : List Sg) (nents : Nat)

def Op.run (d : Ipu6Mmu) : Op → Option Ipu6Mmu
  | .alloc env size => (ipu6DmaAlloc d env size).map Prod.fst
  | .free size dmaHandle => ipu6DmaFree d size dmaHandle
  | .mapSg env sgl => (ipu6DmaMapSg d env sgl).map Prod.fst
  | .unmapSg sgl nents => (ipu6DmaUnmapSg d sgl nents).map Prod.fst

def Op.trace (d : Ipu6Mmu) : Op → List Act
  | .alloc env size => dmaAllocTrace d env size
  | .free size dmaHandle => dmaFreeTrace d size dmaHandle
  | .mapSg env sgl => dmaMapSgTrace d env sgl
  | .unmapSg sgl nents => dmaUnmapSgTrace d sgl nents

/-- What an action does to the pages held and to the IOVA domain. -/
def replay (b : Balance Nat × List Iova) : Act → Balance Nat × List Iova
  | .allocIova r => (b.1, r :: b.2)
  | .allocPages pages => (acquire b.1 pages, b.2)
  | .freePages pages => (release b.1 pages, b.2)
  | .freeIova r => (b.1, b.2.erase r)
  | .map .. | .unmap .. | .tlbInvalidate => b

/-- Actions on the page table alone. -/
def Act.OnTable : Act → Prop
  | .map .. | .unmap .. => True
  | _ => False

theorem replay_onTable {acts : List Act} (h : ∀ a ∈ acts, a.OnTable) (b : Balance Nat × List Iova) :
    acts.foldl replay b = b := by
  induction acts with
  | nil => rfl
  | cons a acts ih =>
    obtain ⟨ha, hacts⟩ := List.forall_mem_cons.mp h
    have hb : replay b a = b := by
      cases a <;> first | rfl | cases ha
    rw [List.foldl_cons, hb]
    exact ih hacts

theorem mmuMapTrace_onTable : ∀ a ∈ mmuMapTrace m env iova paddr size page, Act.OnTable a := by
  have hl2 : ∀ x, ∀ a ∈ l2MapTrace m env x paddr size page, Act.OnTable a := by
    intro x a ha
    rcases List.mem_append.mp ha with ha | ha
    · obtain ⟨k, -, rfl⟩ := List.mem_map.mp ha
      trivial
    · split at ha
      · obtain rfl := List.mem_singleton.mp ha
        trivial
      · cases ha
  unfold mmuMapTrace
  split
  · simp
  · split
    · simp
    · exact hl2 _

theorem allocMapTrace_onTable (n i : Nat) (d : Ipu6Mmu) :
    ∀ a ∈ allocMapTrace env iova pages n i d, Act.OnTable a := by
  induction n generalizing i d with
  | zero => simp [allocMapTrace]
  | succ n ih =>
    intro a ha
    unfold allocMapTrace at ha
    split at ha
    · cases ha
    · rcases List.mem_append.mp ha with ha | ha
      · exact mmuMapTrace_onTable a ha
      · split at ha
        · cases ha
        · exact ih _ _ a ha

theorem outUnmapTrace_onTable (iova : Iova) (i : Nat) : ∀ a ∈ outUnmapTrace iova i, Act.OnTable a := by
  induction i with
  | zero => simp [outUnmapTrace]
  | succ i ih => exact List.forall_mem_cons.mpr ⟨trivial, ih⟩

theorem mapSgLoopTrace_onTable (sgl : List Sg) (a : Nat) (m : MmuInfo) :
    ∀ x ∈ mapSgLoopTrace env sgl a m, Act.OnTable x := by
  induction sgl generalizing a m with
  | nil => simp [mapSgLoopTrace]
  | cons e es ih =>
    intro x hx
    rcases List.mem_append.mp hx with hx | hx
    · exact mmuMapTrace_onTable x hx
    · split at hx
      · cases hx
      · exact ih _ _ x hx

/-- The loops on the page table keep pages and ranges. -/
structure SameHeld (d d' : Ipu6Mmu) : Prop where
  pages : d'.pages = d.pages
  iovad : d'.iovad = d.iovad

theorem allocMapLoop_held (env : AllocEnv) (iova : Iova) (pages : List Nat) (n i : Nat) (d : Ipu6Mmu) :
    SameHeld d (allocMapLoop env iova pages n i d).1 := by
  induction n generalizing i d with
  | zero => exact ⟨rfl, rfl⟩
  | succ n ih =>
    simp only [allocMapLoop]
    split
    · exact ⟨rfl, rfl⟩
    · split
      · exact ⟨rfl, rfl⟩
      · obtain ⟨hp, hi⟩ := ih (i + 1) _
        exact ⟨hp, hi⟩

theorem outUnmap_held (i : Nat) (d : Ipu6Mmu) (h : outUnmap iova i d = some d') : SameHeld d d' := by
  induction i generalizing d with
  | zero =>
    obtain rfl := Option.some.inj h
    exact ⟨rfl, rfl⟩
  | succ i ih =>
    simp only [outUnmap, Option.bind_eq_bind, Option.bind_eq_some_iff] at h
    obtain ⟨addr, -, h⟩ := h
    obtain ⟨hp, hi⟩ := ih _ h
    exact ⟨hp, hi⟩

theorem freeUnmapLoop_eq (n i : Nat) (d : Ipu6Mmu) (h : freeUnmapLoop iova n i d = some d') :
    ∃ maps, d' = { d with maps := maps } := by
  induction n generalizing i d with
  | zero =>
    obtain rfl := Option.some.inj h
    exact ⟨_, rfl⟩
  | succ n ih =>
    simp only [freeUnmapLoop, Option.bind_eq_bind, Option.bind_eq_some_iff] at h
    obtain ⟨addr, -, h⟩ := h
    obtain ⟨maps, rfl⟩ := ih _ _ h
    exact ⟨maps, rfl⟩

theorem allocBuffer_replay (d : Ipu6Mmu) (env : AllocEnv) (size : Nat) :
    (allocBufferTrace env size).foldl replay (d.pages, d.iovad) =
        ((allocBuffer d env size).1.pages, (allocBuffer d env size).1.iovad) ∧
      (allocBuffer d env size).1.mmu = d.mmu := by
  unfold allocBufferTrace allocBuffer
  split
  · exact ⟨rfl, rfl⟩
  · rcases allocBufferLoop env.allocPages (size / 4096) 0 (size / 4096) [] with ⟨pages, _ | _⟩ <;>
      exact ⟨rfl, rfl⟩

/-- `kzalloc`, and every page asked for. -/
def Buffered (env : AllocEnv) (size : Nat) : Prop :=
  env.kzalloc = true ∧ env.kvzalloc = true ∧
    (allocBufferLoop env.allocPages (pageAlign64 size / 4096) 0 (pageAlign64 size / 4096) []).2 = true

/-- The ways through `ipu6_dma_alloc` once it has a range: no pages, a buffer,
or a way back out of the mapping loop. -/
inductive AllocPath (d : Ipu6Mmu) (env : AllocEnv) (size : Nat) (iova : Iova) :
    Ipu6Mmu → List Act → Prop
  | noPages : ¬ Buffered env size →
      allocBuffer { d with iovad := iova :: d.iovad } env (pageAlign64 size) = (d', none) →
      AllocPath d env size iova { d' with iovad := d'.iovad.erase iova } [.freeIova iova]
  | buffer : Buffered env size →
      allocBuffer { d with iovad := iova :: d.iovad } env (pageAlign64 size) = (d₁, some pages) →
      allocMapLoop env iova pages (iova.pfnHi + 1 - iova.pfnLo) 0 d₁ = (d₂, i, true) →
      AllocPath d env size iova { d₂ with vmaList := v :: d₂.vmaList }
        (allocMapTrace env iova pages (iova.pfnHi + 1 - iova.pfnLo) 0 d₁)
  | back : Buffered env size →
      allocBuffer { d with iovad := iova :: d.iovad } env (pageAlign64 size) = (d₁, some pages) →
      allocMapLoop env iova pages (iova.pfnHi + 1 - iova.pfnLo) 0 d₁ = (d₂, i, mapped) →
      (mapped = true → vmap env (pageAlign64 size / 4096) = none) →
      outUnmap iova i d₂ = some d₃ →
      AllocPath d env size iova
        { (freeBuffer d₃ pages (pageAlign64 size)) with iovad := d₃.iovad.erase iova }
        (allocMapTrace env iova pages (iova.pfnHi + 1 - iova.pfnLo) 0 d₁ ++
          (outUnmapTrace iova i ++ freeBufferTrace pages (pageAlign64 size) ++ [.freeIova iova]))

theorem allocBuffer_isSome (size : Nat) (hk : env.kzalloc = true) (d : Ipu6Mmu) :
    (allocBuffer d env (pageAlign64 size)).2.isSome = true ↔ Buffered env size := by
  simp only [Buffered, allocBuffer, hk, true_and]
  cases env.kvzalloc with
  | false => simp
  | true =>
    rcases allocBufferLoop env.allocPages (pageAlign64 size / 4096) 0 (pageAlign64 size / 4096) []
      with ⟨pages, _ | _⟩ <;> simp

theorem dmaAlloc_cases (h : ipu6DmaAlloc d env size = some (d', r)) :
    (d' = d ∧ dmaAllocTrace d env size = []) ∨
    ∃ lo acts, env.allocIova = some lo ∧
      dmaAllocTrace d env size = .allocIova ⟨lo, lo + pageAlign64 size / 4096 - 1⟩ ::
        allocBufferTrace env (pageAlign64 size) ++ acts ∧
      AllocPath d env size ⟨lo, lo + pageAlign64 size / 4096 - 1⟩ d' acts := by
  unfold ipu6DmaAlloc at h
  unfold dmaAllocTrace
  split at h
  · rename_i hk
    obtain ⟨rfl, -⟩ := Prod.mk.inj (Option.some.inj h)
    exact .inl ⟨rfl, if_pos hk⟩
  · rename_i hk
    rw [if_neg hk]
    cases hlo : env.allocIova with
    | none =>
      simp only [hlo] at h ⊢
      obtain ⟨rfl, -⟩ := Prod.mk.inj (Option.some.inj h)
      exact .inl ⟨rfl, trivial⟩
    | some lo =>
      simp only [hlo] at h ⊢
      refine .inr ⟨lo, _, rfl, rfl, ?_⟩
      have hbuf := allocBuffer_isSome size (by simpa using hk)
        { d with iovad := ⟨lo, lo + pageAlign64 size / 4096 - 1⟩ :: d.iovad }
      rcases hb : allocBuffer { d with iovad := ⟨lo, lo + pageAlign64 size / 4096 - 1⟩ :: d.iovad } env
        (pageAlign64 size) with ⟨d₁, _ | pages⟩
      · simp only [hb] at h hbuf ⊢
        obtain ⟨rfl, -⟩ := Prod.mk.inj (Option.some.inj h)
        exact .noPages (by simpa using hbuf) hb
      · simp only [hb] at h hbuf ⊢
        rcases hl : allocMapLoop env ⟨lo, lo + pageAlign64 size / 4096 - 1⟩ pages
          (lo + pageAlign64 size / 4096 - 1 + 1 - lo) 0 d₁ with ⟨d₂, i, mapped⟩
        simp only [hl] at h ⊢
        cases hv : (if mapped = true then vmap env (pageAlign64 size / 4096) else none) with
        | some vaddr =>
          simp only [hv] at h ⊢
          obtain ⟨rfl, -, -⟩ := vmap_some hv
          obtain ⟨rfl, -⟩ := Prod.mk.inj (Option.some.inj h)
          rw [List.append_nil]
          exact .buffer (hbuf.mp rfl) hb hl
        | none =>
          simp only [hv, Option.bind_eq_bind, Option.bind_eq_some_iff, Option.pure_def] at h ⊢
          obtain ⟨d₃, hout, h⟩ := h
          obtain ⟨rfl, -⟩ := Prod.mk.inj (Option.some.inj h)
          refine .back (hbuf.mp rfl) hb hl (fun hm => ?_) hout
          rwa [if_pos hm] at hv

theorem dmaAlloc_replay (h : ipu6DmaAlloc d env size = some (d', r)) :
    (dmaAllocTrace d env size).foldl replay (d.pages, d.iovad) = (d'.pages, d'.iovad) := by
  rcases dmaAlloc_cases h with ⟨rfl, htrace⟩ | ⟨lo, acts, -, htrace, hpath⟩
  · rw [htrace]
    rfl
  · rw [htrace]
    generalize (⟨lo, lo + pageAlign64 size / 4096 - 1⟩ : Iova) = iova at hpath ⊢
    obtain ⟨hbuf, -⟩ := allocBuffer_replay { d with iovad := iova :: d.iovad } env (pageAlign64 size)
    rw [List.cons_append, List.foldl_cons, List.foldl_append]
    simp only [replay]
    rw [hbuf]
    cases hpath with
    | noPages _ hb =>
      rw [hb]
      rfl
    | @buffer d₁ pages d₂ i v _ hb hl =>
      have hheld := allocMapLoop_held env iova pages (iova.pfnHi + 1 - iova.pfnLo) 0 d₁
      rw [hl] at hheld
      rw [hb, replay_onTable (allocMapTrace_onTable _ _ _), ← hheld.pages, ← hheld.iovad]
    | @back d₁ pages d₂ i mapped d₃ _ hb hl _ hout =>
      have hheld := allocMapLoop_held env iova pages (iova.pfnHi + 1 - iova.pfnLo) 0 d₁
      rw [hl] at hheld
      have hheld' := outUnmap_held _ _ hout
      rw [hb, List.foldl_append, replay_onTable (allocMapTrace_onTable _ _ _), List.foldl_append,
        List.foldl_append, replay_onTable (outUnmapTrace_onTable _ _), ← hheld.pages, ← hheld.iovad,
        ← hheld'.pages, ← hheld'.iovad]
      rfl

theorem dmaFree_cases (h : ipu6DmaFree d size handle = some d') :
    (d' = d ∧ dmaFreeTrace d size handle = []) ∨
    ∃ iova info maps, findIova d.iovad (handle / 4096) = some iova ∧
      getVmInfo d.vmaList handle = some info ∧ info.vaddr ≠ 0 ∧
      d' = { d with
        mmu := ipu6MmuUnmap d.mmu (4096 * iova.pfnLo) (4096 * (iova.pfnHi + 1 - iova.pfnLo))
        iovad := d.iovad.erase iova
        vmaList := d.vmaList.erase info
        pages := release d.pages (info.pages.take (pageAlign64 size / 4096))
        maps := maps } ∧
      dmaFreeTrace d size handle = .unmap iova.pfnLo (iova.pfnHi + 1 - iova.pfnLo) ::
        freeBufferTrace info.pages (pageAlign64 size) ++ [.tlbInvalidate, .freeIova iova] := by
  unfold ipu6DmaFree at h
  unfold dmaFreeTrace
  cases hiova : findIova d.iovad (handle / 4096) with
  | none =>
    simp only [hiova, Option.some.injEq] at h ⊢
    exact .inl ⟨h.symm, trivial⟩
  | some iova =>
    simp only [hiova] at h ⊢
    cases hinfo : getVmInfo d.vmaList handle with
    | none =>
      simp only [hinfo, Option.some.injEq] at h ⊢
      exact .inl ⟨h.symm, trivial⟩
    | some info =>
      simp only [hinfo] at h ⊢
      by_cases hv : info.vaddr = 0
      · rw [if_pos hv] at h ⊢
        exact .inl ⟨(Option.some.inj h).symm, rfl⟩
      · rw [if_neg hv] at h ⊢
        simp only [Option.bind_eq_bind, Option.bind_eq_some_iff, Option.pure_def,
          Option.some.injEq] at h
        obtain ⟨d₁, hloop, rfl⟩ := h
        obtain ⟨maps, rfl⟩ := freeUnmapLoop_eq _ _ _ hloop
        exact .inr ⟨iova, info, maps, rfl, rfl, hv, rfl, rfl⟩

theorem dmaUnmapSg_cases (h : ipu6DmaUnmapSg d sgl nents = some (d', sgl')) :
    (d' = d ∧ dmaUnmapSgTrace d sgl nents = []) ∨
    ∃ iova p, findIova d.iovad p = some iova ∧
      d' = { d with
        mmu := ipu6MmuUnmap d.mmu (4096 * iova.pfnLo) (4096 * (iova.pfnHi + 1 - iova.pfnLo))
        iovad := d.iovad.erase iova } ∧
      dmaUnmapSgTrace d sgl nents =
        [.unmap iova.pfnLo (iova.pfnHi + 1 - iova.pfnLo), .tlbInvalidate, .freeIova iova] := by
  unfold ipu6DmaUnmapSg at h
  unfold dmaUnmapSgTrace
  simp only at h ⊢
  by_cases hn : nents = 0
  · rw [if_pos hn] at h ⊢
    obtain ⟨rfl, -⟩ := Prod.mk.inj (Option.some.inj h)
    exact .inl ⟨rfl, rfl⟩
  · rw [if_neg hn] at h ⊢
    cases hfound : (sgl.head?.bind fun e => findIova d.iovad (e.dmaAddress / 4096)) with
    | none =>
      rw [hfound] at h
      obtain ⟨rfl, -⟩ := Prod.mk.inj (Option.some.inj h)
      exact .inl ⟨rfl, rfl⟩
    | some iova =>
      rw [hfound] at h
      simp only [Option.bind_eq_bind, Option.bind_eq_some_iff, Option.pure_def, Option.some.injEq,
        Prod.mk.injEq] at h
      obtain ⟨done, -, rfl, -⟩ := h
      obtain ⟨e, -, hfind⟩ := Option.bind_eq_some_iff.mp hfound
      exact .inr ⟨iova, _, hfind, rfl, rfl⟩

theorem dmaMapSg_cases (h : ipu6DmaMapSg d env sgl = some (d', sgl', ret)) :
    (((∃ e ∈ sgl, e.offset ≠ 0) ∧ ret = -EFAULT ∨ env.allocIova = none ∧ ret = 0) ∧
      d' = d ∧ dmaMapSgTrace d env sgl = []) ∨
    ∃ lo m done ok acts, env.allocIova = some lo ∧ mapSgLoop env sgl lo d.mmu = (m, done, ok) ∧
      dmaMapSgTrace d env sgl =
        .allocIova ⟨lo, lo + npages sgl - 1⟩ :: mapSgLoopTrace env sgl lo d.mmu ++ acts ∧
      (ok = true ∧ acts = [] ∧ sgl' = done ∧ ret = sgl.length ∧
          d' = { d with mmu := m, iovad := ⟨lo, lo + npages sgl - 1⟩ :: d.iovad } ∨
        ok = false ∧ ret = 0 ∧
          acts = dmaUnmapSgTrace { d with mmu := m, iovad := ⟨lo, lo + npages sgl - 1⟩ :: d.iovad }
            (done ++ sgl.drop done.length) done.length ∧
          ipu6DmaUnmapSg { d with mmu := m, iovad := ⟨lo, lo + npages sgl - 1⟩ :: d.iovad }
            (done ++ sgl.drop done.length) done.length = some (d', sgl')) := by
  unfold ipu6DmaMapSg at h
  unfold dmaMapSgTrace
  by_cases hoff : (sgl.any fun e => e.offset ≠ 0) = true
  · rw [if_pos hoff] at h ⊢
    obtain ⟨rfl, hrest⟩ := Prod.mk.inj (Option.some.inj h)
    obtain ⟨-, rfl⟩ := Prod.mk.inj hrest
    obtain ⟨e, he, hne⟩ := List.any_eq_true.mp hoff
    exact .inl ⟨.inl ⟨⟨e, he, of_decide_eq_true hne⟩, rfl⟩, rfl, rfl⟩
  · rw [if_neg hoff] at h ⊢
    cases hlo : env.allocIova with
    | none =>
      simp only [hlo] at h ⊢
      obtain ⟨rfl, hrest⟩ := Prod.mk.inj (Option.some.inj h)
      obtain ⟨-, rfl⟩ := Prod.mk.inj hrest
      exact .inl ⟨.inr ⟨trivial, rfl⟩, rfl, trivial⟩
    | some lo =>
      simp only [hlo] at h ⊢
      rcases hloop : mapSgLoop env sgl lo d.mmu with ⟨m, done, _ | _⟩
      · simp only [hloop, Option.bind_eq_bind, Option.bind_eq_some_iff, Option.pure_def,
          Option.some.injEq, Prod.mk.injEq, Prod.exists] at h
        obtain ⟨d₁, sgl₁, hun, rfl, rfl, rfl⟩ := h
        exact .inr ⟨lo, m, done, false, _, rfl, hloop, rfl, .inr ⟨rfl, rfl, rfl, hun⟩⟩
      · simp only [hloop] at h
        obtain ⟨rfl, hrest⟩ := Prod.mk.inj (Option.some.inj h)
        obtain ⟨rfl, rfl⟩ := Prod.mk.inj hrest
        exact .inr ⟨lo, m, done, true, _, rfl, hloop, rfl, .inl ⟨rfl, rfl, rfl, rfl, rfl⟩⟩

theorem dmaFree_replay (h : ipu6DmaFree d size handle = some d') :
    (dmaFreeTrace d size handle).foldl replay (d.pages, d.iovad) = (d'.pages, d'.iovad) := by
  rcases dmaFree_cases h with ⟨rfl, htrace⟩ | ⟨iova, info, maps, -, -, -, rfl, htrace⟩
  · rw [htrace]
    rfl
  · rw [htrace]
    rfl

theorem dmaUnmapSg_replay (h : ipu6DmaUnmapSg d sgl nents = some (d', sgl')) :
    (dmaUnmapSgTrace d sgl nents).foldl replay (d.pages, d.iovad) = (d'.pages, d'.iovad) := by
  rcases dmaUnmapSg_cases h with ⟨rfl, htrace⟩ | ⟨iova, p, -, rfl, htrace⟩
  · rw [htrace]
    rfl
  · rw [htrace]
    rfl

theorem dmaMapSg_replay (h : ipu6DmaMapSg d env sgl = some (d', sgl', ret)) :
    (dmaMapSgTrace d env sgl).foldl replay (d.pages, d.iovad) = (d'.pages, d'.iovad) := by
  rcases dmaMapSg_cases h with ⟨-, rfl, htrace⟩ | ⟨lo, m, done, ok, acts, -, -, htrace, hway⟩
  · rw [htrace]
    rfl
  · rw [htrace, List.cons_append, List.foldl_cons, List.foldl_append,
      replay_onTable (mapSgLoopTrace_onTable _ _ _)]
    rcases hway with ⟨-, rfl, -, -, rfl⟩ | ⟨-, -, rfl, hun⟩
    · rfl
    · exact dmaUnmapSg_replay hun

theorem Op.run_replay (op : Op) (h : op.run d = some d') :
    (op.trace d).foldl replay (d.pages, d.iovad) = (d'.pages, d'.iovad) := by
  cases op with
  | alloc env size =>
    obtain ⟨⟨_, r⟩, hrun, rfl⟩ := Option.map_eq_some_iff.mp h
    exact dmaAlloc_replay hrun
  | free size handle => exact dmaFree_replay h
  | mapSg env sgl =>
    obtain ⟨⟨_, sgl', ret⟩, hrun, rfl⟩ := Option.map_eq_some_iff.mp h
    exact dmaMapSg_replay hrun
  | unmapSg sgl nents =>
    obtain ⟨⟨_, sgl'⟩, hrun, rfl⟩ := Option.map_eq_some_iff.mp h
    exact dmaUnmapSg_replay hrun

end Ipu4.Dma
