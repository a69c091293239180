import Ipu4.Dma.Pages
import Ipu4.Dma.Reuse

/-!
# Mapping a buffer for user space

`ipu6_dma_mmap` finds the buffer an address lies in, and inserts the pages of the buffer
from its first one on, wherever in the buffer the address is. `ipu6_dma_sync_single`
takes the offset of the address into account.
-/

namespace Ipu4.Dma

open Mmu
open Runs (Reachable)

-- ---------------------------------------------------------------------------
-- The call
-- ---------------------------------------------------------------------------

/-- The loop of `ipu6_dma_mmap` with `n` pages to go: the pages inserted and their user
addresses, and what it returns. `insert` is `vm_insert_page`. -/
def insertLoop (insert : Nat → Nat → Int) (vmStart : Nat) (pages : List Nat) :
    Nat → Nat → List (Nat × Nat) × Int
  | 0, _ => ([], 0)
  | n + 1, i =>
    let ret := insert (vmStart + 4096 * i) (pages.getD i 0)
    if ret < 0 then ([], ret)
    else
      match insertLoop insert vmStart pages n (i + 1) with
      | (rest, ret) => ((vmStart + 4096 * i, pages.getD i 0) :: rest, ret)

/-- `PFN_UP` of a `size_t`. -/
def pfnUp64 (size : Nat) : Nat := (size + 4095) % 2 ^ 64 / 4096

def ipu6DmaMmap (d : Ipu6Mmu) (insert : Nat → Nat → Int) (vmStart iova size : Nat) :
    List (Nat × Nat) × Int :=
  match getVmInfo d.vmaList iova with
  | none => ([], -EFAULT)
  | some info =>
    if info.vaddr = 0 then ([], -EFAULT)
    else if vmStart % 4096 ≠ 0 then ([], -EINVAL)
    else if size > info.size then ([], -EFAULT)
    else insertLoop insert vmStart info.pages (pfnUp64 size) 0

-- ---------------------------------------------------------------------------
-- What user space sees
-- ---------------------------------------------------------------------------

/-- The pages of a user mapping are those that the device has from the page of `iova` on,
and pages of the buffer there or behind it. -/
structure Shows (d : Ipu6Mmu) (b : Buffer) (vmStart iova : Nat) (inserted : List (Nat × Nat)) : Prop where
  mapped : ∀ (i addr page : Nat), inserted[i]? = some (addr, page) → addr = vmStart + 4096 * i ∧
    ∃ a, ipu6MmuIovaToPhys d.mmu (4096 * (iova / 4096 + i)) = some a ∧ 0 < d.maps a ∧ d.pageAt a = page
  own : ∀ addr page, (addr, page) ∈ inserted → ∃ v, getVmInfo d.vmaList b.handle = some v ∧
    ∃ j : Nat, iova / 4096 ≤ b.handle / 4096 + j ∧ v.pages[j]? = some page

section
variable {insert : Nat → Nat → Int} {vmStart : Nat} {pages : List Nat}

theorem insertLoop_ok (n i : Nat) (h : (insertLoop insert vmStart pages n i).2 = 0) :
    (insertLoop insert vmStart pages n i).1 =
      (List.range' i n).map fun k => (vmStart + 4096 * k, pages.getD k 0) := by
  induction n generalizing i with
  | zero => rfl
  | succ n ih =>
    simp only [insertLoop] at h ⊢
    split at h
    · next hneg => omega
    · next hok =>
      rw [if_neg hok, ih (i + 1) h]
      rfl

end

-- ---------------------------------------------------------------------------
-- Runs
-- ---------------------------------------------------------------------------

/-- A step of the buffers in which `alloc_pages` gives no page twice. -/
structure DistinctStep (s : Sys) (ev : Event) (s' : Sys) : Prop where
  step : Step s ev s'
  apart : ∀ env size, ev = .alloc env size → BlocksApart env.allocPages

section
variable {d₀ d d' : Ipu6Mmu} {s s' : Sys} {b : Buffer} {insert : Nat → Nat → Int} {vmStart iova size : Nat}

theorem dmaAlloc_pages (h : ipu6DmaAlloc d env size = some (d', some r)) :
    ∃ v l, d'.vmaList = v :: l ∧ v.pages = (allocBufferLoop env.allocPages
      (pageAlign64 size / 4096) 0 (pageAlign64 size / 4096) []).1 := by
  unfold ipu6DmaAlloc at h
  split at h
  · cases h
  cases hlo : env.allocIova with
  | none =>
    rw [hlo] at h
    cases h
  | some lo =>
    simp only [hlo] at h
    cases hbuf : allocBuffer { d with iovad := ⟨lo, lo + pageAlign64 size / 4096 - 1⟩ :: d.iovad } env
        (pageAlign64 size) with
    | mk d₁ found =>
      rw [hbuf] at h
      cases found with
      | none => cases h
      | some pages =>
        have hpages : pages = (allocBufferLoop env.allocPages
            (pageAlign64 size / 4096) 0 (pageAlign64 size / 4096) []).1 := by
          unfold allocBuffer at hbuf
          split at hbuf
          · cases hbuf
          · split at hbuf
            · next hloop =>
              rw [hloop]
              exact (Option.some.inj (Prod.mk.inj hbuf).2).symm
            · cases hbuf
        dsimp only at h
        split at h
        · obtain ⟨rfl, -⟩ := Prod.mk.inj (Option.some.inj h)
          exact ⟨_, _, rfl, hpages⟩
        · simp only [Option.bind_eq_bind, Option.bind_eq_some_iff, Option.pure_def, Option.some.injEq,
            Prod.mk.injEq] at h
          obtain ⟨_, -, -, hnone⟩ := h
          cases hnone

/-- The buffers are those of the store, each with pages of its own. -/
structure Distinct (d₀ : Ipu6Mmu) (s : Sys) : Prop where
  inv : SysInv d₀ s
  nodup : ∀ v ∈ s.d.vmaList, v.pages.Nodup

theorem Distinct.step (h : Distinct d₀ s) (h₀ : Start d₀) (hs : DistinctStep s ev s') : Distinct d₀ s' := by
  obtain ⟨hstep, hap⟩ := hs
  refine ⟨h.inv.step h₀ hstep, ?_⟩
  cases hstep with
  | @alloc env size d' r hl hrun =>
    obtain ⟨d₁, r₁, hrun₁, halloc⟩ := dmaAlloc_spec h.inv.store h₀ hl.2.2
    obtain ⟨rfl, rfl⟩ : d₁ = d' ∧ r₁ = r := by simpa [hrun₁] using hrun
    cases r₁ with
    | none =>
      rw [(halloc.failed rfl).vmaList]
      exact h.nodup
    | some r =>
      obtain ⟨v, hlist, -⟩ := halloc.added r.1 r.2 rfl
      obtain ⟨v', l, hlist', hpages⟩ := dmaAlloc_pages hrun
      obtain ⟨rfl, rfl⟩ := List.cons.inj (hlist.symm.trans hlist')
      rw [hlist]
      refine List.forall_mem_cons.mpr ⟨?_, h.nodup⟩
      rw [hpages]
      exact nodup_allocBufferLoop (hap env size rfl) .nil (by simp) _ _
  | @free b d' hl hrun =>
    obtain ⟨v, hv, hspan⟩ := h.inv.entry hl
    have hhandle : v.ipu6Iova = b.handle := congrArg Prod.fst hspan
    rw [← hhandle, dmaFree_eq h.inv.store hv (congrArg Prod.snd hspan).symm] at hrun
    obtain rfl := Option.some.inj hrun
    exact fun w hw => h.nodup w (List.mem_of_mem_erase hw)

theorem distinct_reachable (h₀ : Start d₀) (h : Reachable (· = ⟨d₀, []⟩) DistinctStep s) :
    Distinct d₀ s := by
  refine h.invariant (fun s hs => ?_) fun s ev s' hi hs => hi.step h₀ hs
  subst hs
  exact ⟨⟨h₀.store, by simp [h₀.vmaList]⟩, by simp [h₀.vmaList]⟩

-- ---------------------------------------------------------------------------
-- When the pages are the right ones
-- ---------------------------------------------------------------------------

theorem mmap_inserted (h : getVmInfo d.vmaList iova = some v)
    (hret : (ipu6DmaMmap d insert vmStart iova size).2 = 0) :
    size ≤ v.size ∧ (ipu6DmaMmap d insert vmStart iova size).1 =
      (List.range' 0 (pfnUp64 size)).map fun k => (vmStart + 4096 * k, v.pages.getD k 0) := by
  unfold ipu6DmaMmap at hret ⊢
  rw [h] at hret ⊢
  dsimp only at hret ⊢
  split at hret
  · cases hret
  split at hret
  · cases hret
  split at hret
  · cases hret
  · next hvaddr hal hsize =>
    rw [if_neg hvaddr, if_neg hal, if_neg hsize]
    exact ⟨by omega, insertLoop_ok _ _ hret⟩

/-- In every state that allocations and frees lead to: a mapping that
`ipu6_dma_mmap` accepts shows the pages of the device if and only if it is empty or the
address is in the first page of the buffer. -/
theorem mmap_shows_iff (h₀ : Start d₀) (h : Reachable (· = ⟨d₀, []⟩) DistinctStep s) (hb : b ∈ s.live)
    (hlo : b.handle ≤ iova) (hhi : iova < b.handle + pageAlign64 b.size)
    (hret : (ipu6DmaMmap s.d insert vmStart iova size).2 = 0) :
    Shows s.d b vmStart iova (ipu6DmaMmap s.d insert vmStart iova size).1 ↔
      size = 0 ∨ iova / 4096 = b.handle / 4096 := by
  obtain ⟨hinv, hnodup⟩ := distinct_reachable h₀ h
  obtain ⟨v, hv, hspan⟩ := hinv.entry hb
  have hok := hinv.store.ok v hv
  have hholds := hinv.store.holds h₀ hv hspan
  have hhandle : v.ipu6Iova = b.handle := congrArg Prod.fst hspan
  have hsize : v.size = pageAlign64 b.size := congrArg Prod.snd hspan
  have hal := hok.aligned
  have hbytes := hok.size
  have hbound := hok.bound
  have hfound : getVmInfo s.d.vmaList iova = some v :=
    (hinv.store.getVmInfo_iff iova v).mpr ⟨hv, by omega, by omega⟩
  have hfirst : getVmInfo s.d.vmaList b.handle = some v :=
    (hinv.store.getVmInfo_iff b.handle v).mpr ⟨hv, by omega, by omega⟩
  obtain ⟨hle, hins⟩ := mmap_inserted hfound hret
  rw [hins]
  constructor
  · intro hshows
    by_cases hzero : size = 0
    · exact .inl hzero
    -- the first page of the buffer is in the mapping, and nowhere else in the buffer
    have hin : (vmStart + 4096 * 0, v.pages.getD 0 0) ∈
        (List.range' 0 (pfnUp64 size)).map fun k => (vmStart + 4096 * k, v.pages.getD k 0) := by
      refine List.mem_map.mpr ⟨0, List.mem_range'_1.mpr ⟨Nat.le_refl 0, ?_⟩, rfl⟩
      unfold pfnUp64
      omega
    obtain ⟨w, hw, j, hj, hpage⟩ := hshows.own _ _ hin
    obtain rfl := Option.some.inj (hw.symm.trans hfirst)
    obtain ⟨hlt, hget⟩ := List.getElem?_eq_some_iff.mp hpage
    have hpos : 0 < w.pages.length := by omega
    rw [List.getD_eq_getElem?_getD, List.getElem?_eq_getElem hpos] at hget
    obtain rfl : j = 0 := (List.getElem_inj (hnodup w hv)).mp hget
    right
    omega
  · intro hcase
    have hpage : ∀ (i : Nat) addr page, ((List.range' 0 (pfnUp64 size)).map fun k =>
        (vmStart + 4096 * k, v.pages.getD k 0))[i]? = some (addr, page) →
        addr = vmStart + 4096 * i ∧ iova / 4096 = b.handle / 4096 ∧ v.pages[i]? = some page := by
      intro i addr page hi
      rw [List.getElem?_map, Option.map_eq_some_iff] at hi
      obtain ⟨k, hk, heq⟩ := hi
      have hlt : i < pfnUp64 size := by
        have := (List.getElem?_eq_some_iff.mp hk).1
        rwa [List.length_range'] at this
      rw [List.getElem?_range' hlt, Option.some.injEq] at hk
      obtain ⟨rfl, hget⟩ := Prod.mk.inj heq
      have hfits : i < v.pages.length := by
        rw [hok.pages]
        unfold pfnUp64 at hlt
        omega
      have hki : k = i := by omega
      subst hki
      refine ⟨rfl, hcase.resolve_left fun hzero => ?_, ?_⟩
      · rw [hzero] at hlt
        exact absurd hlt (by simp [pfnUp64])
      · rw [List.getElem?_eq_getElem hfits]
        rw [List.getD_eq_getElem?_getD, List.getElem?_eq_getElem hfits] at hget
        exact congrArg some hget
    refine ⟨fun i addr page hi => ?_, fun addr page hin => ?_⟩
    · obtain ⟨haddr, hsame, hget⟩ := hpage i addr page hi
      obtain ⟨a, htr, hmap, hat⟩ := hholds.pages i page hget
      refine ⟨haddr, a, ?_, hmap, hat⟩
      rw [hsame, ← htr]
      congr 1
      omega
    · obtain ⟨i, hi⟩ := List.mem_iff_getElem?.mp hin
      obtain ⟨-, hsame, hget⟩ := hpage i addr page hi
      exact ⟨v, hfirst, i, by omega, hget⟩

end

-- ---------------------------------------------------------------------------
-- A buffer of two pages
-- ---------------------------------------------------------------------------

theorem blocksApart_twoPages (mapped : Nat) : BlocksApart (twoPagesEnv mapped).allocPages := by
  intro i order page i' order' page' h h' hle
  simp only [twoPagesEnv] at h h'
  split at h
  · split at h'
    · obtain rfl := Option.some.inj h
      obtain rfl := Option.some.inj h'
      subst_vars
      simp [blockPages]
      omega
    · cases h'
  · cases h

theorem twoPages_live : ∃ s, Reachable (· = ⟨emptyStore, []⟩) DistinctStep s ∧
    s.live = [⟨4096 * 1023, 5000⟩] ∧ s.d.vmaList = [⟨[100, 101], 4096 * 1023, 7, 8192⟩] := by
  have hrun : (ipu6DmaAlloc emptyStore (twoPagesEnv 2) 5000).map (fun r => (r.1.vmaList, r.2)) =
      some ([⟨[100, 101], 4096 * 1023, 7, 8192⟩], some (7, 4096 * 1023)) := by
    decide +kernel
  obtain ⟨⟨d', r⟩, hrun, heq⟩ := Option.map_eq_some_iff.mp hrun
  obtain ⟨hlist, rfl⟩ := Prod.mk.inj heq
  have hlegal : Legal ⟨emptyStore, []⟩ (.alloc (twoPagesEnv 2) 5000) :=
    ⟨by decide, by decide, envOk_twoPages (by omega)⟩
  refine ⟨_, .step (.init rfl) ⟨.alloc _ hlegal hrun, ?_⟩, rfl, hlist⟩
  rintro _ _ ⟨⟩
  exact blocksApart_twoPages 2

/-- The whole buffer, from its first byte on. -/
theorem mmap_shows_two_pages : ∃ (s : Sys) (b : Buffer), b ∈ s.live ∧
    Shows s.d b 0x7000 (4096 * 1023) (ipu6DmaMmap s.d (fun _ _ => 0) 0x7000 (4096 * 1023) 8192).1 := by
  obtain ⟨s, hreach, hlive, hlist⟩ := twoPages_live
  have hb : ⟨4096 * 1023, 5000⟩ ∈ s.live := by
    rw [hlive]
    exact List.mem_singleton_self _
  have hret : (ipu6DmaMmap s.d (fun _ _ => 0) 0x7000 (4096 * 1023) 8192).2 = 0 := by
    unfold ipu6DmaMmap
    rw [hlist]
    rfl
  exact ⟨s, _, hb, (mmap_shows_iff start_emptyStore hreach hb (by decide) (by decide) hret).mpr (.inr rfl)⟩

/-- The second page is asked for, and the first one is given. -/
theorem mmap_shows_first_page : ∃ (s : Sys) (b : Buffer),
    Reachable (· = ⟨emptyStore, []⟩) DistinctStep s ∧ b ∈ s.live ∧
    ipu6DmaMmap s.d (fun _ _ => 0) 0x7000 (b.handle + 4096) 4096 = ([(0x7000, 100)], 0) ∧
    ¬ Shows s.d b 0x7000 (b.handle + 4096)
      (ipu6DmaMmap s.d (fun _ _ => 0) 0x7000 (b.handle + 4096) 4096).1 := by
  obtain ⟨s, hreach, hlive, hlist⟩ := twoPages_live
  have hrun : ipu6DmaMmap s.d (fun _ _ => 0) 0x7000 (4096 * 1023 + 4096) 4096 = ([(0x7000, 100)], 0) := by
    unfold ipu6DmaMmap
    rw [hlist]
    rfl
  refine ⟨s, ⟨4096 * 1023, 5000⟩, hreach, ?_, hrun, fun hshows => ?_⟩
  · rw [hlive]
    exact List.mem_singleton_self _
  · rw [hrun] at hshows
    obtain ⟨v, hv, j, hj, hpage⟩ := hshows.own _ _ (List.mem_singleton_self _)
    rw [hlist] at hv
    obtain rfl := Option.some.inj hv
    match j, hj, hpage with
    | 1, _, hpage => cases hpage

end Ipu4.Dma
