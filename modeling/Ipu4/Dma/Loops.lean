import Ipu4.Dma.Buffers

/-!
# The loops of a buffer's life

`Partial d t d'` says what a buffer under construction has changed after `t`
of its pages: their translations, their DMA mappings and nothing else. The
mapping loop extends it page by page, the unwinding loop takes it back to
`t = 0` from wherever the mapping loop stopped.
-/

namespace Ipu4.Dma

open Mmu Ledger Overlay

-- ---------------------------------------------------------------------------
-- Pages of a buffer
-- ---------------------------------------------------------------------------

theorem allocPagesDown_order (h : allocPagesDown allocPages i top = some (page, order)) :
    order ≤ top := by
  induction top with
  | zero =>
    simp only [allocPagesDown, Option.map_eq_some_iff, Prod.mk.injEq] at h
    obtain ⟨_, _, _, rfl⟩ := h
    exact Nat.le_refl _
  | succ top ih =>
    simp only [allocPagesDown] at h
    split at h
    · simp only [Option.some.injEq, Prod.mk.injEq] at h
      omega
    · exact Nat.le_succ_of_le (ih h)

theorem allocBufferLoop_length (hr : count ≤ rounds)
    (h : allocBufferLoop allocPages rounds i count found = (pages, true)) :
    pages.length = found.length + count := by
  induction rounds generalizing i count found with
  | zero =>
    simp only [allocBufferLoop, Prod.mk.injEq] at h
    rw [← h.1]
    omega
  | succ rounds ih =>
    simp only [allocBufferLoop] at h
    split at h
    · simp only [Prod.mk.injEq] at h
      rw [← h.1]
      omega
    · rename_i hcount
      split at h
      · simp at h
      · rename_i page order hdown
        have hle : 2 ^ order ≤ count := by
          have hlog := Nat.pow_le_pow_right (n := 2) (by omega) (allocPagesDown_order hdown)
          have hself := Nat.log2_self_le hcount
          omega
        have hpos : 0 < 2 ^ order := Nat.two_pow_pos order
        have hlen := ih (by omega) h
        simp only [List.length_append, List.length_range'] at hlen
        omega

theorem allocBuffer_cases (d : Ipu6Mmu) (env : AllocEnv) (size : Nat) :
    allocBuffer d env size = (d, none) ∨
    ∃ pages, pages.length = size / 4096 ∧
      allocBuffer d env size = ({ d with pages := acquire d.pages pages }, some pages) := by
  unfold allocBuffer
  split
  · exact .inl rfl
  · split
    · rename_i pages hloop
      exact .inr ⟨pages, by simpa using allocBufferLoop_length (Nat.le_refl _) hloop, rfl⟩
    · exact .inl (by rw [release_acquire])

-- ---------------------------------------------------------------------------
-- Mapping
-- ---------------------------------------------------------------------------

/-- The DMA layer gives whole pages within 39 bits, none twice, and none that
is mapped already. -/
def DmaFresh (d : Ipu6Mmu) (env : AllocEnv) : Prop :=
  ∀ k a, env.dmaMapPage k = some a → a % 4096 = 0 ∧ a < 2 ^ 39 ∧ d.maps a = 0 ∧
    ∀ j, env.dmaMapPage j = some a → j = k

def addr (env : AllocEnv) (k : Nat) : Nat := (env.dmaMapPage k).getD 0

structure Partial (env : AllocEnv) (pfnLo : Nat) (pages : List Nat) (d : Ipu6Mmu) (t : Nat)
    (d' : Ipu6Mmu) : Prop where
  ext : Extends env.tables d.mmu d'.mmu
  got : ∀ k < t, env.dmaMapPage k = some (addr env k)
  tr : translate d'.mmu = overlay (translate d.mmu) pfnLo t (addr env · / 4096)
  tables : ∀ k < t, (d'.mmu.l2Pts ((pfnLo + k) / 1024)).isSome
  maps : d'.maps = acquire d.maps ((List.range t).map (addr env))
  home : ∀ k < t, d'.pageAt (addr env k) = pages.getD k 0
  live : ∀ a, 0 < d.maps a → d'.pageAt a = d.pageAt a
  vmaList : d'.vmaList = d.vmaList
  iovad : d'.iovad = d.iovad
  held : d'.pages = d.pages

theorem Partial.zero {d : Ipu6Mmu} (hi : Mmu.Inv d.mmu) (hf : Fresh d.mmu env.tables) :
    Partial env pfnLo pages d 0 d where
  ext := .refl hi hf
  got := by simp
  tr := by simp
  tables := by simp
  maps := by simp
  home := by simp
  live := fun _ _ => rfl
  vmaList := rfl
  iovad := rfl
  held := rfl

theorem acquire_range_succ (led : Balance Nat) (f : Nat → Nat) (t : Nat) :
    acquire led ((List.range (t + 1)).map f) = acquire (acquire led ((List.range t).map f)) [f t] := by
  rw [acquire_acquire, List.range_succ, List.map_append]
  rfl

section
variable {d di d' : Ipu6Mmu} {env : AllocEnv} {pages : List Nat}

theorem Partial.succ (h : Partial env pfnLo pages d t di) (hfresh : DmaFresh d env)
    (ha : env.dmaMapPage t = some a)
    (hm : Mapped di.mmu env.tables (pfnLo + t) (a / 4096) 1 mmu none) :
    Partial env pfnLo pages d (t + 1) { di.mapPage (pages.getD t 0) a with mmu := mmu } := by
  obtain ⟨-, -, hzero, hinj⟩ := hfresh t a ha
  have haddr : addr env t = a := by simp [addr, ha]
  obtain ⟨htr, htab⟩ := hm.ok rfl
  refine ⟨h.ext.trans hm.ext, fun k hk => ?_, ?_, fun k hk => ?_, ?_, fun k hk => ?_,
    fun b hb => ?_, h.vmaList, h.iovad, h.held⟩
  · rcases Nat.lt_succ_iff_lt_or_eq.mp hk with hk | rfl
    · exact h.got k hk
    · rw [ha, haddr]
  · show translate mmu = _
    rw [htr, h.tr, ← overlay_append]
    refine overlay_congr fun k hk => ?_
    obtain rfl : k = 0 := by omega
    simp [haddr]
  · rcases Nat.lt_succ_iff_lt_or_eq.mp hk with hk | rfl
    · exact hm.ext.tables _ (h.tables k hk)
    · exact htab 0 (by omega)
  · show acquire di.maps [a] = _
    rw [h.maps, acquire_range_succ, haddr]
  · show Function.update di.pageAt a (pages.getD t 0) (addr env k) = _
    rcases Nat.lt_succ_iff_lt_or_eq.mp hk with hk | rfl
    · have hne : addr env k ≠ a := by
        intro heq
        have hkt := hinj k (by rw [h.got k hk, heq])
        omega
      rw [Function.update_of_ne hne]
      exact h.home k hk
    · rw [haddr, Function.update_self]
  · show Function.update di.pageAt a (pages.getD t 0) b = _
    have hne : b ≠ a := by
      rintro rfl
      omega
    rw [Function.update_of_ne hne]
    exact h.live b hb

theorem Partial.undo (h : Partial env pfnLo pages d t di) (hfresh : DmaFresh d env)
    (ha : env.dmaMapPage t = some a)
    (hm : Mapped di.mmu env.tables (pfnLo + t) (a / 4096) 1 mmu (some e)) :
    Partial env pfnLo pages d t
      (Ipu6Mmu.unmapPage { di.mapPage (pages.getD t 0) a with mmu := mmu } a) := by
  obtain ⟨-, -, hzero, hinj⟩ := hfresh t a ha
  refine ⟨h.ext.trans hm.ext, h.got, ?_, fun k hk => hm.ext.tables _ (h.tables k hk), ?_,
    fun k hk => ?_, fun b hb => ?_, h.vmaList, h.iovad, h.held⟩
  · show translate mmu = _
    rw [hm.err (by simp), h.tr]
  · show release (acquire di.maps [a]) [a] = _
    rw [release_acquire, h.maps]
  · show Function.update di.pageAt a (pages.getD t 0) (addr env k) = _
    have hne : addr env k ≠ a := by
      intro heq
      have hkt := hinj k (by rw [h.got k hk, heq])
      omega
    rw [Function.update_of_ne hne]
    exact h.home k hk
  · show Function.update di.pageAt a (pages.getD t 0) b = _
    have hne : b ≠ a := by
      rintro rfl
      omega
    rw [Function.update_of_ne hne]
    exact h.live b hb

theorem allocMapLoop_spec (pfnHi : Nat) (h : Partial env pfnLo pages d i di) (hfresh : DmaFresh d env)
    (hb : pfnLo + (i + n) ≤ 2 ^ 20)
    (hun : ∀ k < i + n, translate d.mmu (pfnLo + k) = d.mmu.dummyPagePteval) :
    ∃ d' t ok, allocMapLoop env ⟨pfnLo, pfnHi⟩ pages n i di = (d', t, ok) ∧
      Partial env pfnLo pages d t d' ∧ t ≤ i + n ∧ (ok = true → t = i + n) := by
  induction n generalizing i di with
  | zero => exact ⟨di, i, true, rfl, h, by omega, fun _ => rfl⟩
  | succ n ih =>
    simp only [allocMapLoop]
    cases ha : env.dmaMapPage i with
    | none => exact ⟨di, i, false, rfl, h, by omega, by simp⟩
    | some a =>
      obtain ⟨hal, hbound, -, -⟩ := hfresh i a ha
      have hfree : ∀ k < 1, translate di.mmu (pfnLo + i + k) = di.mmu.dummyPagePteval := by
        intro k hk
        rw [h.tr, overlay_of_not_mem (by omega), h.ext.dummyPage, Nat.add_assoc]
        exact hun _ (by omega)
      have hm := mmuMap_spec (f := a / 4096) h.ext.inv h.ext.fresh (by omega) (by omega) hfree
      have haddr : 4096 * (a / 4096) = a := by omega
      rw [haddr, Nat.mul_one] at hm
      simp only [Ipu6Mmu.mapPage] at *
      generalize ipu6MmuMap di.mmu env.tables (4096 * (pfnLo + i)) a 4096 = r at hm
      obtain ⟨mmu, e⟩ := r
      cases e with
      | some e => exact ⟨_, i, false, rfl, h.undo hfresh ha hm, by omega, by simp⟩
      | none =>
        obtain ⟨d', t, ok, hrun, hpart, ht, hall⟩ := ih (h.succ hfresh ha hm) (by omega)
          (fun k hk => hun k (by omega))
        exact ⟨d', t, ok, hrun, hpart, by omega, fun hok => by rw [hall hok]; omega⟩

-- ---------------------------------------------------------------------------
-- Unwinding
-- ---------------------------------------------------------------------------

theorem outUnmap_spec (pfnHi : Nat) (h : Partial env pfnLo pages d t di) (hfresh : DmaFresh d env)
    (hb : pfnLo + t ≤ 2 ^ 20)
    (hun : ∀ k < t, translate d.mmu (pfnLo + k) = d.mmu.dummyPagePteval) :
    ∃ d', outUnmap ⟨pfnLo, pfnHi⟩ t di = some d' ∧ Partial env pfnLo pages d 0 d' := by
  induction t generalizing di with
  | zero => exact ⟨di, rfl, h⟩
  | succ t ih =>
    obtain ⟨hal, -, -, -⟩ := hfresh t _ (h.got t (by omega))
    -- the address read back is the one the page was mapped at
    have hread : ipu6MmuIovaToPhys di.mmu (4096 * (pfnLo + t)) = some (addr env t) := by
      rw [iovaToPhys_page (by omega) (h.tables t (by omega)), h.tr, overlay_apply (by omega)]
      congr 1
      omega
    obtain ⟨htr, hk⟩ := mmuUnmap_spec (a := pfnLo + t) (s := 1) h.ext.inv (by omega) (by
      intro k hk
      obtain rfl : k = 0 := by omega
      exact h.tables t (by omega))
    rw [Nat.mul_one] at htr hk
    have hpart : Partial env pfnLo pages d t { di.unmapPage (addr env t) with
        mmu := ipu6MmuUnmap di.mmu (4096 * (pfnLo + t)) 4096 } := by
      refine ⟨h.ext.trans (hk.extends h.ext.inv h.ext.fresh), fun k hk => h.got k (by omega), ?_,
        fun k hkt => ?_, ?_, fun k hk => h.home k (by omega), h.live, h.vmaList, h.iovad, h.held⟩
      · show translate (ipu6MmuUnmap di.mmu (4096 * (pfnLo + t)) 4096) = _
        rw [htr, h.tr, h.ext.dummyPage]
        exact overlay_shrink (hun t (by omega))
      · show ((ipu6MmuUnmap di.mmu (4096 * (pfnLo + t)) 4096).l2Pts _).isSome
        rw [hk.isSome]
        exact h.tables k (by omega)
      · show release di.maps [addr env t] = _
        rw [h.maps, acquire_range_succ, release_acquire]
    obtain ⟨d', hrun, hzero⟩ := ih hpart (by omega) (fun k hk => hun k (by omega))
    refine ⟨d', ?_, hzero⟩
    simp only [outUnmap, hread, Option.bind_eq_bind, Option.bind_some]
    exact hrun

theorem freeUnmapLoop_spec (pfnHi : Nat) (hb : pfnLo + (i + n) ≤ 2 ^ 20)
    (htab : ∀ k < i + n, (d.mmu.l2Pts ((pfnLo + k) / 1024)).isSome) :
    freeUnmapLoop ⟨pfnLo, pfnHi⟩ n i d = some { d with
      maps := release d.maps ((List.range' i n).map fun k => 4096 * translate d.mmu (pfnLo + k)) } := by
  induction n generalizing i d with
  | zero => simp [freeUnmapLoop]
  | succ n ih =>
    have hread := iovaToPhys_page (p := pfnLo + i) (by omega) (htab i (by omega))
    simp only [freeUnmapLoop, hread, Option.bind_eq_bind, Option.bind_some]
    refine (ih (d := d.unmapPage (4096 * translate d.mmu (pfnLo + i))) (i := i + 1) (by omega)
      fun k hk => htab k (by omega)).trans ?_
    simp only [Ipu6Mmu.unmapPage, release_release, List.range'_succ, List.map_cons,
      List.singleton_append]

end

end Ipu4.Dma
