import Mathlib.Data.List.Forall2
import Ipu4.Dma.Store
import Ipu4.Lib.Errno

/-!
# Scatter lists

`ipu6_dma_map_sg`, `ipu6_dma_unmap_sg` and `ipu6_dma_map_sgtable`. The first
says 0 when it could not map the list, and the last passes only negative
numbers on. A list has at most `INT_MAX` entries. `none` is the kernel
following a NULL table pointer.
-/

namespace Ipu4.Dma

open Mmu Overlay

/-- An entry of a scatter list that the PCI device has been mapped for. -/
structure Sg where
  offset : Nat
  dmaAddress : Nat
  dmaLen : Nat
  deriving DecidableEq, Repr

/-- `PFN_UP` of a 32-bit length, in 64 bits. -/
def pfnUp (len : Nat) : Nat := (len + 4095) / 4096

/-- `PAGE_ALIGN` of a 32-bit length, in 32 bits. -/
def pageAlign32 (len : Nat) : Nat := (len + 4095) % 2 ^ 32 / 4096 * 4096

def npages (sgl : List Sg) : Nat := (sgl.map fun e => pfnUp e.dmaLen).sum

structure SgEnv where
  allocIova : Option Nat
  tables : Nat → PageEnv

/-- The mapping loop: the entries it got through with their new addresses, and
whether these are all. -/
def mapSgLoop (env : SgEnv) : List Sg → Nat → MmuInfo → MmuInfo × List Sg × Bool
  | [], _, m => (m, [], true)
  | e :: es, iovaAddr, m =>
    match ipu6MmuMap m env.tables (4096 * iovaAddr) e.dmaAddress (pageAlign32 e.dmaLen) with
    | (m, some _) => (m, [], false)
    | (m, none) =>
      match mapSgLoop env es (iovaAddr + pfnUp e.dmaLen) m with
      | (m, done, ok) => (m, { e with dmaAddress := 4096 * iovaAddr } :: done, ok)

/-- The loop of `ipu6_dma_unmap_sg`, which puts the PCI addresses back. -/
def returnAddrs (m : MmuInfo) : List Sg → Option (List Sg)
  | [] => some []
  | e :: es => do
    let addr ← ipu6MmuIovaToPhys m e.dmaAddress
    let es ← returnAddrs m es
    return { e with dmaAddress := addr } :: es

/-- The first `nents` entries; the range is looked up at the first address
before anything else. -/
def ipu6DmaUnmapSg (d : Ipu6Mmu) (sgl : List Sg) (nents : Nat) : Option (Ipu6Mmu × List Sg) :=
  let iova := sgl.head?.bind fun e => findIova d.iovad (e.dmaAddress / 4096)
  if nents = 0 then some (d, sgl)
  else
    match iova with
    | none => some (d, sgl)
    | some iova => do
      let done ← returnAddrs d.mmu (sgl.take nents)
      let mmu := ipu6MmuUnmap d.mmu (4096 * iova.pfnLo) (4096 * (iova.pfnHi + 1 - iova.pfnLo))
      return ({ d with mmu := mmu, iovad := d.iovad.erase iova }, done ++ sgl.drop nents)

def ipu6DmaMapSg (d : Ipu6Mmu) (env : SgEnv) (sgl : List Sg) : Option (Ipu6Mmu × List Sg × Int) :=
  if sgl.any fun e => e.offset ≠ 0 then some (d, sgl, -EFAULT)
  else
    match env.allocIova with
    | none => some (d, sgl, 0)
    | some pfnLo =>
      let d := { d with iovad := ⟨pfnLo, pfnLo + npages sgl - 1⟩ :: d.iovad }
      match mapSgLoop env sgl pfnLo d.mmu with
      | (mmu, done, true) => some ({ d with mmu := mmu }, done, sgl.length)
      | (mmu, done, false) => do
        let (d, sgl) ← ipu6DmaUnmapSg { d with mmu := mmu } (done ++ sgl.drop done.length) done.length
        return (d, sgl, 0)

structure SgTable where
  sgl : List Sg
  nents : Nat
  deriving DecidableEq, Repr

/-- The entries of the table are the `nents` first of `sgl`. -/
def ipu6DmaMapSgtable (d : Ipu6Mmu) (env : SgEnv) (sgt : SgTable) :
    Option (Ipu6Mmu × SgTable × Int) := do
  let (d, sgl, nents) ← ipu6DmaMapSg d env (sgt.sgl.take sgt.nents)
  let sgl := sgl ++ sgt.sgl.drop sgt.nents
  if nents < 0 then return (d, { sgt with sgl := sgl }, nents)
  else return (d, ⟨sgl, nents.toNat⟩, 0)

/-- The address `ipu6_isys_buf_init` takes for its buffer; an error of
`ipu6_dma_map_sgtable` is passed on. -/
def ipu6IsysBufInit (d : Ipu6Mmu) (env : SgEnv) (sgt : SgTable) :
    Option (Ipu6Mmu × Except Int (Option Nat)) := do
  let (d, sgt, ret) ← ipu6DmaMapSgtable d env sgt
  if ret ≠ 0 then return (d, .error ret)
  else return (d, .ok (sgt.sgl.head?.map Sg.dmaAddress))

-- ---------------------------------------------------------------------------
-- The mapping loop
-- ---------------------------------------------------------------------------

/-- The entries `done` are the first of `es`, placed one after the other from
page `a` on. -/
inductive Placed (m : MmuInfo) : Nat → List Sg → List Sg → Prop
  | nil (a : Nat) (es : List Sg) : Placed m a es []
  | cons (e : Sg) (a : Nat) (es done : List Sg) : e.dmaAddress % 4096 = 0 →
      (∀ j < pfnUp e.dmaLen, translate m (a + j) = e.dmaAddress / 4096 + j ∧
        (m.l2Pts ((a + j) / 1024)).isSome) →
      Placed m (a + pfnUp e.dmaLen) es done →
      Placed m a (e :: es) ({ e with dmaAddress := 4096 * a } :: done)

/-- A list whose pages fit the address space, and whose addresses fit a table
entry. -/
structure Fits (sgl : List Sg) (a : Nat) : Prop where
  pos : 1 ≤ a
  range : a + npages sgl ≤ 2 ^ 20
  phys : ∀ e ∈ sgl, e.dmaAddress + 4096 * pfnUp e.dmaLen ≤ 2 ^ 39

theorem npages_cons (e : Sg) (es : List Sg) : npages (e :: es) = pfnUp e.dmaLen + npages es := by
  simp [npages]

theorem npages_take_le (n : Nat) (sgl : List Sg) : npages (sgl.take n) ≤ npages sgl := by
  induction sgl generalizing n with
  | nil => simp
  | cons e es ih =>
    cases n with
    | zero => simp [npages]
    | succ n =>
      have := ih n
      rw [List.take_succ_cons, npages_cons, npages_cons]
      omega

theorem Fits.tail (h : Fits (e :: es) a) : Fits es (a + pfnUp e.dmaLen) where
  pos := Nat.le_add_right_of_le h.pos
  range := by have := h.range; rw [npages_cons] at this; omega
  phys := fun e' he' => h.phys e' (List.mem_cons_of_mem _ he')

theorem Fits.pageAlign (h : Fits (e :: es) a) : pageAlign32 e.dmaLen = 4096 * pfnUp e.dmaLen := by
  have hrange := h.range
  have hpos := h.pos
  rw [npages_cons] at hrange
  unfold pageAlign32 pfnUp at *
  omega

theorem mmuMap_unaligned (hi : Mmu.Inv m) (h : paddr % 4096 ≠ 0) :
    ipu6MmuMap m env iova paddr size = (m, some .EINVAL) := by
  have hal : isAligned (iova ||| paddr ||| size) 4096 = false := by
    rw [Bool.eq_false_iff, Ne, isAligned_page, or_mod_page, or_mod_page]
    exact fun hall => h hall.1.2
  have hpg : m.pgsizeBitmap ≠ 0 := by
    rw [hi.pgsize]
    decide
  unfold ipu6MmuMap
  rw [if_neg hpg, minPagesz_eq hi, hal]
  rfl

theorem mapSgLoop_spec (hi : Mmu.Inv m) (hf : Fresh m env.tables) (hfit : Fits es a)
    (hun : ∀ k < npages es, translate m (a + k) = m.dummyPagePteval) :
    ∃ m' done ok, mapSgLoop env es a m = (m', done, ok) ∧ Extends env.tables m m' ∧
      Placed m' a es done ∧
      (∀ p, ¬ (a ≤ p ∧ p < a + npages (es.take done.length)) → translate m' p = translate m p) ∧
      (ok = true → done.length = es.length) ∧
      (ok = true ↔ (∀ e ∈ es, e.dmaAddress % 4096 = 0) ∧
        ∀ k < npages es, CanTable m env.tables ((a + k) / 1024)) := by
  induction es generalizing m a with
  | nil => exact ⟨m, [], true, rfl, .refl hi hf, .nil .., by simp, by simp, by simp [npages]⟩
  | cons e es ih =>
    have hrange := hfit.range
    have hphys := hfit.phys e List.mem_cons_self
    rw [npages_cons] at hrange
    simp only [npages_cons] at hun ⊢
    by_cases hal : e.dmaAddress % 4096 = 0
    · have hm := mmuMap_spec (f := e.dmaAddress / 4096) (s := pfnUp e.dmaLen) hi hf (by omega)
        (by omega) fun k hk => hun k (by omega)
      rw [show 4096 * (e.dmaAddress / 4096) = e.dmaAddress by omega, ← hfit.pageAlign] at hm
      simp only [mapSgLoop]
      generalize ipu6MmuMap m env.tables (4096 * a) e.dmaAddress (pageAlign32 e.dmaLen) = r at hm
      obtain ⟨m₁, err⟩ := r
      cases err with
      | some err =>
        refine ⟨m₁, [], false, rfl, hm.ext, .nil .., fun p _ => congrFun (hm.err (by simp)) p,
          by simp, ?_⟩
        have hcan := hm.can
        simp only [reduceCtorEq, false_iff] at hcan
        simp only [Bool.false_eq_true, false_iff]
        exact fun h => hcan fun k hk => h.2 k (by omega)
      | none =>
        obtain ⟨htr, htab⟩ := hm.ok rfl
        obtain ⟨m', done, ok, hrun, hext, hplaced, hout, hlen, hok⟩ :=
          ih (m := m₁) (a := a + pfnUp e.dmaLen) hm.ext.inv hm.ext.fresh hfit.tail fun k hk => by
            rw [htr, overlay_of_not_mem (by omega), Nat.add_assoc, hun _ (by omega)]
            exact hm.ext.dummyPage.symm
        refine ⟨m', { e with dmaAddress := 4096 * a } :: done, ok, by simp only [hrun],
          hm.ext.trans hext, .cons e a es done hal (fun j hj => ⟨?_, hext.tables _ (htab j hj)⟩) hplaced,
          fun p hp => ?_, fun h => by simp [hlen h], ?_⟩
        · rw [hout _ (by omega), htr, overlay_apply hj]
        · simp only [List.length_cons, List.take_succ_cons, npages_cons] at hp
          rw [hout p (by omega), htr, overlay_of_not_mem (by omega)]
        · rw [hok]
          have hhead := hm.can.mp rfl
          constructor
          · rintro ⟨hals, hcans⟩
            refine ⟨List.forall_mem_cons.mpr ⟨hal, hals⟩, fun k hk => ?_⟩
            by_cases hke : k < pfnUp e.dmaLen
            · exact hhead k hke
            · rw [show a + k = a + pfnUp e.dmaLen + (k - pfnUp e.dmaLen) by omega]
              exact (hm.ext.can _).mp (hcans _ (by omega))
          · rintro ⟨hals, hcans⟩
            refine ⟨(List.forall_mem_cons.mp hals).2, fun k hk => (hm.ext.can _).mpr ?_⟩
            rw [Nat.add_assoc]
            exact hcans _ (by omega)
    · refine ⟨m, [], false, ?_, .refl hi hf, .nil .., fun _ _ => rfl, by simp, ?_⟩
      · simp only [mapSgLoop, mmuMap_unaligned hi hal]
      · simp only [Bool.false_eq_true, false_iff]
        exact fun h => hal (h.1 e List.mem_cons_self)

theorem Placed.tables (h : Placed m a es done) (hk : k < npages (es.take done.length)) :
    (m.l2Pts ((a + k) / 1024)).isSome := by
  induction h generalizing k with
  | nil => simp [npages] at hk
  | cons e a es done _ hpages _ ih =>
    simp only [List.length_cons, List.take_succ_cons, npages_cons] at hk
    by_cases hke : k < pfnUp e.dmaLen
    · exact (hpages k hke).2
    · rw [show a + k = a + pfnUp e.dmaLen + (k - pfnUp e.dmaLen) by omega]
      exact ih (by omega)

-- ---------------------------------------------------------------------------
-- What is reported
-- ---------------------------------------------------------------------------

/-- The device finds page `x / 4096` of its address space at `phys`. -/
def MappedAt (m : MmuInfo) (x phys : Nat) : Prop :=
  x < 2 ^ 32 ∧ x % 4096 = 0 ∧ phys % 4096 = 0 ∧ deviceWalk m (x / 4096) = some (phys / 4096)

/-- Every page of the entry is mapped at the entry's new address. -/
def EntryMapped (m : MmuInfo) (e e' : Sg) : Prop :=
  ∀ j < pfnUp e.dmaLen, MappedAt m (e'.dmaAddress + 4096 * j) (e.dmaAddress + 4096 * j)

/-- The entries a table has been mapped for the PCI device with. -/
def SgTable.entries (sgt : SgTable) : List Sg := sgt.sgl.take sgt.nents

/-- The call returns, with 0 only if every page of every entry is mapped at
that entry's address, and with a negative number otherwise. -/
def Reported (sgt : SgTable) : Option (Ipu6Mmu × SgTable × Int) → Prop
  | none => False
  | some (d, sgt', ret) => ret < 0 ∨
    (ret = 0 ∧ List.Forall₂ (EntryMapped d.mmu) sgt.entries (sgt'.sgl.take sgt.nents))

/-- The list is refused for an offset, or it gets an address range, is made of
whole pages, and finds or gets every page table it needs. -/
def Served (d : Ipu6Mmu) (env : SgEnv) (sgl : List Sg) : Prop :=
  (∃ e ∈ sgl, e.offset ≠ 0) ∨
    ∃ lo, env.allocIova = some lo ∧ (∀ e ∈ sgl, e.dmaAddress % 4096 = 0) ∧
      ∀ p, lo ≤ p → p < lo + npages sgl → CanTable d.mmu env.tables (p / 1024)

/-- A state and answers the kernel can give in it: pages outside the ranges of
the IOVA domain are unmapped, and new ranges are free. -/
structure SgOk (d : Ipu6Mmu) (env : SgEnv) (sgl : List Sg) : Prop where
  inv : Mmu.Inv d.mmu
  aperture : d.mmu.apertureEnd < 2 ^ 32
  free : ∀ p, (∀ r ∈ d.iovad, ¬ r.Mem p) → translate d.mmu p = d.mmu.dummyPagePteval
  tables : Fresh d.mmu env.tables
  phys : ∀ e ∈ sgl, e.dmaAddress + 4096 * pfnUp e.dmaLen ≤ 2 ^ 39
  iova : ∀ lo, env.allocIova = some lo → 1 ≤ lo ∧
    lo + npages sgl ≤ d.mmu.apertureEnd / 4096 + 1 ∧
    ∀ p, lo ≤ p → p < lo + npages sgl → ∀ r ∈ d.iovad, ¬ r.Mem p

/-- Some page of the list is not yet found at its own PCI address, and is not
the dummy page. -/
def Unfound (d : Ipu6Mmu) (sgl : List Sg) : Prop :=
  ∃ e ∈ sgl, ∃ j < pfnUp e.dmaLen,
    ¬ MappedAt d.mmu (e.dmaAddress + 4096 * j) (e.dmaAddress + 4096 * j) ∧
    (e.dmaAddress + 4096 * j) / 4096 ≠ d.mmu.dummyPagePteval

section
variable {d d' : Ipu6Mmu} {env : SgEnv} {sgl sgl' : List Sg}

theorem SgOk.fits (h : SgOk d env sgl) (hlo : env.allocIova = some lo) : Fits sgl lo := by
  obtain ⟨hpos, hrange, -⟩ := h.iova lo hlo
  have := h.aperture
  exact ⟨hpos, by omega, h.phys⟩

theorem SgOk.loop (h : SgOk d env sgl) (hlo : env.allocIova = some lo) :
    ∃ m' done ok, mapSgLoop env sgl lo d.mmu = (m', done, ok) ∧ Extends env.tables d.mmu m' ∧
      Placed m' lo sgl done ∧
      (∀ p, ¬ (lo ≤ p ∧ p < lo + npages (sgl.take done.length)) →
        translate m' p = translate d.mmu p) ∧
      (ok = true → done.length = sgl.length) ∧
      (ok = true ↔ (∀ e ∈ sgl, e.dmaAddress % 4096 = 0) ∧
        ∀ k < npages sgl, CanTable d.mmu env.tables ((lo + k) / 1024)) :=
  mapSgLoop_spec h.inv h.tables (h.fits hlo) fun k hk =>
    h.free _ ((h.iova lo hlo).2.2 _ (by omega) (by omega))

-- ---------------------------------------------------------------------------
-- Success
-- ---------------------------------------------------------------------------

theorem Placed.entryMapped (h : Placed m a es done) (hi : Mmu.Inv m)
    (hlen : done.length = es.length) (hb : a + npages es ≤ 2 ^ 20) :
    List.Forall₂ (EntryMapped m) es done := by
  induction h with
  | nil =>
    obtain rfl := List.length_eq_zero_iff.mp hlen.symm
    exact .nil
  | cons e a es done hal hpages _ ih =>
    rw [npages_cons] at hb
    refine .cons (fun j hj => ?_) (ih (by simpa using hlen) (by omega))
    show MappedAt m (4096 * a + 4096 * j) (e.dmaAddress + 4096 * j)
    have hpage : (4096 * a + 4096 * j) / 4096 = a + j := by omega
    refine ⟨by omega, by omega, by omega, ?_⟩
    rw [hpage, deviceWalk_eq hi (by omega), (hpages j hj).1]
    congr 1
    omega

theorem mapSg_offset (h : ∃ e ∈ sgl, e.offset ≠ 0) :
    ipu6DmaMapSg d env sgl = some (d, sgl, -EFAULT) := by
  have hany : (sgl.any fun e => e.offset ≠ 0) = true := by simpa using h
  unfold ipu6DmaMapSg
  rw [if_pos hany]

theorem mapSg_served (hsg : SgOk d env sgl) (h : Served d env sgl) :
    (∃ d' sgl' ret, ipu6DmaMapSg d env sgl = some (d', sgl', ret) ∧ ret < 0) ∨
    ∃ (d' : Ipu6Mmu) (sgl' : List Sg), ipu6DmaMapSg d env sgl = some (d', sgl', (sgl.length : Int)) ∧
      List.Forall₂ (EntryMapped d'.mmu) sgl sgl' := by
  by_cases hoff : ∃ e ∈ sgl, e.offset ≠ 0
  · exact .inl ⟨d, sgl, -EFAULT, mapSg_offset hoff, by decide⟩
  · obtain ⟨lo, hlo, hal, hcan⟩ := h.resolve_left hoff
    obtain ⟨m', done, ok, hrun, hext, hplaced, -, hlen, hok⟩ := hsg.loop hlo
    have hok : ok = true := hok.mpr ⟨hal, fun k hk => hcan _ (by omega) (by omega)⟩
    subst hok
    have hany : (sgl.any fun e => e.offset ≠ 0) = false := by simpa using hoff
    have hmapped := hplaced.entryMapped hext.inv (hlen rfl) (hsg.fits hlo).range
    refine .inr ⟨{ d with mmu := m', iovad := ⟨lo, lo + npages sgl - 1⟩ :: d.iovad }, done, ?_, hmapped⟩
    simp only [ipu6DmaMapSg, hany, Bool.false_eq_true, if_false, hlo, hrun]

-- ---------------------------------------------------------------------------
-- Failure
-- ---------------------------------------------------------------------------

/-- An entry with pages has its PCI address again. -/
def Back (e e' : Sg) : Prop := 0 < pfnUp e.dmaLen → e'.dmaAddress = e.dmaAddress

theorem back_self (sgl : List Sg) : List.Forall₂ Back sgl sgl :=
  List.forall₂_same.mpr fun _ _ _ => rfl

theorem Placed.back (h : Placed m a es done) (hb : a + npages es ≤ 2 ^ 20)
    (hret : returnAddrs m done = some done') :
    List.Forall₂ Back es (done' ++ es.drop done.length) := by
  induction h generalizing done' with
  | nil =>
    obtain rfl := Option.some.inj hret
    exact back_self _
  | cons e a es done hal hpages _ ih =>
    rw [npages_cons] at hb
    simp only [returnAddrs, Option.bind_eq_bind, Option.bind_eq_some_iff, Option.pure_def] at hret
    obtain ⟨x, hx, rest, hrest, hdone⟩ := hret
    obtain rfl := Option.some.inj hdone
    refine .cons (fun hpos => ?_) (ih (by omega) hrest)
    obtain ⟨htr, htab⟩ := hpages 0 hpos
    rw [Nat.add_zero] at htr htab
    rw [iovaToPhys_page (by omega) htab, htr] at hx
    have hx := Option.some.inj hx
    show x = e.dmaAddress
    omega

/-- What a list that could not be mapped leaves: the PCI addresses, and
translations as they were or of the dummy page. -/
structure Dropped (d : Ipu6Mmu) (sgl : List Sg) (d' : Ipu6Mmu) (sgl' : List Sg) : Prop where
  inv : Mmu.Inv d'.mmu
  or : ∀ p, translate d'.mmu p = translate d.mmu p ∨ translate d'.mmu p = d.mmu.dummyPagePteval
  back : List.Forall₂ Back sgl sgl'

theorem unmapSg_dropped (hsg : SgOk d env sgl) (hlo : env.allocIova = some lo)
    (hpos : 0 < npages sgl) (hext : Extends env.tables d.mmu m') (hplaced : Placed m' lo sgl done)
    (hout : ∀ p, ¬ (lo ≤ p ∧ p < lo + npages (sgl.take done.length)) →
      translate m' p = translate d.mmu p)
    (hun : ipu6DmaUnmapSg { d with mmu := m', iovad := ⟨lo, lo + npages sgl - 1⟩ :: d.iovad }
      (done ++ sgl.drop done.length) done.length = some (d', sgl')) : Dropped d sgl d' sgl' := by
  have hrange := (hsg.fits hlo).range
  cases hplaced with
  | nil =>
    simp only [ipu6DmaUnmapSg, List.length_nil, if_true, Option.some.injEq, Prod.mk.injEq] at hun
    obtain ⟨rfl, rfl⟩ := hun
    refine ⟨hext.inv, fun p => .inl (hout p ?_), back_self _⟩
    simp [npages]
  | cons e _ es done hal hpages hrest =>
    have hplaced : Placed m' lo (e :: es) ({ e with dmaAddress := 4096 * lo } :: done) :=
      .cons e lo es done hal hpages hrest
    have hle := npages_take_le (done.length + 1) (e :: es)
    -- the new range is the first one looked at
    have hfind : findIova (⟨lo, lo + npages (e :: es) - 1⟩ :: d.iovad) (4096 * lo / 4096) =
        some ⟨lo, lo + npages (e :: es) - 1⟩ := by
      have hin : lo ≤ lo + npages (e :: es) - 1 := by omega
      simp [findIova, hin]
    have hsize : lo + npages (e :: es) - 1 + 1 - lo = npages (e :: es) := by omega
    simp only [ipu6DmaUnmapSg, List.cons_append, List.head?_cons, Option.bind_some, hfind,
      List.length_cons, Nat.succ_ne_zero, if_false, hsize, Option.bind_eq_bind,
      Option.bind_eq_some_iff, Option.pure_def, Option.some.injEq, Prod.mk.injEq] at hun
    obtain ⟨done', hret, rfl, rfl⟩ := hun
    obtain ⟨hdummy, hor, hk⟩ := mmuUnmap_prefix hext.inv hrange hle
      (fun k hk => hplaced.tables (by simpa using hk))
    rw [hext.dummyPage] at hdummy hor
    refine ⟨hk.inv hext.inv, fun p => ?_, ?_⟩
    · by_cases hin : lo ≤ p ∧ p < lo + npages ((e :: es).take (done.length + 1))
      · rw [show p = lo + (p - lo) by omega]
        exact .inr (hdummy _ (by omega))
      · rcases hor p with h | h
        · exact .inl (h.trans (hout p (by simpa using hin)))
        · exact .inr h
    · rw [List.take_succ_cons, List.take_left] at hret
      rw [List.drop_succ_cons, List.drop_left]
      exact hplaced.back hrange hret

theorem mapSg_not_served (hsg : SgOk d env sgl) (hpos : 0 < npages sgl)
    (h : ¬ Served d env sgl) (hrun : ipu6DmaMapSg d env sgl = some (d', sgl', ret)) :
    ret = 0 ∧ Dropped d sgl d' sgl' := by
  unfold Served at h
  obtain ⟨hoff, hrest⟩ := not_or.mp h
  have hany : (sgl.any fun e => e.offset ≠ 0) = false := by simpa using hoff
  cases hlo : env.allocIova with
  | none =>
    simp only [ipu6DmaMapSg, hany, Bool.false_eq_true, if_false, hlo, Option.some.injEq,
      Prod.mk.injEq] at hrun
    obtain ⟨rfl, rfl, rfl⟩ := hrun
    exact ⟨rfl, hsg.inv, fun _ => .inl rfl, back_self _⟩
  | some lo =>
    obtain ⟨m', done, ok, hloop, hext, hplaced, hout, -, hok⟩ := hsg.loop hlo
    have hok : ok = false := by
      rw [← Bool.not_eq_true, hok]
      rintro ⟨hal, hcan⟩
      refine hrest ⟨lo, hlo, hal, fun p h₁ h₂ => ?_⟩
      rw [show p = lo + (p - lo) by omega]
      exact hcan _ (by omega)
    subst hok
    simp only [ipu6DmaMapSg, hany, Bool.false_eq_true, if_false, hlo, hloop, Option.bind_eq_bind,
      Option.bind_eq_some_iff, Prod.exists, Option.pure_def, Option.some.injEq,
      Prod.mk.injEq] at hrun
    obtain ⟨d₁, sgl₁, hun, rfl, rfl, rfl⟩ := hrun
    exact ⟨rfl, unmapSg_dropped hsg hlo hpos hext hplaced hout hun⟩

theorem Dropped.not_mappedAt (h : Dropped d sgl d' sgl') (hi : Mmu.Inv d.mmu)
    (hno : ¬ MappedAt d.mmu x x) (hdummy : x / 4096 ≠ d.mmu.dummyPagePteval) :
    ¬ MappedAt d'.mmu x x := by
  rintro ⟨hlt, hal, hal', hwalk⟩
  rw [deviceWalk_eq h.inv (by omega), Option.some.injEq] at hwalk
  rcases h.or (x / 4096) with hsame | hsame
  · refine hno ⟨hlt, hal, hal', ?_⟩
    rw [deviceWalk_eq hi (by omega), ← hsame, hwalk]
  · exact hdummy (hwalk.symm.trans hsame)

theorem npages_pos (he : e ∈ sgl) (hj : j < pfnUp e.dmaLen) : 0 < npages sgl := by
  induction sgl with
  | nil => cases he
  | cons e' es ih =>
    rw [npages_cons]
    rcases List.mem_cons.mp he with rfl | he
    · omega
    · have := ih he
      omega

theorem forall₂_exists (h : List.Forall₂ R l l') (h' : List.Forall₂ S l l') (he : e ∈ l) :
    ∃ e', R e e' ∧ S e e' := by
  induction h with
  | nil => cases he
  | cons hR _ ih =>
    cases h' with
    | cons hS hrest =>
      rcases List.mem_cons.mp he with rfl | he
      · exact ⟨_, hR, hS⟩
      · exact ih hrest he

theorem Dropped.not_entryMapped (h : Dropped d sgl d' sgl') (hi : Mmu.Inv d.mmu)
    (hun : Unfound d sgl) : ¬ List.Forall₂ (EntryMapped d'.mmu) sgl sgl' := by
  intro hmapped
  obtain ⟨e, he, j, hj, hno, hdummy⟩ := hun
  obtain ⟨e', hmap, hback⟩ := forall₂_exists hmapped h.back he
  have haddr := hback (by omega)
  have hmap := hmap j hj
  rw [haddr] at hmap
  exact h.not_mappedAt hi hno hdummy hmap

end

-- ---------------------------------------------------------------------------
-- What `ipu6_dma_map_sgtable` reports
-- ---------------------------------------------------------------------------

theorem mapSgtable_of_mapSg (hrun : ipu6DmaMapSg d env sgt.entries = some (d', sgl', ret)) :
    ipu6DmaMapSgtable d env sgt = some (if ret < 0 then
      (d', { sgt with sgl := sgl' ++ sgt.sgl.drop sgt.nents }, ret)
      else (d', ⟨sgl' ++ sgt.sgl.drop sgt.nents, ret.toNat⟩, 0)) := by
  unfold SgTable.entries at hrun
  simp only [ipu6DmaMapSgtable, hrun, Option.bind_eq_bind, Option.bind_some]
  split <;> rfl

/-- Whatever the list, the state and the answers of the kernel: if the list is
served, the result is reported; and a list with a page that is not already
found at its own PCI address is reported only if it is served. -/
theorem mapSgtable_reported (hsg : SgOk d env sgt.entries) (hn : sgt.nents ≤ sgt.sgl.length) :
    (Served d env sgt.entries → Reported sgt (ipu6DmaMapSgtable d env sgt)) ∧
    (Unfound d sgt.entries → Reported sgt (ipu6DmaMapSgtable d env sgt) →
      Served d env sgt.entries) := by
  have hlen : sgt.entries.length = sgt.nents := by simp [SgTable.entries, hn]
  constructor
  · intro h
    rcases mapSg_served hsg h with ⟨d', sgl', ret, hrun, hneg⟩ | ⟨d', sgl', hrun, hmapped⟩
    · rw [mapSgtable_of_mapSg hrun, if_pos hneg]
      exact .inl hneg
    · rw [mapSgtable_of_mapSg hrun, if_neg (by omega)]
      refine .inr ⟨rfl, ?_⟩
      rw [List.take_left' (by rw [← hmapped.length_eq, hlen])]
      exact hmapped
  · intro hun hrep
    by_contra hserved
    obtain ⟨e, he, j, hj, -⟩ := id hun
    cases hrun : ipu6DmaMapSg d env sgt.entries with
    | none =>
      unfold SgTable.entries at hrun
      simp [ipu6DmaMapSgtable, hrun, Reported] at hrep
    | some r =>
      obtain ⟨d', sgl', ret⟩ := r
      obtain ⟨rfl, hdrop⟩ := mapSg_not_served hsg (npages_pos he hj) hserved hrun
      rw [mapSgtable_of_mapSg hrun, if_neg (by omega)] at hrep
      rcases hrep with hneg | ⟨-, hmapped⟩
      · exact absurd hneg (by decide)
      · rw [List.take_left' (by rw [← hdrop.back.length_eq, hlen])] at hmapped
        exact hdrop.not_entryMapped hsg.inv hun hmapped

def onePage : SgTable := ⟨[⟨0, 4096 * 50, 4096⟩], 1⟩

def onePageEnv (allocIova : Option Nat) : SgEnv := ⟨allocIova, plainTables 2⟩

theorem sgOk_onePage (allocIova : Option Nat) (h : ∀ lo ∈ allocIova, 1 ≤ lo ∧ lo < 1024) :
    SgOk emptyStore (onePageEnv allocIova) onePage.entries where
  inv := start_emptyStore.inv
  aperture := by decide
  free := start_emptyStore.free
  tables := fresh_plainTables (by omega)
  phys := by decide
  iova := fun lo hlo => by
    obtain ⟨hpos, hlt⟩ := h lo hlo
    refine ⟨hpos, ?_, by simp [emptyStore]⟩
    show lo + 1 ≤ _
    have : 1023 + 1 ≤ emptyStore.mmu.apertureEnd / 4096 + 1 := by decide
    omega

/-- Without a free range the call says 0, and the buffer goes to the device
under its PCI address, where the device finds the dummy page. -/
theorem mapSgtable_hides_no_iova :
    SgOk emptyStore (onePageEnv none) onePage.entries ∧
    ipu6DmaMapSgtable emptyStore (onePageEnv none) onePage =
      some (emptyStore, { onePage with nents := 0 }, 0) ∧
    (ipu6IsysBufInit emptyStore (onePageEnv none) onePage).map Prod.snd =
      some (.ok (some (4096 * 50))) ∧
    ¬ Reported onePage (ipu6DmaMapSgtable emptyStore (onePageEnv none) onePage) := by
  refine ⟨sgOk_onePage _ (by simp), rfl, rfl, ?_⟩
  rintro (hneg | ⟨-, hmapped⟩)
  · exact absurd hneg (by decide)
  · obtain ⟨-, -, -, hwalk⟩ := (List.forall₂_cons.mp hmapped).1 0 (by decide)
    revert hwalk
    decide +kernel

theorem mapSgtable_reported_one_page :
    Reported onePage (ipu6DmaMapSgtable emptyStore (onePageEnv (some 1023)) onePage) := by
  refine (mapSgtable_reported (sgOk_onePage _ (by simp)) (by decide)).1 (.inr ⟨1023, rfl, by decide, ?_⟩)
  intro p hlo hhi
  obtain rfl : p = 1023 := by
    have : npages onePage.entries = 1 := rfl
    omega
  exact .inr ⟨rfl, by decide⟩

end Ipu4.Dma
