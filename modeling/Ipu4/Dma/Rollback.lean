import Ipu4.Dma.RoundTrip
import Ipu4.Mmu.Unmap

/-!
# Scatter lists that cannot be mapped

`ipu6_dma_map_sg` undoes what it did through `ipu6_dma_unmap_sg` with the number
of entries it got through. That returns at once if there are none, and unmaps
the whole new range otherwise, tables or not.
-/

namespace Ipu4.Dma

open Mmu Overlay
open Runs (Reachable)

-- ---------------------------------------------------------------------------
-- Where the loop stops
-- ---------------------------------------------------------------------------

/-- An entry of whole pages, all of which have tables or can have them. -/
def Mappable (m : MmuInfo) (env : Nat → PageEnv) (a : Nat) (e : Sg) : Prop :=
  e.dmaAddress % 4096 = 0 ∧ ∀ k < pfnUp e.dmaLen, CanTable m env ((a + k) / 1024)

instance (m : MmuInfo) (env : Nat → PageEnv) (a : Nat) (e : Sg) : Decidable (Mappable m env a e) :=
  inferInstanceAs (Decidable (_ ∧ _))

/-- Entry `i` is the first that `ipu6_mmu_map` refuses. -/
structure FailsAt (m : MmuInfo) (env : Nat → PageEnv) (lo : Nat) (sgl : List Sg) (i : Nat) : Prop where
  before : ∀ j < i, ∀ e, sgl[j]? = some e → Mappable m env (lo + npages (sgl.take j)) e
  here : ∃ e, sgl[i]? = some e ∧ ¬ Mappable m env (lo + npages (sgl.take i)) e

/-- The pages of the entries before the first that is not made of whole pages. -/
def wholePages (sgl : List Sg) : Nat := npages (sgl.takeWhile fun e => e.dmaAddress % 4096 = 0)

section
variable {sgl es : List Sg}

theorem failsAt_zero : FailsAt m env lo (e :: es) 0 ↔ ¬ Mappable m env lo e := by
  constructor
  · rintro ⟨-, x, hx, hno⟩
    obtain rfl := Option.some.inj hx
    simpa [npages] using hno
  · intro hno
    exact ⟨by simp, e, rfl, by simpa [npages] using hno⟩

theorem failsAt_succ : FailsAt m env lo (e :: es) (i + 1) ↔
    Mappable m env lo e ∧ FailsAt m env (lo + pfnUp e.dmaLen) es i := by
  constructor
  · rintro ⟨hbefore, x, hx, hno⟩
    have hhead := hbefore 0 (by omega) e rfl
    refine ⟨by simpa [npages] using hhead, fun j hj x hx => ?_, x, hx, ?_⟩
    · have hnext := hbefore (j + 1) (by omega) x hx
      rwa [List.take_succ_cons, npages_cons, ← Nat.add_assoc] at hnext
    · rwa [List.take_succ_cons, npages_cons, ← Nat.add_assoc] at hno
  · rintro ⟨hhead, hbefore, x, hx, hno⟩
    refine ⟨fun j hj x hx => ?_, x, hx, ?_⟩
    · cases j with
      | zero =>
        obtain rfl := Option.some.inj hx
        simpa [npages] using hhead
      | succ j =>
        rw [List.take_succ_cons, npages_cons, ← Nat.add_assoc]
        exact hbefore j (by omega) x hx
    · rwa [List.take_succ_cons, npages_cons, ← Nat.add_assoc]

theorem mmuMap_entry (hi : Mmu.Inv m) (hf : Fresh m env) (hfit : Fits (e :: es) a) :
    Extends env m (ipu6MmuMap m env (4096 * a) e.dmaAddress (pageAlign32 e.dmaLen)).1 ∧
    ((ipu6MmuMap m env (4096 * a) e.dmaAddress (pageAlign32 e.dmaLen)).2 = none ↔
      Mappable m env a e) ∧
    ∀ k, ((ipu6MmuMap m env (4096 * a) e.dmaAddress (pageAlign32 e.dmaLen)).1.l2Pts k).isSome ↔
      if e.dmaAddress % 4096 = 0 then Tabled m env a (pfnUp e.dmaLen) k else (m.l2Pts k).isSome := by
  have hrange := hfit.range
  have hphys := hfit.phys e List.mem_cons_self
  rw [npages_cons] at hrange
  by_cases hal : e.dmaAddress % 4096 = 0
  · have haddr : e.dmaAddress = 4096 * (e.dmaAddress / 4096) := by omega
    obtain ⟨hext, hcan⟩ := mmuMap_extends (a := a) (f := e.dmaAddress / 4096) (s := pfnUp e.dmaLen)
      hi hf (by omega) (by omega)
    have htables := mmuMap_tables (a := a) (f := e.dmaAddress / 4096) (s := pfnUp e.dmaLen)
      hi hf (by omega) (by omega)
    rw [← haddr, ← hfit.pageAlign] at hext hcan htables
    simp only [Mappable, hal, true_and, if_true]
    exact ⟨hext, hcan, htables⟩
  · rw [mmuMap_unaligned hi hal]
    simp only [Mappable, hal, false_and, if_false, reduceCtorEq, implies_true, and_true]
    exact .refl hi hf

theorem mapSgLoop_failsAt (env : SgEnv) (hi : Mmu.Inv m) (hf : Fresh m env.tables)
    (hfit : Fits sgl a) :
    ((mapSgLoop env sgl a m).2.1.length = i ∧ (mapSgLoop env sgl a m).2.2 = false) ↔
      FailsAt m env.tables a sgl i := by
  induction sgl generalizing m a i with
  | nil =>
    refine iff_of_false (by simp [mapSgLoop]) ?_
    rintro ⟨-, e, he, -⟩
    simp at he
  | cons e es ih =>
    obtain ⟨hext, hok, -⟩ := mmuMap_entry hi hf hfit
    simp only [mapSgLoop]
    generalize ipu6MmuMap m env.tables (4096 * a) e.dmaAddress (pageAlign32 e.dmaLen) = r at hext hok
    obtain ⟨m₁, err⟩ := r
    cases err with
    | some err =>
      have hno : ¬ Mappable m env.tables a e := fun hmap => by simpa using hok.mpr hmap
      cases i with
      | zero => exact iff_of_true ⟨rfl, rfl⟩ (failsAt_zero.mpr hno)
      | succ i => exact iff_of_false (by simp) fun h => hno (failsAt_succ.mp h).1
    | none =>
      have hmap := hok.mp rfl
      cases i with
      | zero => exact iff_of_false (by simp) fun h => failsAt_zero.mp h hmap
      | succ i =>
        have hsame : FailsAt m₁ env.tables (a + pfnUp e.dmaLen) es i ↔
            FailsAt m env.tables (a + pfnUp e.dmaLen) es i := by
          have hcan : ∀ a e, Mappable m₁ env.tables a e ↔ Mappable m env.tables a e := fun a e => by
            simp only [Mappable, hext.can]
          constructor
          · rintro ⟨hbefore, hhere⟩
            exact ⟨by simpa only [hcan] using hbefore, by simpa only [hcan] using hhere⟩
          · rintro ⟨hbefore, hhere⟩
            exact ⟨by simpa only [hcan] using hbefore, by simpa only [hcan] using hhere⟩
        have hrest := ih (i := i) hext.inv hext.fresh hfit.tail
        rw [hsame] at hrest
        rw [failsAt_succ, ← hrest]
        simp [hmap]

theorem mapSgLoop_tables (env : SgEnv) (hi : Mmu.Inv m) (hf : Fresh m env.tables)
    (hfit : Fits sgl a) (k : Nat) :
    ((mapSgLoop env sgl a m).1.l2Pts k).isSome ↔ Tabled m env.tables a (wholePages sgl) k := by
  induction sgl generalizing m a with
  | nil => simp [mapSgLoop, wholePages, npages]
  | cons e es ih =>
    obtain ⟨hext, hok, htables⟩ := mmuMap_entry hi hf hfit
    simp only [mapSgLoop]
    generalize ipu6MmuMap m env.tables (4096 * a) e.dmaAddress (pageAlign32 e.dmaLen) = r
      at hext hok htables
    obtain ⟨m₁, err⟩ := r
    by_cases hal : e.dmaAddress % 4096 = 0
    · simp only [hal, if_true] at htables
      have hwhole : wholePages (e :: es) = pfnUp e.dmaLen + wholePages es := by
        simp [wholePages, hal, npages_cons]
      rw [hwhole]
      cases err with
      | some err =>
        simp only [Mappable, hal, true_and, reduceCtorEq, false_iff, not_forall] at hok
        obtain ⟨t, ht, hno⟩ := hok
        exact (htables k).trans (tabled_blocked ht hno _)
      | none =>
        have hmap := hok.mp rfl
        simp only
        rw [ih hext.inv hext.fresh hfit.tail]
        exact tabled_append htables hext.can hmap.2
    · simp only [hal, if_false] at htables
      have hwhole : wholePages (e :: es) = 0 := by simp [wholePages, hal, npages]
      cases err with
      | none => exact absurd (hok.mp rfl).1 hal
      | some err => rw [hwhole, tabled_zero, htables]

-- ---------------------------------------------------------------------------
-- What the way back needs
-- ---------------------------------------------------------------------------

/-- The address of the first entry that has pages, or else of what follows. -/
def frontAddress (rest : Nat) : List Sg → Nat
  | [] => rest
  | e :: es => if e.dmaLen = 0 then frontAddress rest es else e.dmaAddress

/-- Each entry without pages that was got through is looked up at a page with a
table, which holds the entry's own address. -/
def EmptyFound (m : MmuInfo) (env : Nat → PageEnv) (lo : Nat) (sgl : List Sg) (i : Nat) : Prop :=
  ∀ j < i, ∀ e, sgl[j]? = some e → e.dmaLen = 0 →
    Tabled m env lo (wholePages sgl) ((lo + npages (sgl.take j)) / 1024) ∧
    e.dmaAddress = frontAddress (4096 * translate m (lo + npages (sgl.take i))) ((sgl.take i).drop j)

/-- The slots between the first of the range and slot `j` that get no table. -/
def gaps (m : MmuInfo) (env : Nat → PageEnv) (lo n j : Nat) : Nat :=
  (List.range' (lo / 1024) (j - lo / 1024)).countP fun k => !decide (Tabled m env lo n k)

/-- No page that is mapped is in the new range once it is moved down by 4 MiB for
each slot without a table before it. -/
def Sheltered (m : MmuInfo) (env : Nat → PageEnv) (lo : Nat) (sgl : List Sg) : Prop :=
  ∀ p < 2 ^ 20, lo / 1024 ≤ p / 1024 → translate m p ≠ m.dummyPagePteval →
    ¬ Iova.Mem (p - 1024 * gaps m env lo (wholePages sgl) (p / 1024)) ⟨lo, lo + npages sgl - 1⟩

theorem pfnUp_eq_zero : pfnUp len = 0 ↔ len = 0 := by
  unfold pfnUp
  omega

theorem Placed.front (h : Placed m a es done) :
    4096 * translate m a =
      frontAddress (4096 * translate m (a + npages (es.take done.length))) (es.take done.length) := by
  induction h with
  | nil => simp [npages, frontAddress]
  | cons e a es done hal hpages _ ih =>
    simp only [List.length_cons, List.take_succ_cons, npages_cons, frontAddress]
    by_cases hlen : e.dmaLen = 0
    · rw [if_pos hlen]
      simpa [pfnUp_eq_zero.mpr hlen] using ih
    · rw [if_neg hlen]
      have hpos : 0 < pfnUp e.dmaLen := pfnUp_pos (Nat.pos_of_ne_zero hlen)
      have htr := (hpages 0 hpos).1
      rw [Nat.add_zero] at htr
      omega

theorem Placed.drop (h : Placed m a es done) (j : Nat) :
    Placed m (a + npages (es.take j)) (es.drop j) (done.drop j) := by
  induction j generalizing a es done with
  | zero => simpa [npages] using h
  | succ j ih =>
    cases h with
    | nil => simpa using .nil _ _
    | cons e _ es done _ _ hrest =>
      rw [List.take_succ_cons, npages_cons, ← Nat.add_assoc]
      exact ih hrest

theorem iovaToPhys_isSome : (ipu6MmuIovaToPhys m (4096 * p)).isSome ↔ (m.l2Pts (p / 1024)).isSome := by
  have hidx : 4096 * p / 2 ^ 22 = p / 1024 := by omega
  simp only [ipu6MmuIovaToPhys, hidx, Option.isSome_map]

-- ---------------------------------------------------------------------------
-- The way back
-- ---------------------------------------------------------------------------

/-- The table when the loop has stopped after `i` entries. -/
structure Stopped (d : Ipu6Mmu) (env : SgEnv) (sgl : List Sg) (lo i : Nat) (m : MmuInfo)
    (done : List Sg) : Prop where
  ext : Extends env.tables d.mmu m
  placed : Placed m lo sgl done
  length : done.length = i
  out : ∀ p, ¬ (lo ≤ p ∧ p < lo + npages (sgl.take i)) → translate m p = translate d.mmu p
  tables : ∀ k, (m.l2Pts k).isSome ↔ Tabled d.mmu env.tables lo (wholePages sgl) k
  fits : Fits sgl lo
  free : ∀ p, lo ≤ p → p < lo + npages sgl → translate d.mmu p = d.mmu.dummyPagePteval

theorem wholePages_le (sgl : List Sg) : wholePages sgl ≤ npages sgl := by
  have hprefix := List.prefix_iff_eq_take.mp
    (List.takeWhile_prefix (fun e : Sg => decide (e.dmaAddress % 4096 = 0)) (l := sgl))
  exact (congrArg npages hprefix).trans_le (npages_take_le _ sgl)

theorem Stopped.lookup {d : Ipu6Mmu} (h : Stopped d env sgl lo i m done)
    (hslots : d.mmu.l2Pts 1024 = none) (hj : j < i) :
    ipu6MmuIovaToPhys m (4096 * (lo + npages (sgl.take j))) = some x ↔
      Tabled d.mmu env.tables lo (wholePages sgl) ((lo + npages (sgl.take j)) / 1024) ∧
      x = frontAddress (4096 * translate d.mmu (lo + npages (sgl.take i))) ((sgl.take i).drop j) := by
  have hrange := h.fits.range
  have hle := npages_take_le j sgl
  have hfront := (h.placed.drop j).front
  simp only [List.length_drop, h.length, ← List.drop_take] at hfront
  have hsum : lo + npages (sgl.take j) + npages ((sgl.take i).drop j) = lo + npages (sgl.take i) := by
    have hcat := congrArg npages (List.take_append_drop j (sgl.take i))
    simp only [npages, List.map_append, List.sum_append, List.take_take,
      Nat.min_eq_left hj.le] at hcat ⊢
    omega
  have hend := h.out (lo + npages (sgl.take i)) (by omega)
  rw [hsum, hend] at hfront
  by_cases htab : (m.l2Pts ((lo + npages (sgl.take j)) / 1024)).isSome
  · have hlt : lo + npages (sgl.take j) < 2 ^ 20 := by
      rcases Nat.lt_or_ge (lo + npages (sgl.take j)) (2 ^ 20) with hlt | hge
      · exact hlt
      · have hslot : (lo + npages (sgl.take j)) / 1024 = 1024 := by omega
        rw [hslot, h.tables] at htab
        rcases htab with hsome | ⟨t, ht, hpage, -⟩
        · simp [hslots] at hsome
        · have hwhole := wholePages_le sgl
          omega
    rw [iovaToPhys_page hlt htab, hfront, Option.some.injEq]
    rw [h.tables] at htab
    exact ⟨fun heq => ⟨htab, heq.symm⟩, fun hx => hx.2.symm⟩
  · have hnone : ipu6MmuIovaToPhys m (4096 * (lo + npages (sgl.take j))) = none := by
      rw [← Option.not_isSome_iff_eq_none, iovaToPhys_isSome]
      exact htab
    rw [h.tables] at htab
    simp [hnone, htab]

theorem Stopped.back_iff {d : Ipu6Mmu} (h : Stopped d env sgl lo i m done)
    (hslots : d.mmu.l2Pts 1024 = none) :
    returnAddrs m done = some (sgl.take i) ↔ EmptyFound d.mmu env.tables lo sgl i := by
  have hiff := h.placed.returnAddrs_iff
  rw [h.length] at hiff
  rw [hiff]
  refine forall₂_congr fun j hj => forall₂_congr fun e he => ?_
  constructor
  · exact fun hx _ => (h.lookup hslots hj).mp hx
  · intro hback
    by_cases hlen : e.dmaLen = 0
    · exact (h.lookup hslots hj).mpr (hback hlen)
    · have hpos := pfnUp_pos (Nat.pos_of_ne_zero hlen)
      have hle := npages_take_le_of_get he
      have hrange := h.fits.range
      obtain ⟨x, hx, -, hal, hpages⟩ :=
        h.placed.entry (List.getElem?_eq_getElem (show j < done.length by rw [h.length]; exact hj))
      obtain rfl := Option.some.inj (he.symm.trans hx)
      obtain ⟨htr, htab⟩ := hpages 0 hpos
      rw [Nat.add_zero] at htr htab
      rw [iovaToPhys_page (by omega) htab, htr]
      congr 1
      omega

theorem Stopped.gaps_eq {d : Ipu6Mmu} (h : Stopped d env sgl lo i m done) (j : Nat) :
    gaps d.mmu env.tables lo (wholePages sgl) j = holes m (lo / 1024) j := by
  refine List.countP_congr fun k _ => ?_
  simp [← h.tables k]

theorem Stopped.unmap_iff {d : Ipu6Mmu} (h : Stopped d env sgl lo i m done) (hi : Mmu.Inv d.mmu) :
    (∀ p < 2 ^ 20, SameAt d.mmu (ipu6MmuUnmap m (4096 * lo) (4096 * npages sgl)) p) ↔
      Sheltered d.mmu env.tables lo sgl := by
  have hrange := h.fits.range
  have hpos := h.fits.pos
  have hle := npages_take_le i sgl
  obtain ⟨hdummy, hor, hk⟩ := mmuUnmap_prefix (t := npages (sgl.take i)) h.ext.inv hrange hle
    fun k hk => h.placed.tables (by rw [h.length]; exact hk)
  have hi' := hk.inv h.ext.inv
  have hsame : ∀ p < 2 ^ 20, SameAt d.mmu (ipu6MmuUnmap m (4096 * lo) (4096 * npages sgl)) p ↔
      translate (ipu6MmuUnmap m (4096 * lo) (4096 * npages sgl)) p = translate d.mmu p := by
    intro p hp
    constructor
    · rintro ⟨hwalk, -⟩
      rw [deviceWalk_eq hi hp, deviceWalk_eq hi' hp] at hwalk
      exact Option.some.inj hwalk
    · exact sameAt_of_translate hi hi' hp fun hs => by
        rw [hk.isSome]
        exact h.ext.tables _ hs
  -- a page that is not mapped before is not mapped after
  have hfree : ∀ p, translate d.mmu p = d.mmu.dummyPagePteval →
      translate (ipu6MmuUnmap m (4096 * lo) (4096 * npages sgl)) p = translate d.mmu p := by
    intro p hp
    by_cases hin : lo ≤ p ∧ p < lo + npages (sgl.take i)
    · have hunmapped := hdummy (p - lo) (by omega)
      rw [Nat.add_sub_cancel' hin.1] at hunmapped
      rw [hunmapped, h.ext.dummyPage, hp]
    · rcases hor p with hkeep | hkeep
      · rw [hkeep, h.out p hin]
      · rw [hkeep, h.ext.dummyPage, hp]
  refine forall₂_congr fun p hp => ?_
  rw [hsame p hp]
  by_cases hmapped : translate d.mmu p = d.mmu.dummyPagePteval
  · exact ⟨fun _ _ hno => absurd hmapped hno, fun _ => hfree p hmapped⟩
  · have hin : ¬ (lo ≤ p ∧ p < lo + npages sgl) := fun hin => hmapped (h.free p hin.1 hin.2)
    have hkeep : translate m p = translate d.mmu p := h.out p (by omega)
    have hmapped' : translate m p ≠ m.dummyPagePteval := by
      rw [hkeep, h.ext.dummyPage]
      exact hmapped
    obtain ⟨hcl, hncl⟩ := mmuUnmap_translate h.ext.inv hrange p
    by_cases hentry : lo / 1024 ≤ p / 1024
    · have hcleared := cleared_iff (s := npages sgl) hp hentry hmapped'
      have hmem : InRange (4096 * lo) (4096 * npages sgl)
          (4096 * (p - 1024 * holes m (lo / 1024) (p / 1024))) ↔
          Iova.Mem (p - 1024 * holes m (lo / 1024) (p / 1024)) ⟨lo, lo + npages sgl - 1⟩ := by
        rw [mem_iova hpos]
        unfold InRange
        omega
      rw [h.gaps_eq, ← hmem, ← hcleared]
      constructor
      · intro heq _ _ hyes
        exact hmapped (heq.symm.trans ((hcl hyes).trans h.ext.dummyPage))
      · exact fun hno => (hncl (hno hentry hmapped)).trans hkeep
    · have hno : ¬ Cleared m (lo / 1024) lo (npages sgl) p := fun hc => hentry hc.entry
      exact ⟨fun _ hin => absurd hin hentry, fun _ => (hncl hno).trans hkeep⟩

-- ---------------------------------------------------------------------------
-- A call that fails
-- ---------------------------------------------------------------------------

/-- The call returns, with the list, the IOVA domain and every translation as they
were. -/
def Unmade (d : Ipu6Mmu) (sgl : List Sg) : Option (Ipu6Mmu × List Sg × Int) → Prop
  | none => False
  | some (d', sgl', _) => sgl' = sgl ∧ Restored d d'

theorem not_unmade_of_empty {d d' : Ipu6Mmu} (hpos : 1 ≤ lo) (hnone : npages sgl = 0) (hi : i ≠ 0)
    (hhead : ∃ e ∈ done.head?, e.dmaAddress = 4096 * lo)
    (hrun : ipu6DmaUnmapSg { d with mmu := m, iovad := ⟨lo, lo + npages sgl - 1⟩ :: d.iovad } done i =
      some (d', sgl')) : d'.iovad ≠ d.iovad := by
  obtain ⟨e, he, haddr⟩ := hhead
  have hempty : ¬ Iova.Mem lo ⟨lo, lo + npages sgl - 1⟩ := by
    rw [mem_iova hpos]
    omega
  have hskip : findIova (⟨lo, lo + npages sgl - 1⟩ :: d.iovad) lo = findIova d.iovad lo :=
    List.find?_cons_of_neg (by simpa [Iova.Mem] using hempty)
  have hfound : (done.head?.bind fun e => findIova (⟨lo, lo + npages sgl - 1⟩ :: d.iovad)
      (e.dmaAddress / 4096)) = findIova d.iovad lo := by
    rw [Option.mem_def.mp he, Option.bind_some, haddr, Nat.mul_div_cancel_left _ (by omega), hskip]
  simp only [ipu6DmaUnmapSg, if_neg hi, hfound] at hrun
  cases hother : findIova d.iovad lo with
  | none =>
    simp only [hother, Option.some.injEq, Prod.mk.injEq] at hrun
    obtain ⟨rfl, -⟩ := hrun
    exact List.cons_ne_self _ _
  | some r =>
    simp only [hother, Option.bind_eq_bind, Option.bind_eq_some_iff, Option.pure_def,
      Option.some.injEq, Prod.mk.injEq] at hrun
    obtain ⟨_, -, rfl, -⟩ := hrun
    obtain ⟨hr, hmem⟩ := findIova_some hother
    have hne : (⟨lo, lo + npages sgl - 1⟩ : Iova) ≠ r := by
      rintro rfl
      exact hempty hmem
    intro heq
    -- another range has been given back in its place
    have hcount := congrArg (List.count r) heq
    have hpos := List.count_pos_iff.mpr hr
    rw [List.erase_cons_tail (by simpa using hne), List.count_cons_of_ne hne,
      List.count_erase_self] at hcount
    omega

theorem Stopped.unmapSg {d : Ipu6Mmu} (h : Stopped d env sgl lo i m done) (hi : i ≠ 0)
    (hpages : 0 < npages sgl) :
    ipu6DmaUnmapSg { d with mmu := m, iovad := ⟨lo, lo + npages sgl - 1⟩ :: d.iovad }
      (done ++ sgl.drop i) i = (returnAddrs m done).map fun done' =>
        ({ d with mmu := ipu6MmuUnmap m (4096 * lo) (4096 * npages sgl) }, done' ++ sgl.drop i) := by
  obtain ⟨ext, placed, length, -, -, -, -⟩ := h
  have hsize : lo + npages sgl - 1 + 1 - lo = npages sgl := by omega
  have htake : (done ++ sgl.drop i).take i = done := List.take_left' length
  have hdrop : (done ++ sgl.drop i).drop i = sgl.drop i := List.drop_left' length
  have hhead : ((done ++ sgl.drop i).head?.bind fun e =>
      findIova (⟨lo, lo + npages sgl - 1⟩ :: d.iovad) (e.dmaAddress / 4096)) =
      some ⟨lo, lo + npages sgl - 1⟩ := by
    cases placed with
    | nil => exact absurd length.symm hi
    | cons e _ es done => simp [findIova, show lo ≤ lo + npages (e :: es) - 1 by omega]
  simp only [ipu6DmaUnmapSg, if_neg hi, hhead, hsize, htake, hdrop, List.erase_cons_head]
  cases returnAddrs m done <;> rfl

/-- Whatever the list, the state and the answers of the kernel: a call that fails
at entry `i` leaves everything as it was exactly if some entry and some page came
before it, the entries without pages find their addresses again, and no mapped
page is taken for one of the new range because of missing tables. -/
theorem mapSg_unmade_iff {d : Ipu6Mmu} (h : Reachable Begun Calls d) (ha : SgEnvOk d env sgl)
    (hoffset : ∀ e ∈ sgl, e.offset = 0) (hlo : env.allocIova = some lo)
    (hfail : FailsAt d.mmu env.tables lo sgl i) :
    Unmade d sgl (ipu6DmaMapSg d env sgl) ↔ 0 < i ∧ 0 < npages sgl ∧
      EmptyFound d.mmu env.tables lo sgl i ∧ Sheltered d.mmu env.tables lo sgl := by
  have hd := domain_reachable h
  obtain ⟨m, done, ok, hloop, hpos, hb, -, -, hfree, hext, hplaced, hout, -⟩ := hd.placing ha hlo
  have hfits : Fits sgl lo := ⟨hpos, hb, ha.phys⟩
  have hun : ∀ p, lo ≤ p → p < lo + npages sgl → translate d.mmu p = d.mmu.dummyPagePteval :=
    fun p h₁ h₂ => hd.free p (hfree p h₁ h₂)
  have hstop := (mapSgLoop_failsAt env hd.inv ha.tables hfits).mpr hfail
  have htables := mapSgLoop_tables env hd.inv ha.tables hfits
  rw [hloop] at hstop htables
  obtain ⟨hlen, hok⟩ := hstop
  simp only at hlen hok
  subst hok
  rw [hlen] at hout
  have hs : Stopped d env sgl lo i m done := ⟨hext, hplaced, hlen, hout, htables, hfits, hun⟩
  have hany : (sgl.any fun e => e.offset ≠ 0) = false := by simpa using hoffset
  have hrun : ipu6DmaMapSg d env sgl =
      (ipu6DmaUnmapSg { d with mmu := m, iovad := ⟨lo, lo + npages sgl - 1⟩ :: d.iovad }
        (done ++ sgl.drop i) i).map fun r => (r.1, r.2, 0) := by
    simp only [ipu6DmaMapSg, hany, Bool.false_eq_true, if_false, hlo, hloop, hlen]
    cases ipu6DmaUnmapSg { d with mmu := m, iovad := ⟨lo, lo + npages sgl - 1⟩ :: d.iovad }
      (done ++ sgl.drop i) i <;> rfl
  rw [hrun]
  rcases Nat.eq_zero_or_pos i with hi | hi
  · -- nothing is looked at, and the range stays
    subst hi
    simp only [ipu6DmaUnmapSg, if_true, Option.map_some, Unmade, Nat.lt_irrefl, false_and, iff_false]
    rintro ⟨-, hback, -⟩
    exact List.cons_ne_self _ _ hback
  rcases Nat.eq_zero_or_pos (npages sgl) with hpages | hpages
  · refine iff_of_false ?_ (by omega)
    cases hcall : ipu6DmaUnmapSg { d with mmu := m, iovad := ⟨lo, lo + npages sgl - 1⟩ :: d.iovad }
        (done ++ sgl.drop i) i with
    | none => simp [Unmade]
    | some r =>
      obtain ⟨d', sgl'⟩ := r
      rintro ⟨-, hback, -⟩
      refine not_unmade_of_empty hpos hpages (by omega) ?_ hcall hback
      cases hplaced with
      | nil => exact absurd hlen (by simp; omega)
      | cons e _ es done => exact ⟨_, rfl, rfl⟩
  · rw [hs.unmapSg (by omega) hpages]
    simp only [hi, hpages, true_and]
    rw [← hs.back_iff (slots_reachable h (Nat.le_refl _)), ← hs.unmap_iff hd.inv]
    cases hret : returnAddrs m done with
    | none => simp [Unmade]
    | some done' =>
      simp only [Option.map_some, Unmade, Option.some.injEq]
      constructor
      · rintro ⟨hlist, -, hsame⟩
        exact ⟨List.append_cancel_right (hlist.trans (List.take_append_drop i sgl).symm), hsame⟩
      · rintro ⟨rfl, hsame⟩
        exact ⟨List.take_append_drop i sgl, rfl, hsame⟩

end

/-- A page, and one that is not a whole page of the PCI device. -/
def unalignedSgl : List Sg := [⟨0, 4096 * 50, 4096⟩, ⟨0, 4096 * 60 + 1, 4096⟩]

theorem sgEnvOk_emptyStore (tables : Nat → PageEnv) (htables : Fresh emptyMmu tables)
    (hlo : 1 ≤ lo ∧ lo + npages sgl ≤ 2 ^ 20)
    (hphys : ∀ e ∈ sgl, e.dmaAddress + 4096 * pfnUp e.dmaLen ≤ 2 ^ 39) :
    SgEnvOk emptyStore ⟨some lo, tables⟩ sgl where
  iova := by
    rintro _ ⟨⟩
    have hend : emptyStore.mmu.apertureEnd / 4096 + 1 = 2 ^ 20 := by decide
    exact ⟨hlo.1, by omega, by simp [emptyStore]⟩
  tables := htables
  phys := hphys

theorem mapSg_unmade_unaligned :
    Unmade emptyStore unalignedSgl (ipu6DmaMapSg emptyStore (onePageEnv (some 1023)) unalignedSgl) := by
  refine (mapSg_unmade_iff (i := 1) (.init begun_emptyStore)
    (sgEnvOk_emptyStore _ (fresh_plainTables (by omega)) (by decide) (by decide)) (by decide) rfl
    ⟨?_, ?_⟩).mpr ⟨by decide, by decide, ?_, ?_⟩
  · intro j hj e he
    obtain rfl : j = 0 := by omega
    obtain rfl := Option.some.inj he
    decide +kernel
  · exact ⟨_, rfl, by decide +kernel⟩
  · intro j hj e he hlen
    obtain rfl : j = 0 := by omega
    obtain rfl := Option.some.inj he
    cases hlen
  · intro p _ _ hmapped
    exact absurd (start_emptyStore.free p (by simp [emptyStore])) hmapped

/-- Without memory for the table of its first page, a list leaves its range behind. -/
theorem mapSg_keeps_range :
    ¬ ∀ (d : Ipu6Mmu) (env : SgEnv) (sgl : List Sg) (lo i : Nat), Reachable Begun Calls d →
      SgEnvOk d env sgl → (∀ e ∈ sgl, e.offset = 0) → env.allocIova = some lo →
      FailsAt d.mmu env.tables lo sgl i → Unmade d sgl (ipu6DmaMapSg d env sgl) := by
  intro h
  obtain ⟨-, hback, -⟩ := h emptyStore ⟨some 1023, fun _ => ⟨none, none⟩⟩ [⟨0, 4096 * 50, 4096⟩] 1023 0
    (.init begun_emptyStore) (sgEnvOk_emptyStore _ (fun _ _ _ hdma => by cases hdma) (by decide)
      (by decide)) (by decide) rfl ⟨by simp, _, rfl, by decide +kernel⟩
  cases hback

end Ipu4.Dma
