import Ipu4.Dma.Regions
import Ipu4.Mmu.Refine

/-!
# Scatter lists there and back

`ipu6_dma_map_sg` overwrites the addresses of the list it is given, and
`ipu6_dma_unmap_sg` finds them again only in the page table.
-/

namespace Ipu4.Dma

open Mmu Overlay
open Runs (Reachable)

-- ---------------------------------------------------------------------------
-- Where the entries go
-- ---------------------------------------------------------------------------

section
variable {sgl : List Sg}

theorem npages_take_succ (h : sgl[i]? = some e) :
    npages (sgl.take (i + 1)) = npages (sgl.take i) + pfnUp e.dmaLen := by
  rw [List.take_add_one, h]
  simp [npages]

theorem npages_take_mono (sgl : List Sg) (hij : i ≤ j) :
    npages (sgl.take i) ≤ npages (sgl.take j) := by
  have hle := npages_take_le i (sgl.take j)
  rwa [List.take_take, Nat.min_eq_left hij] at hle

theorem pfnUp_pos (h : 0 < len) : 0 < pfnUp len := by
  unfold pfnUp
  omega

theorem exists_entry (hk : k < npages sgl) :
    ∃ i e, sgl[i]? = some e ∧ npages (sgl.take i) ≤ k ∧ k < npages (sgl.take i) + pfnUp e.dmaLen := by
  induction sgl generalizing k with
  | nil => simp [npages] at hk
  | cons e es ih =>
    rw [npages_cons] at hk
    rcases Nat.lt_or_ge k (pfnUp e.dmaLen) with hlt | hge
    · exact ⟨0, e, rfl, by simp [npages], by simpa [npages] using hlt⟩
    · obtain ⟨i, e', he', hlo, hhi⟩ := ih (k := k - pfnUp e.dmaLen) (by omega)
      refine ⟨i + 1, e', he', ?_, ?_⟩ <;> rw [List.take_succ_cons, npages_cons] <;> omega

theorem entry_unique (hi : sgl[i]? = some e) (hj : sgl[j]? = some e')
    (hilo : npages (sgl.take i) ≤ k) (hihi : k < npages (sgl.take i) + pfnUp e.dmaLen)
    (hjlo : npages (sgl.take j) ≤ k) (hjhi : k < npages (sgl.take j) + pfnUp e'.dmaLen) : i = j := by
  rw [← npages_take_succ hi] at hihi
  rw [← npages_take_succ hj] at hjhi
  rcases Nat.lt_trichotomy i j with hlt | heq | hlt
  · have hmono := npages_take_mono sgl (show i + 1 ≤ j from hlt)
    omega
  · exact heq
  · have hmono := npages_take_mono sgl (show j + 1 ≤ i from hlt)
    omega

theorem Placed.entry (h : Placed m a es done) (he : done[i]? = some e') :
    ∃ e, es[i]? = some e ∧ e' = { e with dmaAddress := 4096 * (a + npages (es.take i)) } ∧
      e.dmaAddress % 4096 = 0 ∧ ∀ j < pfnUp e.dmaLen,
        translate m (a + npages (es.take i) + j) = e.dmaAddress / 4096 + j ∧
        (m.l2Pts ((a + npages (es.take i) + j) / 1024)).isSome := by
  induction h generalizing i with
  | nil => simp at he
  | cons e a es done hal hpages _ ih =>
    cases i with
    | zero =>
      obtain rfl := Option.some.inj he
      exact ⟨e, rfl, by simp [npages], hal, by simpa [npages] using hpages⟩
    | succ i =>
      obtain ⟨x, hx, hex, hrest⟩ := ih (by simpa using he)
      rw [List.take_succ_cons, npages_cons, ← Nat.add_assoc]
      exact ⟨x, hx, hex, hrest⟩

/-- The walk back finds the entries again exactly if each address is found at the
first page of its entry. -/
theorem Placed.returnAddrs_iff (h : Placed m a es done) :
    returnAddrs m done = some (es.take done.length) ↔
      ∀ i < done.length, ∀ e, es[i]? = some e →
        ipu6MmuIovaToPhys m (4096 * (a + npages (es.take i))) = some e.dmaAddress := by
  induction h with
  | nil => simp [returnAddrs]
  | cons e a es done hal hpages hrest ih =>
    simp only [returnAddrs, Option.bind_eq_bind, Option.bind_eq_some_iff, Option.pure_def,
      Option.some.injEq, List.length_cons, List.take_succ_cons]
    constructor
    · rintro ⟨x, hx, rest, hret, heq⟩ i hi e' he'
      obtain ⟨hhead, htail⟩ := List.cons.inj heq
      cases i with
      | zero =>
        obtain rfl := Option.some.inj he'
        obtain rfl : x = e.dmaAddress := congrArg Sg.dmaAddress hhead
        simpa [npages] using hx
      | succ i =>
        rw [htail] at hret
        rw [List.take_succ_cons, npages_cons, ← Nat.add_assoc]
        exact ih.mp hret i (by omega) e' he'
    · intro hall
      refine ⟨e.dmaAddress, by simpa [npages] using hall 0 (by omega) e rfl, _, ih.mpr ?_, rfl⟩
      intro i hi e' he'
      have hnext := hall (i + 1) (by omega) e' he'
      rwa [List.take_succ_cons, npages_cons, ← Nat.add_assoc] at hnext

-- ---------------------------------------------------------------------------
-- There and back
-- ---------------------------------------------------------------------------

/-- Page `p` of the address space is one of entry `i`. -/
def Covers (sgl : List Sg) (i p : Nat) : Prop :=
  ∃ e, sgl[i]? = some e ∧ e.dmaAddress / 4096 ≤ p ∧ p < e.dmaAddress / 4096 + pfnUp e.dmaLen

/-- The IOVA domain and every translation are as before. -/
structure Restored (d d' : Ipu6Mmu) : Prop where
  iovad : d'.iovad = d.iovad
  same : ∀ p < 2 ^ 20, SameAt d.mmu d'.mmu p

/-- A list is mapped at `lo`, and can be had back. -/
structure SgMapped (d : Ipu6Mmu) (sgl : List Sg) (lo : Nat) (d' : Ipu6Mmu) (sgl' : List Sg) : Prop where
  length : sgl'.length = sgl.length
  range : d'.iovad = ⟨lo, lo + npages sgl - 1⟩ :: d.iovad
  address : ∀ (i : Nat) (e' : Sg), sgl'[i]? = some e' → e'.dmaAddress = 4096 * (lo + npages (sgl.take i))
  inside : ∀ i p, Covers sgl' i p → Iova.Mem p ⟨lo, lo + npages sgl - 1⟩
  tiled : ∀ p, Iova.Mem p ⟨lo, lo + npages sgl - 1⟩ → ∃! i, Covers sgl' i p
  found : ∀ (i : Nat) (e e' : Sg), sgl[i]? = some e → sgl'[i]? = some e' → ∀ k < pfnUp e.dmaLen,
    MappedAt d'.mmu (e'.dmaAddress + 4096 * k) (e.dmaAddress + 4096 * k) ∧
    ipu6MmuIovaToPhys d'.mmu (e'.dmaAddress + 4096 * k) = some (e.dmaAddress + 4096 * k)
  undone : ∃ d'', ipu6DmaUnmapSg d' sgl' sgl.length = some (d'', sgl) ∧ Restored d d''

theorem Placed.covers_iff (h : Placed m lo sgl done) (hlen : done.length = sgl.length) :
    Covers done i p ↔ ∃ e, sgl[i]? = some e ∧ lo + npages (sgl.take i) ≤ p ∧
      p < lo + npages (sgl.take i) + pfnUp e.dmaLen := by
  constructor
  · rintro ⟨e', he', hlo, hhi⟩
    obtain ⟨e, he, rfl, -, -⟩ := h.entry he'
    simp only [Nat.mul_div_cancel_left _ (show 0 < 4096 by omega)] at hlo hhi
    exact ⟨e, he, hlo, hhi⟩
  · rintro ⟨e, he, hlo, hhi⟩
    have hi : i < done.length := by
      rw [hlen]
      exact (List.getElem?_eq_some_iff.mp he).1
    have he' : done[i]? = some done[i] := List.getElem?_eq_getElem hi
    obtain ⟨x, hx, heq, -, -⟩ := h.entry he'
    obtain rfl := Option.some.inj (he.symm.trans hx)
    refine ⟨done[i], he', ?_, ?_⟩ <;>
      rw [heq] <;> simp only [Nat.mul_div_cancel_left _ (show 0 < 4096 by omega)] <;> assumption

theorem npages_take_le_of_get (he : sgl[i]? = some e) :
    npages (sgl.take i) + pfnUp e.dmaLen ≤ npages sgl := by
  rw [← npages_take_succ he]
  exact npages_take_le (i + 1) sgl

theorem Placed.sgMapped {d d' : Ipu6Mmu} (h : Placed d'.mmu lo sgl done) (hd : Domain d)
    (hext : Extends env d.mmu d'.mmu) (hlen : done.length = sgl.length) (hpos : 1 ≤ lo)
    (hb : lo + npages sgl ≤ 2 ^ 20) (hne : sgl ≠ []) (hlens : ∀ e ∈ sgl, 0 < e.dmaLen)
    (hfree : ∀ p, lo ≤ p → p < lo + npages sgl → ∀ r ∈ d.iovad, ¬ r.Mem p)
    (hout : ∀ p, ¬ (lo ≤ p ∧ p < lo + npages sgl) → translate d'.mmu p = translate d.mmu p)
    (hiovad : d'.iovad = ⟨lo, lo + npages sgl - 1⟩ :: d.iovad) : SgMapped d sgl lo d' done where
  length := hlen
  range := hiovad
  address := by
    intro i e' he'
    obtain ⟨e, -, rfl, -, -⟩ := h.entry he'
    rfl
  inside := by
    intro i p hp
    obtain ⟨e, he, hlo, hhi⟩ := (h.covers_iff hlen).mp hp
    have hle := npages_take_le_of_get he
    rw [mem_iova hpos]
    omega
  tiled := by
    intro p hp
    rw [mem_iova hpos] at hp
    have hlt : p - lo < npages sgl := by omega
    obtain ⟨i, e, he, hlo, hhi⟩ := exists_entry hlt
    refine ⟨i, (h.covers_iff hlen).mpr ⟨e, he, by omega, by omega⟩, fun j hj => ?_⟩
    obtain ⟨e', he', hlo', hhi'⟩ := (h.covers_iff hlen).mp hj
    exact entry_unique he' he (k := p - lo) (by omega) (by omega) hlo hhi
  found := by
    intro i e e' he he' k hk
    have hle := npages_take_le_of_get he
    obtain ⟨x, hx, rfl, hal, hpages⟩ := h.entry he'
    obtain rfl := Option.some.inj (he.symm.trans hx)
    obtain ⟨htr, htab⟩ := hpages k hk
    have hpage : 4096 * (lo + npages (sgl.take i)) + 4096 * k =
        4096 * (lo + npages (sgl.take i) + k) := by omega
    have hphys : 4096 * (e.dmaAddress / 4096 + k) = e.dmaAddress + 4096 * k := by omega
    simp only [hpage]
    refine ⟨⟨by omega, by omega, by omega, ?_⟩, ?_⟩
    · rw [Nat.mul_div_cancel_left _ (by omega), deviceWalk_eq hext.inv (by omega), htr]
      congr 1
      omega
    · rw [iovaToPhys_page (by omega) htab, htr, hphys]
  undone := by
    have hsome : 0 < npages sgl := by
      obtain ⟨e, es, rfl⟩ := List.exists_cons_of_ne_nil hne
      have hpages := pfnUp_pos (hlens e List.mem_cons_self)
      rw [npages_cons]
      omega
    have hhead : (done.head?.bind fun e => findIova d'.iovad (e.dmaAddress / 4096)) =
        some ⟨lo, lo + npages sgl - 1⟩ := by
      cases h with
      | nil => exact absurd hlen.symm (by simpa using hne)
      | cons e _ es done => simp [hiovad, findIova, show lo ≤ lo + npages (e :: es) - 1 by omega]
    have hback : returnAddrs d'.mmu (done.take sgl.length) = some sgl := by
      rw [← hlen, List.take_length, h.returnAddrs_iff.mpr, hlen, List.take_length]
      intro i _ e he
      have hle := npages_take_le_of_get he
      have hpages := pfnUp_pos (hlens e (List.mem_of_getElem? he))
      obtain ⟨x, hx, -, hal, hplaced⟩ := h.entry (List.getElem?_eq_getElem (by omega))
      obtain rfl := Option.some.inj (he.symm.trans hx)
      obtain ⟨htr, htab⟩ := hplaced 0 hpages
      rw [Nat.add_zero] at htr htab
      rw [iovaToPhys_page (by omega) htab, htr]
      congr 1
      omega
    obtain ⟨htr, hk⟩ := mmuUnmap_spec hext.inv hb fun k hk => h.tables (k := k) (by
      rw [hlen, List.take_length]
      exact hk)
    have hsize : lo + npages sgl - 1 + 1 - lo = npages sgl := by omega
    refine ⟨{ d' with mmu := ipu6MmuUnmap d'.mmu (4096 * lo) (4096 * npages sgl), iovad := d.iovad },
      ?_, rfl, fun p hp => ?_⟩
    · have hpos : sgl.length ≠ 0 := by simpa using hne
      have hdrop : done.drop sgl.length = [] := by rw [← hlen, List.drop_length]
      simp only [ipu6DmaUnmapSg, hhead, if_neg hpos, hback, hsize, hdrop, Option.bind_eq_bind,
        Option.bind_some, Option.pure_def, List.append_nil]
      rw [hiovad, List.erase_cons_head]
    · refine sameAt_of_translate hd.inv (hk.inv hext.inv) hp
        (fun hs => by rw [hk.isSome]; exact hext.tables _ hs) ?_
      rw [htr]
      by_cases hin : lo ≤ p ∧ p < lo + npages sgl
      · rw [overlay_of_mem hin.1 hin.2, hext.dummyPage]
        exact (hd.free p (hfree p hin.1 hin.2)).symm
      · rw [overlay_of_not_mem hin, hout p hin]

/-- In every state the four functions can lead to: a list of entries
at offset 0, none of them empty, that `ipu6_dma_map_sg` maps is laid out without
gaps in the new range, and `ipu6_dma_unmap_sg` puts everything back. -/
theorem mapSg_round_trip {d d' : Ipu6Mmu} (h : Reachable Begun Calls d) (ha : SgEnvOk d env sgl)
    (hne : sgl ≠ []) (hoffset : ∀ e ∈ sgl, e.offset = 0) (hlens : ∀ e ∈ sgl, 0 < e.dmaLen)
    (hrun : ipu6DmaMapSg d env sgl = some (d', sgl', (sgl.length : Int))) :
    ∃ lo, env.allocIova = some lo ∧ SgMapped d sgl lo d' sgl' := by
  have hd := domain_reachable h
  have hlen : 0 < sgl.length := List.length_pos_iff.mpr hne
  rcases mapSg_cases hd ha hrun with ⟨⟨e, he, hne⟩, -⟩ | ⟨-, -, hret⟩ |
    ⟨lo, m, done, hlo, ⟨hp, rfl, -, rfl⟩ | ⟨-, hret, -⟩⟩
  · exact absurd (hoffset e he) hne
  · omega
  · have hout := hp.rest
    rw [hp.all rfl, List.take_length] at hout
    exact ⟨lo, hlo, hp.placed.sgMapped hd hp.ext (hp.all rfl) hp.pos hp.bound hne hlens hp.free hout rfl⟩
  · omega

end

theorem begun_emptyStore : Begun emptyStore :=
  { start_emptyStore with
    slots := fun k _ => inv_emptyMmu.2 k
    bound := by simp [emptyStore]
    fronted := by simp [emptyStore] }

/-- Entries of two pages and of one, from the last page under the first table on. -/
def unevenSgl : List Sg := [⟨0, 4096 * 50, 5000⟩, ⟨0, 4096 * 80, 100⟩]

theorem sgEnvOk_unevenSgl : SgEnvOk emptyStore (onePageEnv (some 1023)) unevenSgl where
  iova := by
    rintro lo ⟨⟩
    exact ⟨by decide, by decide, by simp [emptyStore]⟩
  tables := fresh_plainTables (by omega)
  phys := by decide

theorem mapSg_round_trip_uneven : ∃ d', SgMapped emptyStore unevenSgl 1023 d'
    [⟨0, 4096 * 1023, 5000⟩, ⟨0, 4096 * 1025, 100⟩] := by
  have hrun : (ipu6DmaMapSg emptyStore (onePageEnv (some 1023)) unevenSgl).map Prod.snd =
      some ([⟨0, 4096 * 1023, 5000⟩, ⟨0, 4096 * 1025, 100⟩], 2) := rfl
  obtain ⟨⟨d', r⟩, hrun, rfl⟩ := Option.map_eq_some_iff.mp hrun
  obtain ⟨lo, ⟨⟩, hmapped⟩ := mapSg_round_trip (.init begun_emptyStore) sgEnvOk_unevenSgl
    (by decide) (by decide) (by decide) hrun
  exact ⟨d', hmapped⟩

end Ipu4.Dma
