import Ipu4.Mmu.Lifetime
import Ipu4.Mmu.Refine

/-!
# Unmapping ranges that are not mapped throughout

Error paths unmap whole ranges of which only a part was mapped. `l2_unmap` skips
an L1 entry without a table but keeps `iova` and `size` as they are, so behind such a
hole it takes each table for one further down. What it clears there is shifted
by 4 MiB for every hole (`l2UnmapTables_translate`).
-/

namespace Ipu4.Mmu

open Overlay
open Runs (Reachable)

-- ---------------------------------------------------------------------------
-- Holes
-- ---------------------------------------------------------------------------

/-- The L1 entries from `i` up to `j` that have no table. -/
def holes (m : MmuInfo) (i j : Nat) : Nat :=
  (List.range' i (j - i)).countP fun k => (m.l2Pts k).isNone

theorem holes_succ (h : i < j) :
    holes m i j = holes m (i + 1) j + if (m.l2Pts i).isNone then 1 else 0 := by
  obtain ⟨d, rfl⟩ : ∃ d, j = i + d + 1 := ⟨j - i - 1, by omega⟩
  have hlen : i + d + 1 - i = d + 1 := by omega
  have hlen' : i + d + 1 - (i + 1) = d := by omega
  simp only [holes, hlen, hlen', List.range'_succ, List.countP_cons]

theorem holes_le (m : MmuInfo) (i j : Nat) : holes m i j ≤ j - i := by
  have hle := List.countP_le_length (p := fun k => (m.l2Pts k).isNone) (l := List.range' i (j - i))
  rwa [List.length_range'] at hle

theorem Kept.holes (h : Kept m m') (i j : Nat) : holes m' i j = holes m i j := by
  have hnone : ∀ k, (m'.l2Pts k).isNone = (m.l2Pts k).isNone := fun k => by
    rw [← Option.not_isSome, ← Option.not_isSome, h.isSome]
  simp only [Mmu.holes, hnone]

-- ---------------------------------------------------------------------------
-- What the loops clear
-- ---------------------------------------------------------------------------

/-- The page that the outer loop, at entry `i` with `iova` at page `a`, takes `p` for. -/
def takenFor (m : MmuInfo) (i a p : Nat) : Nat :=
  1024 * (a / 1024 + (p / 1024 - i - holes m i (p / 1024))) + p % 1024

/-- The outer loop from entry `i` on, with `s` pages from page `a` on to go, clears
the entry of `p`. -/
structure Cleared (m : MmuInfo) (i a s p : Nat) : Prop where
  bound : p < 2 ^ 20
  table : (m.l2Pts (p / 1024)).isSome
  entry : i ≤ p / 1024
  lo : a ≤ takenFor m i a p
  hi : takenFor m i a p < a + s

theorem cleared_hole (h : m.l2Pts i = none) : Cleared m (i + 1) a s p ↔ Cleared m i a s p := by
  have htaken : i < p / 1024 → takenFor m (i + 1) a p = takenFor m i a p := by
    intro hlt
    have hholes := holes_succ (m := m) hlt
    simp only [h, Option.isNone_none, if_true] at hholes
    simp only [takenFor, hholes]
    omega
  constructor
  · rintro ⟨hb, ht, hf, hlo, hhi⟩
    rw [htaken hf] at hlo hhi
    exact ⟨hb, ht, by omega, hlo, hhi⟩
  · rintro ⟨hb, ht, hf, hlo, hhi⟩
    have hne : i ≠ p / 1024 := by
      rintro rfl
      simp [h] at ht
    have hlt : i < p / 1024 := by omega
    rw [← htaken hlt] at hlo hhi
    exact ⟨hb, ht, hlt, hlo, hhi⟩

theorem cleared_table (hk : Kept m m') (h : (m.l2Pts i).isSome) (hc : min s (1024 - a % 1024) = c)
    (hp : p / 1024 ≠ i) : Cleared m' (i + 1) (a + c) (s - c) p ↔ Cleared m i a s p := by
  by_cases hlt : i < p / 1024
  · have hholes := holes_succ (m := m) hlt
    have hnone : (m.l2Pts i).isNone = false := by
      rw [← Option.not_isSome, h]
      rfl
    simp only [hnone, Bool.false_eq_true, if_false, Nat.add_zero] at hholes
    have hle := holes_le m (i + 1) (p / 1024)
    have htaken : takenFor m i a p = 1024 * (a / 1024 + 1 +
        (p / 1024 - (i + 1) - holes m (i + 1) (p / 1024))) + p % 1024 := by
      simp only [takenFor, hholes]
      omega
    have htaken' : takenFor m' (i + 1) (a + c) p = 1024 * ((a + c) / 1024 +
        (p / 1024 - (i + 1) - holes m (i + 1) (p / 1024))) + p % 1024 := by
      simp only [takenFor, hk.holes]
    generalize p / 1024 - (i + 1) - holes m (i + 1) (p / 1024) = r at htaken htaken'
    constructor
    · rintro ⟨hb, ht, -, hlo, hhi⟩
      rw [hk.isSome] at ht
      rw [htaken'] at hlo hhi
      refine ⟨hb, ht, by omega, ?_, ?_⟩ <;> rw [htaken] <;> omega
    · rintro ⟨hb, ht, -, hlo, hhi⟩
      rw [htaken] at hlo hhi
      refine ⟨hb, by rw [hk.isSome]; exact ht, hlt, ?_, ?_⟩ <;> rw [htaken'] <;> omega
  · constructor
    · rintro ⟨-, -, hf, -, -⟩
      omega
    · rintro ⟨-, -, hf, -, -⟩
      omega

theorem l2UnmapTables_translate (hi : Inv m) (hn : i + n = 1024) (hs : a + s ≤ 2 ^ 20) (p : Nat) :
    (Cleared m i a s p →
      translate (l2UnmapTables n i m (4096 * a) (4096 * s)) p = m.dummyPagePteval) ∧
    (¬ Cleared m i a s p →
      translate (l2UnmapTables n i m (4096 * a) (4096 * s)) p = translate m p) := by
  induction n generalizing i m a s with
  | zero =>
    refine ⟨fun hc => ?_, fun _ => rfl⟩
    have hentry := hc.entry
    have hbound := hc.bound
    omega
  | succ n ih =>
    cases s with
    | zero =>
      rw [l2UnmapTables, if_neg (by omega)]
      refine ⟨fun hc => ?_, fun _ => rfl⟩
      have hlo := hc.lo
      have hhi := hc.hi
      omega
    | succ s =>
      rw [l2UnmapTables, if_pos (by omega)]
      cases htab : m.l2Pts i with
      | none =>
        rw [if_pos (hi.empty i htab), ← cleared_hole htab]
        exact ih hi (by omega) hs
      | some pt =>
        have hsome : (m.l2Pts i).isSome := by rw [htab]; rfl
        obtain ⟨m', hrun, htr, hk⟩ := l2UnmapEntries_spec a (s + 1)
          (show a % 1024 + (1024 - a % 1024) = 1024 by omega) hsome
        rw [if_neg (hi.frame_ne htab), l2Index_page (by omega), l2ptPtes, hrun]
        generalize hc : min (s + 1) (1024 - a % 1024) = c at htr
        have hrest := ih (i := i + 1) (m := m') (a := a + c) (s := s + 1 - c) (hk.inv hi)
          (by omega) (by omega)
        rw [hk.dummyPage] at hrest
        by_cases hp : p / 1024 = i
        · -- the page is in this table, which the tables after it leave alone
          have hlater : ¬ Cleared m' (i + 1) (a + c) (s + 1 - c) p := by
            rintro ⟨-, -, hf, -, -⟩
            omega
          have htaken : takenFor m i a p = 1024 * (a / 1024) + p % 1024 := by
            simp [takenFor, hp]
          rw [hrest.2 hlater, htr]
          constructor
          · rintro ⟨-, -, -, hlo, hhi⟩
            rw [htaken] at hlo hhi
            exact overlay_of_mem (by omega) (by omega)
          · intro hnot
            refine overlay_of_not_mem fun hin => hnot ⟨by omega, by rw [hp]; exact hsome, by omega, ?_, ?_⟩ <;>
              rw [htaken] <;> omega
        · have hout : translate m' p = translate m p := by
            rw [htr]
            exact overlay_of_not_mem (by omega)
          rw [hout, cleared_table hk hsome hc hp] at hrest
          exact hrest

-- ---------------------------------------------------------------------------
-- The entry point
-- ---------------------------------------------------------------------------

/-- A page has the dummy translation, for the device and for the driver. -/
def DummyAt (m : MmuInfo) (p : Nat) : Prop :=
  deviceWalk m p = some m.dummyPagePteval ∧
    ∀ x, ipu6MmuIovaToPhys m (4096 * p) = some x → x = 4096 * m.dummyPagePteval

def InRange (iova size addr : Nat) : Prop := iova ≤ addr ∧ addr < iova + size

instance (iova size addr : Nat) : Decidable (InRange iova size addr) :=
  inferInstanceAs (Decidable (_ ∧ _))

/-- Unmapping touches its range and nothing else. -/
def UnmapsRange (m : MmuInfo) (iova size : Nat) : Prop :=
  ∀ p < 2 ^ 20,
    (InRange iova size (4096 * p) → DummyAt (ipu6MmuUnmap m iova size) p) ∧
    (¬ InRange iova size (4096 * p) → SameAt m (ipu6MmuUnmap m iova size) p)

/-- A page that is mapped, with some holes between the first L1 entry of the range
and its own, is in the range exactly if the page that many tables further down is. -/
def Unshifted (m : MmuInfo) (iova size : Nat) : Prop :=
  ∀ p < 2 ^ 20, iova / 2 ^ 22 ≤ p / 1024 → translate m p ≠ m.dummyPagePteval →
    (InRange iova size (4096 * p) ↔
      InRange iova size (4096 * (p - 1024 * holes m (iova / 2 ^ 22) (p / 1024))))

theorem mmuUnmap_translate (hi : Inv m) (hs : a + s ≤ 2 ^ 20) (p : Nat) :
    (Cleared m (a / 1024) a s p →
      translate (ipu6MmuUnmap m (4096 * a) (4096 * s)) p = m.dummyPagePteval) ∧
    (¬ Cleared m (a / 1024) a s p →
      translate (ipu6MmuUnmap m (4096 * a) (4096 * s)) p = translate m p) := by
  have hal : isAligned (4096 * a ||| 4096 * s) 4096 = true := by
    simp [isAligned_page, or_mod_page]
  have hrun : ipu6MmuUnmap m (4096 * a) (4096 * s) =
      l2UnmapTables (1024 - a / 1024) (a / 1024) m (4096 * a) (4096 * s) := by
    unfold ipu6MmuUnmap l2Unmap
    rw [minPagesz_eq hi, hal, l1Index_page (by omega)]
    rfl
  rw [hrun]
  exact l2UnmapTables_translate hi (by omega) hs p

theorem dummyAt_iff (hi : Inv m) (hp : p < 2 ^ 20) :
    DummyAt m p ↔ translate m p = m.dummyPagePteval := by
  unfold DummyAt
  rw [deviceWalk_eq hi hp, Option.some.injEq]
  refine and_iff_left_of_imp fun heq x hx => ?_
  have hsome : (m.l2Pts (p / 1024)).isSome := by
    have hidx : 4096 * p / 2 ^ 22 = p / 1024 := by omega
    simp only [ipu6MmuIovaToPhys, hidx, Option.map_eq_some_iff] at hx
    obtain ⟨pt, hpt, -⟩ := hx
    rw [hpt]
    rfl
  rw [iovaToPhys_page hp hsome, heq] at hx
  exact (Option.some.inj hx).symm

theorem sameAt_unmap_iff (hi : Inv m) (hp : p < 2 ^ 20) (iova size : Nat) :
    SameAt m (ipu6MmuUnmap m iova size) p ↔
      translate (ipu6MmuUnmap m iova size) p = translate m p := by
  have hk := (written_mmuUnmap m iova size).kept
  have hi' := hk.inv hi
  constructor
  · rintro ⟨hwalk, -⟩
    rw [deviceWalk_eq hi hp, deviceWalk_eq hi' hp] at hwalk
    exact Option.some.inj hwalk
  · exact sameAt_of_translate hi hi' hp fun hs => by rw [hk.isSome]; exact hs

theorem cleared_iff (hp : p < 2 ^ 20) (hentry : a / 1024 ≤ p / 1024)
    (hmapped : translate m p ≠ m.dummyPagePteval) :
    Cleared m (a / 1024) a s p ↔
      InRange (4096 * a) (4096 * s) (4096 * (p - 1024 * holes m (a / 1024) (p / 1024))) := by
  have htable : (m.l2Pts (p / 1024)).isSome := by
    rw [Option.isSome_iff_ne_none]
    intro hnone
    simp [translate, hnone] at hmapped
  have hle := holes_le m (a / 1024) (p / 1024)
  have htaken : takenFor m (a / 1024) a p = p - 1024 * holes m (a / 1024) (p / 1024) := by
    simp only [takenFor]
    omega
  unfold InRange
  constructor
  · rintro ⟨-, -, -, hlo, hhi⟩
    rw [htaken] at hlo hhi
    omega
  · rintro ⟨hlo, hhi⟩
    refine ⟨hp, htable, hentry, ?_, ?_⟩ <;> rw [htaken] <;> omega

theorem unmapsRange_iff (hi : Inv m) (hs : a + s ≤ 2 ^ 20) :
    UnmapsRange m (4096 * a) (4096 * s) ↔ Unshifted m (4096 * a) (4096 * s) := by
  have hslot : 4096 * a / 2 ^ 22 = a / 1024 := by omega
  have hdummy := (written_mmuUnmap m (4096 * a) (4096 * s)).kept.dummyPage
  have hinv := (written_mmuUnmap m (4096 * a) (4096 * s)).kept.inv hi
  unfold UnmapsRange Unshifted
  rw [hslot]
  constructor
  · intro h p hp hentry hmapped
    obtain ⟨hin, hout⟩ := h p hp
    rw [dummyAt_iff hinv hp, hdummy] at hin
    rw [sameAt_unmap_iff hi hp] at hout
    obtain ⟨hcl, hncl⟩ := mmuUnmap_translate hi hs p
    rw [← cleared_iff hp hentry hmapped]
    constructor
    · intro hrange
      by_contra hnot
      exact hmapped ((hncl hnot).symm.trans (hin hrange))
    · intro hcleared
      by_contra hnot
      exact hmapped ((hout hnot).symm.trans (hcl hcleared))
  · intro h p hp
    obtain ⟨hcl, hncl⟩ := mmuUnmap_translate hi hs p
    rw [dummyAt_iff hinv hp, hdummy, sameAt_unmap_iff hi hp]
    by_cases hentry : a / 1024 ≤ p / 1024
    · by_cases hmapped : translate m p = m.dummyPagePteval
      · -- clearing a page that is not mapped changes nothing
        by_cases hcleared : Cleared m (a / 1024) a s p
        · exact ⟨fun _ => hcl hcleared, fun _ => (hcl hcleared).trans hmapped.symm⟩
        · exact ⟨fun _ => (hncl hcleared).trans hmapped, fun _ => hncl hcleared⟩
      · have hiff := h p hp hentry hmapped
        rw [← cleared_iff hp hentry hmapped] at hiff
        exact ⟨fun hrange => hcl (hiff.mp hrange), fun hrange => hncl (mt hiff.mpr hrange)⟩
    · have hrange : ¬ InRange (4096 * a) (4096 * s) (4096 * p) := by
        unfold InRange
        omega
      have hnot : ¬ Cleared m (a / 1024) a s p := fun hc => hentry hc.entry
      exact ⟨fun hr => absurd hr hrange, fun _ => hncl hnot⟩

/-- In every table the driver can have built, unmapping a range of whole pages
touches it and nothing else if and only if no mapped page is shifted into or out of
the range by the holes before it. -/
theorem unmap_touches_range_iff (h : Reachable Life.Begins Life.Step l) (iova size : Nat)
    (hiova : iova % 4096 = 0) (hsize : size % 4096 = 0) (hend : iova + size ≤ 2 ^ 32) :
    UnmapsRange l.mmu.info iova size ↔ Unshifted l.mmu.info iova size := by
  have heq : 4096 * (iova / 4096) = iova := by omega
  have heq' : 4096 * (size / 4096) = size := by omega
  rw [← heq, ← heq']
  exact unmapsRange_iff (alive_reachable h).inv (by omega)

/-- A fresh table in which page 1024, the first of the second L2 table, is mapped. -/
def onePage : Life :=
  let c : Call := .map (plainTables 2) (4096 * 1024) (4096 * 50) 4096
  ⟨c.run plainMmu, mmuAllocMoves plainAlloc ++ c.moves plainMmu⟩

theorem reachable_onePage : Reachable Life.Begins Life.Step onePage := by
  have hmap : Life.Step ⟨plainMmu, mmuAllocMoves plainAlloc⟩
      (.map (plainTables 2) (4096 * 1024) (4096 * 50) 4096) onePage :=
    ⟨fresh_plainTables (by omega), rfl⟩
  exact .step (.init begins_plainMmu) hmap

theorem translate_onePage :
    translate onePage.mmu.info = overlay (translate emptyMmu) 1024 1 (fun k => 50 + k) := by
  have hdummy : ∀ p, translate emptyMmu p = emptyMmu.dummyPagePteval := fun p => by
    simp [translate, inv_emptyMmu.2]
  have hmap := mmuMap_spec (a := 1024) (f := 50) (s := 1) inv_emptyMmu.1
    (fresh_plainTables (n := 2) (by omega)) (by decide) (by decide) fun k _ => hdummy (1024 + k)
  have hok := hmap.can.mpr fun k hk => canTable_plainTables (by omega)
  exact (hmap.ok hok).1

/-- Unmapping the page again. -/
theorem unmap_one_page : UnmapsRange onePage.mmu.info (4096 * 1024) 4096 := by
  refine (unmap_touches_range_iff reachable_onePage (4096 * 1024) 4096 (by decide) (by decide)
    (by decide)).mpr fun p _ _ hmapped => ?_
  have hp : p = 1024 := by
    by_contra hne
    refine hmapped ?_
    rw [translate_onePage, overlay_of_not_mem (by omega)]
    simp only [translate, inv_emptyMmu.2]
    decide +kernel
  subst hp
  rfl

/-- Unmapping page 0, which was never mapped, takes page 1024 down instead. -/
theorem unmap_hits_other_page :
    ∃ l : Life, Reachable Life.Begins Life.Step l ∧ ¬ UnmapsRange l.mmu.info 0 4096 := by
  refine ⟨onePage, reachable_onePage, fun h => ?_⟩
  have hsame := ((h 1024 (by decide)).2 (by decide)).1
  have hbefore : deviceWalk onePage.mmu.info 1024 = some 50 := by decide +kernel
  have hafter : deviceWalk (ipu6MmuUnmap onePage.mmu.info 0 4096) 1024 = some 10 := by decide +kernel
  rw [hbefore, hafter] at hsame
  cases hsame

end Ipu4.Mmu
