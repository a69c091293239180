import Ipu4.Dma.Loops

/-!
# The page array

`__alloc_buffer` fills an array with pages that it gets in blocks, the largest that still
fit first. Its size in bytes is an `int`. From 2^29 pages on the product wraps, and the
array can be shorter than the number of pages that are put into it.
-/

namespace Ipu4.Dma

open Ledger

-- ---------------------------------------------------------------------------
-- The array
-- ---------------------------------------------------------------------------

/-- `struct page **pages`, with room for `capacity` pages. -/
structure PageArray where
  capacity : Nat
  slot : Nat → Option Nat

/-- `pages[i] = page`. There is no result behind the array. -/
def PageArray.set (a : PageArray) (i : Nat) (page : Option Nat) : Option PageArray :=
  if i < a.capacity then some { a with slot := Function.update a.slot i page } else none

/-- `while (j--) pages[i + j] = pages[i] + j`. -/
def splitLoop (page i : Nat) : Nat → PageArray → Option PageArray
  | 0, a => some a
  | j + 1, a => do
    let a ← a.set (i + j) (some (page + j))
    splitLoop page i j a

/-- Where the loop of `__alloc_buffer` is: the array, the blocks that `alloc_pages` gave
and the slot it failed at. -/
inductive Fill
  | running
  | fault
  | done (a : PageArray) (got : List (Nat × Nat))
  | error (i : Nat) (a : PageArray) (got : List (Nat × Nat))

/-- The pages of a block of `2 ^ order`. -/
def blockPages (block : Nat × Nat) : List Nat := List.range' block.1 (2 ^ block.2)

def fillLoop (allocPages : Nat → Nat → Option Nat) :
    Nat → Nat → Nat → PageArray → List (Nat × Nat) → Fill
  | rounds, i, count, a, got =>
    if count = 0 then .done a got
    else
      match rounds with
      | 0 => .running
      | rounds + 1 =>
        match allocPagesDown allocPages i (Nat.log2 count) with
        | none =>
          match a.set i none with
          | none => .fault
          | some a => .error i a got
        | some (page, order) =>
          match (a.set i (some page)).bind fun a =>
              if order = 0 then some a else splitLoop page i (2 ^ order) a with
          | none => .fault
          | some a =>
            fillLoop allocPages rounds (i + 2 ^ order) (count - 2 ^ order) a (got ++ [(page, order)])

/-- `while (i--) if (pages[i]) __free_pages(pages[i], 0)`. -/
def freeDown (a : PageArray) : Nat → List Nat
  | 0 => []
  | i + 1 => (a.slot i).toList ++ freeDown a i

/-- What `__alloc_buffer` comes back with: the pages it freed on the way out, or the
array; and the blocks it was given. -/
inductive AllocResult
  | running
  | fault
  | null (freed : List Nat) (got : List (Nat × Nat))
  | pages (a : PageArray) (got : List (Nat × Nat))

/-- `int array_size = count * sizeof(struct page *)`. -/
def arraySize (count : Nat) : Int := (8 * (count : Int)).bmod (2 ^ 32)

/-- `__alloc_buffer` for fewer than 2^31 pages. A negative `array_size` is more than
`kvzalloc` ever gives. -/
def allocBufferArray (env : AllocEnv) (size : Nat) : AllocResult :=
  let count := size / 4096
  if arraySize count < 0 ∨ env.kvzalloc = false then .null [] []
  else
    match fillLoop env.allocPages count 0 count ⟨(arraySize count / 8).toNat, fun _ => none⟩ [] with
    | .running => .running
    | .fault => .fault
    | .done a got => .pages a got
    | .error i a got => .null (freeDown a i) got

/-- The loop of `__free_buffer` with `n` slots to go. -/
def freeUp (a : PageArray) : Nat → Nat → List Nat
  | 0, _ => []
  | n + 1, i =>
    match a.slot i with
    | none => []
    | some page => page :: freeUp a n (i + 1)

/-- `__free_buffer`: the pages that it frees. -/
def freeBufferArray (a : PageArray) (size : Nat) : List Nat := freeUp a (size / 4096) 0

-- ---------------------------------------------------------------------------
-- What the array holds
-- ---------------------------------------------------------------------------

/-- The array has these pages from its start, and nothing behind them. -/
def PageArray.Holds (a : PageArray) (pages : List Nat) : Prop := ∀ k, a.slot k = pages[k]?

section
variable {a : PageArray} {pages : List Nat} {allocPages : Nat → Nat → Option Nat}

theorem set_eq (h : i < a.capacity) (page : Option Nat) :
    a.set i page = some { a with slot := Function.update a.slot i page } := if_pos h

theorem splitLoop_eq (page i n : Nat) (h : i + n ≤ a.capacity) :
    splitLoop page i n a = some ⟨a.capacity, fun k =>
      if i ≤ k ∧ k < i + n then some (page + (k - i)) else a.slot k⟩ := by
  induction n generalizing a with
  | zero =>
    have hsame : (fun k => if i ≤ k ∧ k < i + 0 then some (page + (k - i)) else a.slot k) = a.slot := by
      funext k
      exact if_neg (by omega)
    rw [hsame]
    rfl
  | succ n ih =>
    rw [splitLoop, set_eq (by omega)]
    simp only [Option.bind_eq_bind, Option.bind_some]
    rw [ih (by exact Nat.le_of_succ_le h)]
    congr 2
    funext k
    dsimp only
    by_cases hlast : k = i + n
    · subst hlast
      rw [if_neg (by omega), Function.update_self, if_pos (by omega), Nat.add_sub_cancel_left]
    · rw [Function.update_of_ne hlast]
      exact if_congr (by omega) rfl rfl

theorem splitLoop_fault (page i : Nat) {n : Nat} (hn : 0 < n) (h : a.capacity < i + n) :
    splitLoop page i n a = none := by
  obtain ⟨n, rfl⟩ := Nat.exists_eq_succ_of_ne_zero (Nat.ne_of_gt hn)
  have hout : a.set (i + n) (some (page + n)) = none := if_neg (by omega)
  rw [splitLoop, hout]
  rfl

theorem getElem?_block (pages : List Nat) (page order k : Nat) :
    (pages ++ blockPages (page, order))[k]? =
      if pages.length ≤ k ∧ k < pages.length + 2 ^ order then some (page + (k - pages.length))
      else pages[k]? := by
  rcases Nat.lt_or_ge k pages.length with hlt | hge
  · rw [List.getElem?_append_left hlt, if_neg (by omega)]
  · rw [List.getElem?_append_right hge, List.getElem?_eq_none hge]
    unfold blockPages
    dsimp only
    split
    · rw [List.getElem?_range' (by omega), Nat.one_mul]
    · exact List.getElem?_eq_none (by rw [List.length_range']; omega)

theorem PageArray.Holds.block (h : a.Holds pages) (hfit : pages.length + 2 ^ order ≤ a.capacity)
    (page : Nat) :
    ∃ a', ((a.set pages.length (some page)).bind fun a =>
        if order = 0 then some a else splitLoop page pages.length (2 ^ order) a) = some a' ∧
      a'.capacity = a.capacity ∧ a'.Holds (pages ++ blockPages (page, order)) := by
  have hpos : 0 < 2 ^ order := Nat.two_pow_pos order
  rw [set_eq (by omega), Option.bind_some]
  by_cases hzero : order = 0
  · subst hzero
    refine ⟨_, rfl, rfl, fun k => ?_⟩
    rw [getElem?_block]
    dsimp only
    by_cases hk : k = pages.length
    · subst hk
      rw [Function.update_self, if_pos (by omega), Nat.sub_self, Nat.add_zero]
    · rw [Function.update_of_ne hk, if_neg (by omega)]
      exact h k
  · rw [if_neg hzero]
    refine ⟨_, splitLoop_eq page pages.length (2 ^ order) (by exact hfit), rfl, fun k => ?_⟩
    rw [getElem?_block]
    dsimp only
    by_cases hin : pages.length ≤ k ∧ k < pages.length + 2 ^ order
    · rw [if_pos hin, if_pos hin]
    · rw [if_neg hin, if_neg hin, Function.update_of_ne (by omega)]
      exact h k

theorem two_pow_le (hcount : count ≠ 0) (h : allocPagesDown allocPages i (Nat.log2 count) = some (page, order)) :
    2 ^ order ≤ count :=
  Nat.le_trans (Nat.pow_le_pow_right (by decide) (allocPagesDown_order h)) (Nat.log2_self_le hcount)

theorem fillLoop_spec (allocPages : Nat → Nat → Option Nat) (h : a.Holds pages)
    (hfit : pages.length + count ≤ a.capacity)
    (hr : count ≤ rounds) (hgot : got.flatMap blockPages = pages) :
    ∃ a' got' pages', a'.Holds pages' ∧ got'.flatMap blockPages = pages' ∧
      (allocBufferLoop allocPages rounds pages.length count pages = (pages', true) ∧
        fillLoop allocPages rounds pages.length count a got = .done a' got' ∨
      allocBufferLoop allocPages rounds pages.length count pages = (pages', false) ∧
        fillLoop allocPages rounds pages.length count a got = .error pages'.length a' got') := by
  induction rounds generalizing a pages count got with
  | zero =>
    obtain rfl : count = 0 := by omega
    exact ⟨a, got, pages, h, hgot, .inl ⟨rfl, by rw [fillLoop, if_pos rfl]⟩⟩
  | succ rounds ih =>
    rw [allocBufferLoop, fillLoop]
    by_cases hcount : count = 0
    · rw [if_pos hcount, if_pos hcount]
      exact ⟨a, got, pages, h, hgot, .inl ⟨rfl, rfl⟩⟩
    · rw [if_neg hcount, if_neg hcount]
      cases hdown : allocPagesDown allocPages pages.length (Nat.log2 count) with
      | none =>
        refine ⟨_, got, pages, ?_, hgot, .inr ⟨rfl, by rw [set_eq (by omega)]⟩⟩
        intro k
        show Function.update a.slot pages.length none k = _
        by_cases hk : k = pages.length
        · subst hk
          rw [Function.update_self, List.getElem?_eq_none (Nat.le_refl _)]
        · rw [Function.update_of_ne hk]
          exact h k
      | some block =>
        obtain ⟨page, order⟩ := block
        have hle := two_pow_le hcount hdown
        have hpos : 0 < 2 ^ order := Nat.two_pow_pos order
        obtain ⟨a', hset, hcap, hholds⟩ := h.block (show pages.length + 2 ^ order ≤ a.capacity by omega) page
        have hlen : pages.length + 2 ^ order = (pages ++ blockPages (page, order)).length := by
          rw [List.length_append, blockPages, List.length_range']
        dsimp only
        unfold blockPages at hlen hholds
        rw [hset, hlen]
        refine ih hholds ?_ (by omega) ?_
        · rw [← hlen, hcap]
          omega
        · rw [List.flatMap_append, hgot]
          simp [blockPages]

theorem freeDown_eq (h : a.Holds pages) (n : Nat) (hn : n ≤ pages.length) :
    freeDown a n = (pages.take n).reverse := by
  induction n with
  | zero => rfl
  | succ n ih =>
    rw [freeDown, ih (by omega), h n, List.take_add_one, List.reverse_append,
      List.getElem?_eq_getElem (by omega)]
    rfl

theorem freeUp_eq (h : a.Holds pages) (hn : i + n = pages.length) : freeUp a n i = pages.drop i := by
  induction n generalizing i with
  | zero => rw [freeUp, List.drop_eq_nil_of_le (by omega)]
  | succ n ih =>
    have hi : i < pages.length := by omega
    rw [freeUp, h i, List.getElem?_eq_getElem hi, List.drop_eq_getElem_cons hi, ih (by omega)]

-- ---------------------------------------------------------------------------
-- Distinct pages
-- ---------------------------------------------------------------------------

/-- `alloc_pages` does not give a page for a later slot that is in a block already
given. -/
def BlocksApart (allocPages : Nat → Nat → Option Nat) : Prop :=
  ∀ i order page i' order' page', allocPages i order = some page → allocPages i' order' = some page' →
    i + 2 ^ order ≤ i' → (blockPages (page, order)).Disjoint (blockPages (page', order'))

theorem allocPagesDown_some (h : allocPagesDown allocPages i top = some (page, order)) :
    allocPages i order = some page := by
  induction top with
  | zero =>
    simp only [allocPagesDown, Option.map_eq_some_iff, Prod.mk.injEq] at h
    obtain ⟨_, hpage, rfl, rfl⟩ := h
    exact hpage
  | succ top ih =>
    simp only [allocPagesDown] at h
    split at h
    · next hpage =>
      obtain ⟨rfl, rfl⟩ := Prod.mk.inj (Option.some.inj h)
      exact hpage
    · exact ih h

theorem nodup_allocBufferLoop (hap : BlocksApart allocPages) (hnd : pages.Nodup)
    (hin : ∀ q ∈ pages, ∃ j order page, allocPages j order = some page ∧ j + 2 ^ order ≤ i ∧
      q ∈ blockPages (page, order)) (rounds count : Nat) :
    (allocBufferLoop allocPages rounds i count pages).1.Nodup := by
  induction rounds generalizing i count pages with
  | zero => exact hnd
  | succ rounds ih =>
    rw [allocBufferLoop]
    split
    · exact hnd
    · split
      · exact hnd
      · next page order hdown =>
        have hpage := allocPagesDown_some hdown
        refine ih ?_ ?_ _
        · refine List.nodup_append.mpr ⟨hnd, List.nodup_range', fun q hq q' hq' heq => ?_⟩
          obtain ⟨j, order', page', hj, hle, hmem⟩ := hin q hq
          exact hap j order' page' i order page hj hpage hle hmem (heq ▸ hq')
        · intro q hq
          rcases List.mem_append.mp hq with hq | hq
          · obtain ⟨j, order', page', hj, hle, hmem⟩ := hin q hq
            exact ⟨j, order', page', hj, Nat.le_add_right_of_le hle, hmem⟩
          · exact ⟨i, order, page, hpage, Nat.le_refl _, hq⟩

end

-- ---------------------------------------------------------------------------
-- Exact allocation
-- ---------------------------------------------------------------------------

/-- `__alloc_buffer` comes back. If it succeeds, its slots are the pages of the blocks,
each once, and `__free_buffer` frees these; otherwise it has freed the pages of the blocks. -/
structure PagesExact (env : AllocEnv) (size : Nat) : Prop where
  ends : allocBufferArray env size ≠ .running ∧ allocBufferArray env size ≠ .fault
  success : ∀ a got, allocBufferArray env size = .pages a got →
    (got.flatMap blockPages).length = size / 4096 ∧ (got.flatMap blockPages).Nodup ∧
    (∀ k < size / 4096, a.slot k = (got.flatMap blockPages)[k]?) ∧
    (freeBufferArray a size).Perm (got.flatMap blockPages)
  failure : ∀ freed got, allocBufferArray env size = .null freed got →
    freed.Perm (got.flatMap blockPages)

theorem arraySize_neg (count : Nat) : arraySize count < 0 ↔ 2 ^ 28 ≤ count % 2 ^ 29 := by
  unfold arraySize
  rw [Int.bmod_def]
  split <;> omega

theorem arraySize_eq (h : count % 2 ^ 29 < 2 ^ 28) : (arraySize count / 8).toNat = count % 2 ^ 29 := by
  unfold arraySize
  rw [Int.bmod_def]
  split <;> omega

section
variable {env : AllocEnv} {size : Nat}

theorem pagesExact_null (h : arraySize (size / 4096) < 0 ∨ env.kvzalloc = false) :
    PagesExact env size := by
  have hrun : allocBufferArray env size = .null [] [] := by
    unfold allocBufferArray
    exact if_pos h
  refine ⟨?_, ?_, ?_⟩ <;> rw [hrun]
  · exact ⟨nofun, nofun⟩
  · exact nofun
  · rintro _ _ ⟨⟩
    exact .nil

theorem pagesExact_room (hap : BlocksApart env.allocPages) (h : size / 4096 < 2 ^ 28) :
    PagesExact env size := by
  by_cases hno : arraySize (size / 4096) < 0 ∨ env.kvzalloc = false
  · exact pagesExact_null hno
  have hcap : (arraySize (size / 4096) / 8).toNat = size / 4096 := by
    rw [arraySize_eq (by omega), Nat.mod_eq_of_lt (by omega)]
  have hstart : (⟨size / 4096, fun _ => none⟩ : PageArray).Holds [] := fun _ => rfl
  have hnone : ([] : List (Nat × Nat)).flatMap blockPages = [] := rfl
  obtain ⟨a, got, pages, hholds, hgot, hcase⟩ := fillLoop_spec env.allocPages hstart
    (show [].length + size / 4096 ≤ size / 4096 by simp) (Nat.le_refl (size / 4096)) hnone
  have hnd : (allocBufferLoop env.allocPages (size / 4096) 0 (size / 4096) []).1.Nodup :=
    nodup_allocBufferLoop hap .nil (by simp) (size / 4096) (size / 4096)
  rw [List.length_nil] at hcase
  subst hgot
  rcases hcase with ⟨hlist, hfill⟩ | ⟨hlist, hfill⟩
  · have hlen := allocBufferLoop_length (Nat.le_refl _) hlist
    rw [List.length_nil, Nat.zero_add] at hlen
    rw [hlist] at hnd
    have hrun : allocBufferArray env size = .pages a got := by
      unfold allocBufferArray
      dsimp only
      rw [if_neg hno, hcap, hfill]
    refine ⟨?_, ?_, ?_⟩ <;> rw [hrun]
    · exact ⟨nofun, nofun⟩
    · rintro _ _ ⟨⟩
      have hall : 0 + size / 4096 = (got.flatMap blockPages).length := by rw [hlen, Nat.zero_add]
      have hfreed : freeBufferArray a size = got.flatMap blockPages := freeUp_eq hholds hall
      exact ⟨hlen, hnd, fun k _ => hholds k, hfreed ▸ .refl _⟩
    · exact nofun
  · have hrun : allocBufferArray env size =
        .null (freeDown a (got.flatMap blockPages).length) got := by
      unfold allocBufferArray
      dsimp only
      rw [if_neg hno, hcap, hfill]
    refine ⟨?_, ?_, ?_⟩ <;> rw [hrun]
    · exact ⟨nofun, nofun⟩
    · exact nofun
    · rintro _ _ ⟨⟩
      rw [freeDown_eq hholds _ (Nat.le_refl _), List.take_length]
      exact List.reverse_perm _

end

theorem mmuAlloc_aperture (h : Mmu.ipu6MmuAlloc aenv = some m) : m.apertureEnd < 2 ^ 32 := by
  simp only [Mmu.ipu6MmuAlloc, Option.bind_eq_bind, Option.pure_def, Option.bind_eq_some_iff,
    Option.some.injEq] at h
  obtain ⟨_, -, _, -, _, -, _, -, _, -, rfl⟩ := h
  dsimp only
  split <;> decide

/-- `ipu6_dma_alloc` has a range of as many IOVA pages, all up to `aperture_end`, before it
calls `__alloc_buffer`. For such a size the array is exact. -/
theorem allocBuffer_exact (h : Mmu.ipu6MmuAlloc aenv = some m)
    (hiova : ∃ lo, env.allocIova = some lo ∧ lo + size / 4096 ≤ m.apertureEnd / 4096 + 1)
    (hap : BlocksApart env.allocPages) : PagesExact env size := by
  have haperture := mmuAlloc_aperture h
  obtain ⟨lo, -, hend⟩ := hiova
  exact pagesExact_room hap (by omega)

/-- No block of more than two pages can be had, and none for slot 4. -/
def pairsEnv (last : Option Nat) : AllocEnv where
  kzalloc := true
  allocIova := some 1
  kvzalloc := true
  allocPages := fun i order =>
    if 1 < order then none
    else if i < 4 then some (100 + i)
    else if i = 4 then last
    else none
  dmaMapPage := fun _ => none
  tables := fun _ => ⟨none, none⟩
  vmap := none

theorem blocksApart_pairs (hlast : ∀ page ∈ last, 104 ≤ page) :
    BlocksApart (pairsEnv last).allocPages := by
  intro i order page i' order' page' h h' hle
  have hpos : 0 < 2 ^ order := Nat.two_pow_pos order
  have hpage : i < 4 ∧ page = 100 + i ∧ 100 + i' ≤ page' := by
    simp only [pairsEnv, Option.mem_def] at h h' hlast
    grind
  obtain ⟨-, rfl, hfrom⟩ := hpage
  intro p hp hp'
  simp only [blockPages, List.mem_range'_1] at hp hp'
  omega

/-- Five pages in two pairs and a single one, and the two pairs freed when there is no
fifth. -/
theorem allocBuffer_exact_pairs : PagesExact (pairsEnv (some 104)) 20480 ∧ PagesExact (pairsEnv none) 20480 :=
  ⟨allocBuffer_exact Mmu.mmuAlloc_plainAlloc ⟨1, rfl, by decide⟩ (blocksApart_pairs (by simp)),
    allocBuffer_exact Mmu.mmuAlloc_plainAlloc ⟨1, rfl, by decide⟩ (blocksApart_pairs (by simp))⟩

/-- `alloc_pages` with a single block, of whatever order is asked for first. -/
def oneBlockEnv : AllocEnv where
  kzalloc := true
  allocIova := none
  kvzalloc := true
  allocPages := fun i _ => if i = 0 then some 0 else none
  dmaMapPage := fun _ => none
  tables := fun _ => ⟨none, none⟩
  vmap := none

theorem blocksApart_oneBlock : BlocksApart oneBlockEnv.allocPages := by
  intro i order page i' order' page' _ h' hle
  have hpos : 0 < 2 ^ order := Nat.two_pow_pos order
  have hne : i' ≠ 0 := by omega
  simp [oneBlockEnv, hne] at h'

theorem oneBlock_fault (h : 2 ^ 29 ≤ size / 4096) (hwrap : size / 4096 % 2 ^ 29 < 2 ^ 28) :
    allocBufferArray oneBlockEnv size = .fault := by
  generalize hcount : size / 4096 = count at h hwrap
  have hroom : ¬ (arraySize count < 0 ∨ oneBlockEnv.kvzalloc = false) := by
    rw [arraySize_neg]
    rintro (hneg | hnone)
    · exact absurd hwrap (Nat.not_lt.mpr hneg)
    · cases hnone
  have hdown : allocPagesDown oneBlockEnv.allocPages 0 (Nat.log2 count) = some (0, Nat.log2 count) := by
    cases Nat.log2 count with
    | zero => rfl
    | succ n => rfl
  have hlog : 29 ≤ Nat.log2 count := (Nat.le_log2 (by omega)).mpr h
  have hbig : 2 ^ 29 ≤ 2 ^ Nat.log2 count := Nat.pow_le_pow_right (by decide) hlog
  have hfill : ∀ rounds cap, cap < 2 ^ 28 →
      fillLoop oneBlockEnv.allocPages (rounds + 1) 0 count ⟨cap, fun _ => none⟩ [] = .fault := by
    intro rounds cap hcap
    rw [fillLoop, if_neg (by omega), hdown]
    dsimp only
    cases hset : PageArray.set ⟨cap, fun _ => none⟩ 0 (some 0) with
    | none => rfl
    | some a =>
      unfold PageArray.set at hset
      split at hset
      · obtain rfl := Option.some.inj hset
        rw [Option.bind_some, if_neg (by omega), splitLoop_fault _ _ (by omega) (by dsimp only; omega)]
      · cases hset
  obtain ⟨rounds, hrounds⟩ := Nat.exists_eq_succ_of_ne_zero (show count ≠ 0 by omega)
  have hrun := hfill rounds _ hwrap
  rw [← Nat.succ_eq_add_one, ← hrounds] at hrun
  unfold allocBufferArray
  dsimp only
  rw [hcount, if_neg hroom, arraySize_eq hwrap, hrun]

/-- Over all answers of the kernel, the array is exact if and only if the number of pages
is below 2^29, or so far above a multiple of it that no array can be had. -/
theorem allocBuffer_exact_iff (size : Nat) :
    (∀ env : AllocEnv, BlocksApart env.allocPages → PagesExact env size) ↔
      size / 4096 < 2 ^ 29 ∨ 2 ^ 28 ≤ size / 4096 % 2 ^ 29 := by
  constructor
  · intro h
    by_contra hno
    obtain ⟨hge, hwrap⟩ := not_or.mp hno
    exact (h oneBlockEnv blocksApart_oneBlock).ends.2 (oneBlock_fault (by omega) (by omega))
  · intro h env hap
    rcases Nat.lt_or_ge (size / 4096 % 2 ^ 29) (2 ^ 28) with hlt | hge
    · exact pagesExact_room hap (by omega)
    · exact pagesExact_null (.inl ((arraySize_neg _).mpr hge))

/-- Two terabytes: the array has no room at all. -/
theorem allocBuffer_behind_array :
    ¬ ∀ size, size % 4096 = 0 → size / 4096 < 2 ^ 31 → ∀ env : AllocEnv,
      BlocksApart env.allocPages → PagesExact env size := by
  intro h
  have hexact := h (2 ^ 41) (by decide) (by decide) oneBlockEnv blocksApart_oneBlock
  exact hexact.ends.2 (oneBlock_fault (by decide) (by decide))

end Ipu4.Dma
