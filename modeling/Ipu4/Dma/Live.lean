import Ipu4.Dma.Regions

/-!
# Live buffers

The lists that `ipu6_dma_map_sg` has mapped, over whole runs. Every page of such a
list is mapped to its frame, or it has been unmapped by the rollback of a call that
failed and goes to the dummy page.
-/

namespace Ipu4.Dma

open Mmu

-- ---------------------------------------------------------------------------
-- Worlds
-- ---------------------------------------------------------------------------

/-- The frames of a list, page by page. -/
def framesOf (sgl : List Sg) : List Nat :=
  sgl.flatMap fun e => (List.range (pfnUp e.dmaLen)).map fun k => e.dmaAddress / 4096 + k

/-- A list that has been mapped, and the address that the device has for it. -/
structure LiveBuffer where
  frames : List Nat
  dmaAddr : Nat
  deriving DecidableEq, Repr

def LiveBuffer.range (b : LiveBuffer) : Iova := ⟨b.dmaAddr / 4096, b.dmaAddr / 4096 + b.frames.length - 1⟩

structure World where
  d : Ipu6Mmu
  live : List LiveBuffer

/-- What a call of `ipu6_dma_map_sg` that succeeds has mapped. -/
def Op.mapped (d : Ipu6Mmu) : Op → List LiveBuffer
  | .mapSg env sgl =>
    match ipu6DmaMapSg d env sgl with
    | some (_, e :: _, ret) => if 0 < ret then [⟨framesOf sgl, e.dmaAddress⟩] else []
    | _ => []
  | _ => []

/-- A list is live for as long as the domain has its range. -/
structure World.Step (w : World) (op : Op) (w' : World) : Prop where
  calls : Calls w.d op w'.d
  live : w'.live = op.mapped w.d ++ w.live.filter fun b => b.range ∈ w'.d.iovad

structure World.Begins (w : World) : Prop where
  begun : Begun w.d
  live : w.live = []

-- ---------------------------------------------------------------------------
-- What is mapped
-- ---------------------------------------------------------------------------

theorem length_framesOf (sgl : List Sg) : (framesOf sgl).length = npages sgl := by
  simp [framesOf, npages, List.length_flatMap]

theorem Placed.frames (h : Placed m a es done) (hlen : done.length = es.length)
    (hk : (framesOf es)[k]? = some f) : translate m (a + k) = f := by
  induction h generalizing k with
  | nil a es =>
    obtain rfl : es = [] := List.length_eq_zero_iff.mp hlen.symm
    cases hk
  | cons e a es done _ hpages _ ih =>
    have hsplit : framesOf (e :: es) =
        ((List.range (pfnUp e.dmaLen)).map fun k => e.dmaAddress / 4096 + k) ++ framesOf es := rfl
    rw [hsplit] at hk
    rcases Nat.lt_or_ge k (pfnUp e.dmaLen) with hlt | hge
    · rw [List.getElem?_append_left (by simpa using hlt)] at hk
      obtain ⟨htr, -⟩ := hpages k hlt
      rw [htr]
      simpa [hlt] using hk
    · rw [List.getElem?_append_right (by simpa using hge)] at hk
      have hrest := ih (k := k - pfnUp e.dmaLen) (by simpa using hlen) (by simpa using hk)
      rwa [Nat.add_assoc, Nat.add_sub_cancel' hge] at hrest

/-- A list whose range is in the domain, and whose pages are mapped or lost. -/
structure LiveIn (d : Ipu6Mmu) (b : LiveBuffer) : Prop where
  range : b.range ∈ d.iovad
  aligned : b.dmaAddr % 4096 = 0
  pos : 1 ≤ b.dmaAddr / 4096
  bound : b.dmaAddr / 4096 + b.frames.length ≤ 2 ^ 20
  pages : ∀ k f, b.frames[k]? = some f → translate d.mmu (b.dmaAddr / 4096 + k) = f ∨
    translate d.mmu (b.dmaAddr / 4096 + k) = d.mmu.dummyPagePteval

section
variable {d d' : Ipu6Mmu} {b : LiveBuffer}

theorem LiveIn.mem (h : LiveIn d b) (hk : b.frames[k]? = some f) : b.range.Mem (b.dmaAddr / 4096 + k) := by
  have hlt := (List.getElem?_eq_some_iff.mp hk).1
  have hpos := h.pos
  unfold LiveBuffer.range
  rw [mem_iova h.pos]
  omega

theorem LiveIn.carried (h : LiveIn d b) (hc : Carried d d') (hrange : b.range ∈ d'.iovad) :
    LiveIn d' b where
  range := hrange
  aligned := h.aligned
  pos := h.pos
  bound := h.bound
  pages k f hk := by
    rw [hc.dummyPage]
    rcases hc.kills b.range h.range _ (h.mem hk) with hsame | hlost
    · rw [hsame]
      exact h.pages k f hk
    · exact .inr hlost

/-- What a call leaves that has mapped a list. -/
structure SgPlaced (d : Ipu6Mmu) (sgl : List Sg) (lo : Nat) (d' : Ipu6Mmu) (sgl' : List Sg) : Prop where
  pos : 1 ≤ lo
  bound : lo + npages sgl ≤ 2 ^ 20
  placed : Placed d'.mmu lo sgl sgl'
  length : sgl'.length = sgl.length
  iovad : d'.iovad = ⟨lo, lo + npages sgl - 1⟩ :: d.iovad
  rest : ∀ p, ¬ (lo ≤ p ∧ p < lo + npages sgl) → translate d'.mmu p = translate d.mmu p

theorem mapSg_placed (hd : Domain d) (ha : SgEnvOk d env sgl)
    (hrun : ipu6DmaMapSg d env sgl = some (d', sgl', ret)) (hret : 0 < ret) :
    ∃ lo, env.allocIova = some lo ∧ SgPlaced d sgl lo d' sgl' := by
  rcases mapSg_cases hd ha hrun with ⟨-, -, rfl⟩ | ⟨-, -, hno⟩ |
    ⟨lo, m, done, hlo, ⟨hp, rfl, -, rfl⟩ | ⟨-, hno, -⟩⟩
  · exact absurd hret (by decide)
  · exact absurd hno (Int.ne_of_gt hret)
  · have hout := hp.rest
    rw [hp.all rfl, List.take_length] at hout
    exact ⟨lo, hlo, hp.pos, hp.bound, hp.placed, hp.all rfl, rfl, hout⟩
  · exact absurd hno (Int.ne_of_gt hret)

theorem SgPlaced.liveIn (h : SgPlaced d sgl lo d' (e :: es)) : LiveIn d' ⟨framesOf sgl, e.dmaAddress⟩ := by
  obtain ⟨hpos, hb, hplaced, hlen, hiovad, -⟩ := h
  have haddr : e.dmaAddress = 4096 * lo := by
    cases hplaced with
    | cons => rfl
  have hpage : e.dmaAddress / 4096 = lo := by omega
  have hcount := length_framesOf sgl
  constructor
  · unfold LiveBuffer.range
    dsimp only
    rw [hpage, hcount, hiovad]
    exact List.mem_cons_self
  · dsimp only
    omega
  · dsimp only
    omega
  · dsimp only
    omega
  · intro k f hk
    dsimp only at hk ⊢
    rw [hpage]
    exact .inl (hplaced.frames hlen hk)

theorem liveIn_mapped (hd : Domain d) (hc : Calls d op d') (hb : b ∈ op.mapped d) : LiveIn d' b := by
  obtain ⟨ha, hrun⟩ := hc
  cases op with
  | mapSg env sgl =>
    obtain ⟨⟨d₁, sgl', ret⟩, hcall, rfl⟩ := Option.map_eq_some_iff.mp hrun
    unfold Op.mapped at hb
    dsimp only at hb
    rw [hcall] at hb
    cases sgl' with
    | nil => cases hb
    | cons e es =>
      dsimp only at hb
      split at hb
      · next hret =>
        obtain rfl := List.mem_singleton.mp hb
        obtain ⟨lo, -, hplaced⟩ := mapSg_placed hd ha hcall hret
        exact hplaced.liveIn
      · cases hb
  | alloc => cases hb
  | free => cases hb
  | unmapSg => cases hb

end

/-- Every live list is mapped, or lost in parts. -/
structure World.Ok (w : World) : Prop where
  domain : Domain w.d
  live : ∀ b ∈ w.live, LiveIn w.d b

theorem World.Begins.ok {w : World} (h : w.Begins) : w.Ok := by
  refine ⟨h.begun.domain, ?_⟩
  rw [h.live]
  exact nofun

theorem World.Ok.step {w w' : World} (h : w.Ok) (hs : w.Step op w') : w'.Ok := by
  obtain ⟨hcalls, hnext⟩ := hs
  have hcarried := h.domain.call hcalls
  refine ⟨hcarried.domain, fun b hb => ?_⟩
  rw [hnext] at hb
  rcases List.mem_append.mp hb with hb | hb
  · exact liveIn_mapped h.domain hcalls hb
  · obtain ⟨hb, hrange⟩ := List.mem_filter.mp hb
    exact (h.live b hb).carried hcarried (of_decide_eq_true hrange)

theorem calls_mapSg {d d' : Ipu6Mmu} (ha : SgEnvOk d env sgl)
    (hrun : ipu6DmaMapSg d env sgl = some (d', sgl', ret)) : Calls d (.mapSg env sgl) d' :=
  ⟨ha, by simp [Op.run, hrun]⟩

theorem World.Ok.mapSg {w : World} {d' : Ipu6Mmu} (h : w.Ok) (ha : SgEnvOk w.d env sgl)
    (hrun : ipu6DmaMapSg w.d env sgl = some (d', e :: es, ret)) (hret : 0 < ret) :
    w.Step (.mapSg env sgl) ⟨d', ⟨framesOf sgl, e.dmaAddress⟩ :: w.live⟩ := by
  obtain ⟨lo, -, hplaced⟩ := mapSg_placed h.domain ha hrun hret
  have hkept : (w.live.filter fun b => b.range ∈ d'.iovad) = w.live := by
    refine List.filter_eq_self.mpr fun b hb => decide_eq_true ?_
    rw [hplaced.iovad]
    exact List.mem_cons_of_mem _ (h.live b hb).range
  refine ⟨calls_mapSg ha hrun, ?_⟩
  rw [hkept]
  simp [Op.mapped, hrun, hret]

end Ipu4.Dma
