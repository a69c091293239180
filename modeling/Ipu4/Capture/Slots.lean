import Ipu4.Lib.Runs
import Ipu4.Capture.Stream

/-!
# The pool of stream slots

Eight slots with a reference count each. A video node gets the slot of its
virtual channel and receiver, the interrupt handler looks a slot up by its handle or
by its source, and every success is matched by one put. All four functions hold
`streams_lock`, so any interleaving of them is a sequence of whole calls.
-/

namespace Ipu4.Capture

open Runs (Reachable Enabled)

/-- The fields of the slots that the pool looks at. -/
structure Pool where
  refCount : Nat → Int
  vc : Nat → Nat
  asd : Nat → Nat
  streamSource : Nat → Int

def Pool.addRef (p : Pool) (k : Nat) : Pool :=
  { p with refCount := Function.update p.refCount k (p.refCount k + 1) }

def Pool.claim (p : Pool) (k vc asd : Nat) : Pool :=
  { p.addRef k with vc := Function.update p.vc k vc, asd := Function.update p.asd k asd }

/-- Indices of slots in the order of the loops. -/
def slotIds : List Nat := List.range IPU4_ISYS_MAX_STREAMS

namespace Pool

def getStream (p : Pool) (vc asd : Nat) : Pool × Option Nat :=
  match slotIds.find? fun k => p.refCount k ≠ 0 ∧ p.vc k = vc ∧ p.asd k = asd with
  | some k => (p.addRef k, some k)
  | none =>
    match slotIds.find? fun k => p.refCount k = 0 with
    | some k => (p.claim k vc asd, some k)
    | none => (p, none)

def putStream (p : Pool) (k : Nat) : Pool :=
  if 0 < p.refCount k then
    { p with refCount := Function.update p.refCount k (p.refCount k - 1) }
  else p

def queryStreamByHandle (p : Pool) (handle : Nat) : Pool × Option Nat :=
  if IPU4_ISYS_MAX_STREAMS ≤ handle then (p, none)
  else if 0 < p.refCount handle then (p.addRef handle, some handle)
  else (p, none)

def queryStreamBySource (p : Pool) (source : Int) (vc : Nat) : Pool × Option Nat :=
  if source < 0 then (p, none)
  else
    match slotIds.find? fun k => p.refCount k ≠ 0 ∧ p.streamSource k = source ∧ p.vc k = vc with
    | some k => (p.addRef k, some k)
    | none => (p, none)

end Pool

/-- The slots as the model of the capture operations has them. -/
def Isys.pool (s : Isys) (streamSource : Nat → Int) : Pool :=
  ⟨fun k => s.streamsRefCount k, s.streamsVc, s.streamsAsd, streamSource⟩

theorem pool_getStream (s : Isys) (src : Nat → Int) (i asd : Nat) :
    (s.pool src).getStream (s.vc i) asd =
      ((ipu6IsysGetStream s i asd).1.pool src, (ipu6IsysGetStream s i asd).2) := by
  have hheld : (fun k => decide ((s.pool src).refCount k ≠ 0 ∧ (s.pool src).vc k = s.vc i ∧
      (s.pool src).asd k = asd)) = fun k => decide (s.streamsRefCount k ≠ 0 ∧
        s.streamsVc k = s.vc i ∧ s.streamsAsd k = asd) := by
    simp [Isys.pool]
  have hfree : (fun k => decide ((s.pool src).refCount k = 0)) =
      fun k => decide (s.streamsRefCount k = 0) := by
    simp [Isys.pool]
  simp only [Pool.getStream, ipu6IsysGetStream, hheld, hfree, slotIds]
  have hcast : ∀ k, (fun j => ((Function.update s.streamsRefCount k (s.streamsRefCount k + 1) j : Nat) : Int)) =
      Function.update (fun j => (s.streamsRefCount j : Int)) k (s.streamsRefCount k + 1) := by
    intro k
    funext j
    by_cases h : j = k
    · subst h
      simp
    · simp [h]
  generalize (List.range IPU4_ISYS_MAX_STREAMS).find? (fun k => decide (s.streamsRefCount k ≠ 0 ∧
    s.streamsVc k = s.vc i ∧ s.streamsAsd k = asd)) = shared
  generalize (List.range IPU4_ISYS_MAX_STREAMS).find? (fun k => decide (s.streamsRefCount k = 0)) =
    free
  cases shared with
  | some k => simp [Pool.addRef, Isys.pool, hcast]
  | none =>
    cases free with
    | some k => simp [Pool.claim, Pool.addRef, Isys.pool, hcast]
    | none => rfl

theorem pool_putStream (s : Isys) (src : Nat → Int) (k : Nat) :
    (s.pool src).putStream k = (ipu6IsysPutStream s k).pool src := by
  unfold Pool.putStream ipu6IsysPutStream
  have hpos : 0 < (s.pool src).refCount k ↔ 0 < s.streamsRefCount k := by simp [Isys.pool]
  simp only [hpos]
  split
  next h =>
    have hcast : (fun j => ((Function.update s.streamsRefCount k (s.streamsRefCount k - 1) j : Nat) : Int)) =
        Function.update (fun j => (s.streamsRefCount j : Int)) k ((s.streamsRefCount k : Int) - 1) := by
      funext j
      by_cases hj : j = k
      · subst hj
        simp only [Function.update_self]
        omega
      · simp [hj]
    simp [Isys.pool, hcast]
  next => rfl

-- ---------------------------------------------------------------------------
-- Holders
-- ---------------------------------------------------------------------------

/-- A reference that has been taken and not been put. That of a video node is for
a virtual channel and receiver, that of the interrupt handler is not. -/
structure Hold where
  slot : Nat
  pair : Option (Nat × Nat)
  deriving DecidableEq, Repr

structure PoolState where
  pool : Pool
  holds : List Hold

inductive PoolEv where
  | get (vc asd : Nat)
  | queryByHandle (handle : Nat)
  | queryBySource (source : Int) (vc : Nat)
  | put (hold : Hold)
  /-- `stream_source` is set by whoever prepares the stream. -/
  | setSource (k : Nat) (source : Int)

def held (r : Pool × Option Nat) (pair : Option (Nat × Nat)) (holds : List Hold) : PoolState :=
  ⟨r.1, match r.2 with
    | some k => ⟨k, pair⟩ :: holds
    | none => holds⟩

/-- Only what has been taken is put. -/
def poolStep (s : PoolState) : PoolEv → Option PoolState
  | .get vc asd => some (held (s.pool.getStream vc asd) (some (vc, asd)) s.holds)
  | .queryByHandle handle => some (held (s.pool.queryStreamByHandle handle) none s.holds)
  | .queryBySource source vc => some (held (s.pool.queryStreamBySource source vc) none s.holds)
  | .put hold =>
    if hold ∈ s.holds then some ⟨s.pool.putStream hold.slot, s.holds.erase hold⟩ else none
  | .setSource k source =>
    some { s with pool := { s.pool with
      streamSource := Function.update s.pool.streamSource k source } }

def PoolInit (s : PoolState) : Prop := (∀ k, s.pool.refCount k = 0) ∧ s.holds = []

def PoolState.holders (s : PoolState) (k : Nat) : Nat := s.holds.countP fun h => h.slot = k

structure PoolInv (s : PoolState) : Prop where
  count : ∀ k, s.pool.refCount k = s.holders k
  slots : ∀ h ∈ s.holds, h.slot < IPU4_ISYS_MAX_STREAMS
  /-- a node holds the slot that has its pair -/
  pair : ∀ h ∈ s.holds, ∀ vc asd, h.pair = some (vc, asd) →
    s.pool.vc h.slot = vc ∧ s.pool.asd h.slot = asd
  /-- no two held slots have the same pair -/
  distinct : ∀ j k, s.pool.refCount j ≠ 0 → s.pool.refCount k ≠ 0 → s.pool.vc j = s.pool.vc k →
    s.pool.asd j = s.pool.asd k → j = k

theorem PoolInv.init (h : PoolInit s) : PoolInv s := by
  obtain ⟨hzero, hnil⟩ := h
  refine ⟨fun k => ?_, by simp [hnil], by simp [hnil], fun j k hj => absurd (hzero j) hj⟩
  simp [hzero, PoolState.holders, hnil]

-- ---------------------------------------------------------------------------
-- One step
-- ---------------------------------------------------------------------------

@[simp] theorem addRef_refCount (p : Pool) (j k : Nat) :
    (p.addRef k).refCount j = p.refCount j + if k = j then 1 else 0 := by
  by_cases h : k = j
  · subst h
    simp [Pool.addRef]
  · simp [Pool.addRef, h, Ne.symm h]

@[simp] theorem addRef_vc (p : Pool) (k : Nat) : (p.addRef k).vc = p.vc := rfl
@[simp] theorem addRef_asd (p : Pool) (k : Nat) : (p.addRef k).asd = p.asd := rfl

theorem holders_cons (p : Pool) (h : Hold) (hs : List Hold) (k : Nat) :
    (PoolState.mk p (h :: hs)).holders k =
      (PoolState.mk p hs).holders k + if h.slot = k then 1 else 0 := by
  simp only [PoolState.holders, List.countP_cons, decide_eq_true_eq]

theorem PoolInv.refCount_nonneg (h : PoolInv s) (k : Nat) : 0 ≤ s.pool.refCount k := by
  rw [h.count]
  exact Int.natCast_nonneg _

theorem PoolInv.count_cons (h : PoolInv s) (hp : p.refCount = (s.pool.addRef k).refCount) (j : Nat) :
    p.refCount j = (PoolState.mk p (⟨k, pr⟩ :: s.holds)).holders j := by
  have hsame : (PoolState.mk p s.holds).holders j = s.holders j := rfl
  rw [hp, addRef_refCount, h.count, holders_cons, hsame]
  split <;> simp

theorem PoolInv.addRef (h : PoolInv s) (hk : k < IPU4_ISYS_MAX_STREAMS)
    (href : s.pool.refCount k ≠ 0)
    (hpair : ∀ vc asd, pr = some (vc, asd) → s.pool.vc k = vc ∧ s.pool.asd k = asd) :
    PoolInv ⟨s.pool.addRef k, ⟨k, pr⟩ :: s.holds⟩ := by
  have hpos : ∀ j, (s.pool.addRef k).refCount j ≠ 0 → s.pool.refCount j ≠ 0 := by
    intro j hj
    rw [addRef_refCount] at hj
    split at hj
    next heq => exact heq ▸ href
    next => simpa using hj
  refine ⟨h.count_cons rfl, ?_, ?_, fun i j hi hj => h.distinct i j (hpos i hi) (hpos j hj)⟩
  · simpa using ⟨hk, h.slots⟩
  · rintro hold hmem vc asd hp
    rcases List.mem_cons.mp hmem with rfl | hmem
    · exact hpair vc asd hp
    · exact h.pair hold hmem vc asd hp

theorem PoolInv.slot_ne (h : PoolInv s) (hfree : s.pool.refCount k = 0) (hmem : hold ∈ s.holds) :
    hold.slot ≠ k := by
  rw [h.count k] at hfree
  have hzero : s.holders k = 0 := by exact_mod_cast hfree
  simpa using List.countP_eq_zero.mp hzero hold hmem

theorem PoolInv.claim (h : PoolInv s) (hk : k < IPU4_ISYS_MAX_STREAMS) (hfree : s.pool.refCount k = 0)
    (hnew : ∀ j, s.pool.refCount j ≠ 0 → ¬ (s.pool.vc j = vc ∧ s.pool.asd j = asd)) :
    PoolInv ⟨s.pool.claim k vc asd, ⟨k, some (vc, asd)⟩ :: s.holds⟩ := by
  have hself : (s.pool.claim k vc asd).vc k = vc ∧ (s.pool.claim k vc asd).asd k = asd := by
    simp [Pool.claim]
  have hother : ∀ j, j ≠ k → (s.pool.claim k vc asd).vc j = s.pool.vc j ∧
      (s.pool.claim k vc asd).asd j = s.pool.asd j := by
    intro j hj
    simp [Pool.claim, hj]
  refine ⟨h.count_cons rfl, ?_, ?_, ?_⟩
  · simpa using ⟨hk, h.slots⟩
  · rintro hold hmem vc' asd' hp
    rcases List.mem_cons.mp hmem with rfl | hmem
    · simp only [Option.some.injEq, Prod.mk.injEq] at hp
      exact ⟨hself.1.trans hp.1, hself.2.trans hp.2⟩
    · obtain ⟨hv, ha⟩ := hother hold.slot (h.slot_ne hfree hmem)
      obtain ⟨hv', ha'⟩ := h.pair hold hmem vc' asd' hp
      exact ⟨hv.trans hv', ha.trans ha'⟩
  · have hpos : ∀ j, j ≠ k → (s.pool.claim k vc asd).refCount j ≠ 0 → s.pool.refCount j ≠ 0 := by
      intro j hj
      have : (s.pool.claim k vc asd).refCount j = s.pool.refCount j := by
        rw [show (s.pool.claim k vc asd).refCount j = (s.pool.addRef k).refCount j from rfl,
          addRef_refCount, if_neg (Ne.symm hj), Int.add_zero]
      rw [this]
      exact id
    -- no other held slot has the new pair
    have hsep : ∀ j, j ≠ k → (s.pool.claim k vc asd).refCount j ≠ 0 →
        ¬ ((s.pool.claim k vc asd).vc j = vc ∧ (s.pool.claim k vc asd).asd j = asd) := by
      intro j hj href
      rw [(hother j hj).1, (hother j hj).2]
      exact hnew j (hpos j hj href)
    intro i j hi hj hvc hasd
    by_cases hik : i = k
    · by_cases hjk : j = k
      · rw [hik, hjk]
      · rw [hik, hself.1] at hvc
        rw [hik, hself.2] at hasd
        exact absurd ⟨hvc.symm, hasd.symm⟩ (hsep j hjk hj)
    · by_cases hjk : j = k
      · rw [hjk, hself.1] at hvc
        rw [hjk, hself.2] at hasd
        exact absurd ⟨hvc, hasd⟩ (hsep i hik hi)
      · rw [(hother i hik).1, (hother j hjk).1] at hvc
        rw [(hother i hik).2, (hother j hjk).2] at hasd
        exact h.distinct i j (hpos i hik hi) (hpos j hjk hj) hvc hasd

theorem PoolInv.put (h : PoolInv s) (hmem : hold ∈ s.holds) :
    PoolInv ⟨s.pool.putStream hold.slot, s.holds.erase hold⟩ := by
  have hperm := List.perm_cons_erase hmem
  have hcount : ∀ k, s.holders k = (PoolState.mk s.pool (s.holds.erase hold)).holders k +
      if hold.slot = k then 1 else 0 := by
    intro k
    rw [← holders_cons]
    exact hperm.countP_eq _
  have hpos : 0 < s.pool.refCount hold.slot := by
    rw [h.count, hcount, if_pos rfl]
    omega
  have hput : ∀ k, (s.pool.putStream hold.slot).refCount k =
      (PoolState.mk s.pool (s.holds.erase hold)).holders k := by
    intro k
    have hk := h.count k
    rw [hcount k] at hk
    unfold Pool.putStream
    rw [if_pos hpos]
    by_cases heq : hold.slot = k
    · subst heq
      simp only [Function.update_self, if_true] at hk ⊢
      omega
    · simpa [heq, Ne.symm heq] using hk
  have hle : ∀ k, (s.pool.putStream hold.slot).refCount k ≠ 0 → s.pool.refCount k ≠ 0 := by
    intro k
    rw [hput, h.count, hcount]
    omega
  have hvc : (s.pool.putStream hold.slot).vc = s.pool.vc ∧
      (s.pool.putStream hold.slot).asd = s.pool.asd := by
    unfold Pool.putStream
    split <;> exact ⟨rfl, rfl⟩
  refine ⟨hput, fun g hg => h.slots g (List.mem_of_mem_erase hg), fun g hg => ?_, fun i j hi hj => ?_⟩
  · rw [hvc.1, hvc.2]
    exact h.pair g (List.mem_of_mem_erase hg)
  · rw [hvc.1, hvc.2]
    exact h.distinct i j (hle i hi) (hle j hj)

theorem mem_slotIds : k ∈ slotIds ↔ k < IPU4_ISYS_MAX_STREAMS := List.mem_range

theorem getStream_cases (p : Pool) (vc asd : Nat) :
    (∃ k < IPU4_ISYS_MAX_STREAMS, (p.refCount k ≠ 0 ∧ p.vc k = vc ∧ p.asd k = asd) ∧
      p.getStream vc asd = (p.addRef k, some k)) ∨
    (∀ k < IPU4_ISYS_MAX_STREAMS, p.refCount k ≠ 0 → ¬ (p.vc k = vc ∧ p.asd k = asd)) ∧
      ((∃ k < IPU4_ISYS_MAX_STREAMS, p.refCount k = 0 ∧
          p.getStream vc asd = (p.claim k vc asd, some k)) ∨
        (∀ k < IPU4_ISYS_MAX_STREAMS, p.refCount k ≠ 0) ∧ p.getStream vc asd = (p, none)) := by
  unfold Pool.getStream
  split
  next k hk =>
    exact .inl ⟨k, mem_slotIds.mp (List.mem_of_find?_eq_some hk), by simpa using List.find?_some hk, rfl⟩
  next hnone =>
    refine .inr ⟨fun k hk href hpair => ?_, ?_⟩
    · have := List.find?_eq_none.mp hnone k (mem_slotIds.mpr hk)
      exact this (by simpa using ⟨href, hpair⟩)
    · split
      next k hk =>
        exact .inl ⟨k, mem_slotIds.mp (List.mem_of_find?_eq_some hk),
          by simpa using List.find?_some hk, rfl⟩
      next hnone' =>
        refine .inr ⟨fun k hk => ?_, rfl⟩
        simpa using List.find?_eq_none.mp hnone' k (mem_slotIds.mpr hk)

theorem queryByHandle_cases (p : Pool) (handle : Nat) :
    (∃ k < IPU4_ISYS_MAX_STREAMS, p.refCount k ≠ 0 ∧
      p.queryStreamByHandle handle = (p.addRef k, some k)) ∨
    p.queryStreamByHandle handle = (p, none) := by
  unfold Pool.queryStreamByHandle
  split
  · exact .inr rfl
  next hlt =>
    split
    next href => exact .inl ⟨handle, by omega, by omega, rfl⟩
    next => exact .inr rfl

theorem queryBySource_cases (p : Pool) (source : Int) (vc : Nat) :
    (∃ k < IPU4_ISYS_MAX_STREAMS, p.refCount k ≠ 0 ∧
      p.queryStreamBySource source vc = (p.addRef k, some k)) ∨
    p.queryStreamBySource source vc = (p, none) := by
  unfold Pool.queryStreamBySource
  split
  · exact .inr rfl
  split
  next k hk =>
    have hfound := List.find?_some hk
    simp only [decide_eq_true_eq] at hfound
    exact .inl ⟨k, mem_slotIds.mp (List.mem_of_find?_eq_some hk), hfound.1, rfl⟩
  next => exact .inr rfl

theorem PoolInv.lt_of_held (h : PoolInv s) (href : s.pool.refCount k ≠ 0) :
    k < IPU4_ISYS_MAX_STREAMS := by
  rw [h.count] at href
  have hpos : 0 < s.holders k := by omega
  obtain ⟨g, hg, heq⟩ := List.countP_pos_iff.mp hpos
  simp only [decide_eq_true_eq] at heq
  exact heq ▸ h.slots g hg

theorem PoolInv.query (h : PoolInv s)
    (hr : (∃ k < IPU4_ISYS_MAX_STREAMS, s.pool.refCount k ≠ 0 ∧ r = (s.pool.addRef k, some k)) ∨
      r = (s.pool, none)) : PoolInv (held r none s.holds) := by
  rcases hr with ⟨k, hk, href, rfl⟩ | rfl
  · exact h.addRef hk href (by simp)
  · exact h

theorem PoolInv.step (h : PoolInv s) (he : poolStep s ev = some s') : PoolInv s' := by
  cases ev with
  | get vc asd =>
    obtain rfl := Option.some.inj he
    rcases getStream_cases s.pool vc asd with ⟨k, hk, ⟨href, hvc, hasd⟩, heq⟩ |
      ⟨hnew, ⟨k, hk, hfree, heq⟩ | ⟨-, heq⟩⟩
    · rw [heq]
      refine h.addRef hk href fun vc' asd' hp => ?_
      simp only [Option.some.injEq, Prod.mk.injEq] at hp
      exact ⟨hvc.trans hp.1, hasd.trans hp.2⟩
    · rw [heq]
      exact h.claim hk hfree fun j hj => hnew j (h.lt_of_held hj) hj
    · rw [heq]
      exact h
  | queryByHandle handle =>
    obtain rfl := Option.some.inj he
    exact h.query (queryByHandle_cases s.pool handle)
  | queryBySource source vc =>
    obtain rfl := Option.some.inj he
    exact h.query (queryBySource_cases s.pool source vc)
  | put hold =>
    simp only [poolStep] at he
    split at he <;> cases he
    next hmem => exact h.put hmem
  | setSource k source =>
    obtain rfl := Option.some.inj he
    exact ⟨h.count, h.slots, h.pair, h.distinct⟩

-- ---------------------------------------------------------------------------
-- Runs
-- ---------------------------------------------------------------------------

theorem PoolInv.pair_kept (h : PoolInv s) (he : poolStep s ev = some s') (hk : s.holders k ≠ 0) :
    s'.pool.vc k = s.pool.vc k ∧ s'.pool.asd k = s.pool.asd k := by
  have href : s.pool.refCount k ≠ 0 := by
    rw [h.count]
    omega
  have hquery : ∀ r, ((∃ k < IPU4_ISYS_MAX_STREAMS, s.pool.refCount k ≠ 0 ∧
      r = (s.pool.addRef k, some k)) ∨ r = (s.pool, none)) →
      (held r none s.holds).pool.vc k = s.pool.vc k ∧
        (held r none s.holds).pool.asd k = s.pool.asd k := by
    rintro r (⟨k, -, -, rfl⟩ | rfl) <;> exact ⟨rfl, rfl⟩
  cases ev with
  | get vc asd =>
    obtain rfl := Option.some.inj he
    rcases getStream_cases s.pool vc asd with ⟨j, -, -, heq⟩ | ⟨-, ⟨j, -, hfree, heq⟩ | ⟨-, heq⟩⟩
    · rw [heq]
      exact ⟨rfl, rfl⟩
    · rw [heq]
      have hne : k ≠ j := by
        rintro rfl
        exact href hfree
      simp [held, Pool.claim, hne]
    · rw [heq]
      exact ⟨rfl, rfl⟩
  | queryByHandle handle =>
    obtain rfl := Option.some.inj he
    exact hquery _ (queryByHandle_cases s.pool handle)
  | queryBySource source vc =>
    obtain rfl := Option.some.inj he
    exact hquery _ (queryBySource_cases s.pool source vc)
  | put hold =>
    simp only [poolStep] at he
    split at he <;> cases he
    unfold Pool.putStream
    split <;> exact ⟨rfl, rfl⟩
  | setSource j source =>
    obtain rfl := Option.some.inj he
    exact ⟨rfl, rfl⟩

/-- In every state of every run: a slot's count is the number of its holders, nodes
hold the same slot exactly if they have the same pair, the pair of a held slot
stays as it is, and only if all slots are held with other pairs does a node get
none. -/
theorem stream_slot_pool (s : PoolState) (hr : Reachable PoolInit (Enabled poolStep) s) :
    (∀ k, s.pool.refCount k = s.holders k ∧ 0 ≤ s.pool.refCount k) ∧
    (∀ g ∈ s.holds, ∀ h ∈ s.holds, ∀ p q, g.pair = some p → h.pair = some q →
      (p = q ↔ g.slot = h.slot)) ∧
    (∀ ev s', poolStep s ev = some s' → ∀ k, s.holders k ≠ 0 →
      s'.pool.vc k = s.pool.vc k ∧ s'.pool.asd k = s.pool.asd k) ∧
    (∀ vc asd, (s.pool.getStream vc asd).2 = none → ∀ k < IPU4_ISYS_MAX_STREAMS,
      s.holders k ≠ 0 ∧ (s.pool.vc k, s.pool.asd k) ≠ (vc, asd)) := by
  have hinv : PoolInv s := hr.invariant (fun _ => PoolInv.init) fun _ _ _ h he => h.step he
  refine ⟨fun k => ⟨hinv.count k, hinv.refCount_nonneg k⟩, ?_, fun ev s' he k => hinv.pair_kept he, ?_⟩
  · rintro g hg h hh ⟨vc, asd⟩ ⟨vc', asd'⟩ hp hq
    obtain ⟨hv, ha⟩ := hinv.pair g hg vc asd hp
    obtain ⟨hv', ha'⟩ := hinv.pair h hh vc' asd' hq
    have href : ∀ x ∈ s.holds, s.pool.refCount x.slot ≠ 0 := fun x hx hfree =>
      hinv.slot_ne hfree hx rfl
    constructor
    · intro heq
      simp only [Prod.mk.injEq] at heq
      exact hinv.distinct _ _ (href g hg) (href h hh) (by rw [hv, hv', heq.1]) (by rw [ha, ha', heq.2])
    · intro heq
      rw [← hv, ← ha, ← hv', ← ha', heq]
  · intro vc asd hnone k hk
    rcases getStream_cases s.pool vc asd with ⟨j, -, -, heq⟩ | ⟨hnew, ⟨j, -, -, heq⟩ | ⟨hall, -⟩⟩
    · rw [heq] at hnone
      cases hnone
    · rw [heq] at hnone
      cases hnone
    · have href := hall k hk
      refine ⟨?_, ?_⟩
      · rw [hinv.count] at href
        omega
      · simpa using hnew k hk href

/-- Two nodes on one channel, one of which leaves while the handler holds the slot. -/
theorem stream_slot_pool_two_nodes :
    ∃ s : PoolState, s.holds.length = 2 ∧ s.pool.refCount 0 = s.holders 0 := by
  refine ⟨_, ?_, ((stream_slot_pool _ (Runs.reachable_of_replay
    (s := ⟨⟨fun _ => 0, fun _ => 0, fun _ => 0, fun _ => 0⟩, []⟩) (.init ⟨fun _ => rfl, rfl⟩)
    [.get 1 2, .get 1 2, .queryByHandle 0, .put ⟨0, some (1, 2)⟩] rfl)).1 0).1⟩
  decide

end Ipu4.Capture
