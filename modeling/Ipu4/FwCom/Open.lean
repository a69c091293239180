import Ipu4.FwCom.IsysCfg
import Ipu4.Lib.Holding
import Ipu4.Lib.Errno

/-!
# Opening the firmware

`ipu6_fw_isys_init` configures, prepares, opens and waits; what the allocations and
the polls answer is an argument. Whatever happens, each context is freed once. But
the outcome of the configuration is not looked at, and without it the firmware is
opened with no queues.
-/

namespace Ipu4.FwCom

open Holding (Move Moves)

/-- The two allocations of the `n`-th context. -/
inductive Owned where
  | ctx (n : Nat)
  | dma (n : Nat)
  deriving DecidableEq, Repr

/-- `isys->fwcom`, with its number, and the number of the next context. -/
structure IsysFw where
  fwcom : Option (Nat × FwComContext)
  contexts : Nat

def heldBy : Option (Nat × FwComContext) → List Owned
  | none => []
  | some (n, _) => [.ctx n, .dma n]

/-- What an `ipu6_fw_isys_*` function leaves. -/
structure Done where
  state : IsysFw
  ret : Int
  moves : List (Move Owned)

/-- What `ipu6_fw_isys_init` depends on: its allocations, `cell_ready` at the opening,
`ipu6_fw_com_ready` at each poll and, when it closes again, `cell_ready` at each poll. -/
structure InitEnv where
  cfg : CfgEnv
  ctx : Bool
  dma : Option (Nat × Nat)
  cellReady : Bool
  ready : Nat → Bool
  closeReady : Nat → Bool

/-- `IPU6_ISYS_OPEN_RETRY` and `IPU6_ISYS_CLOSE_RETRY`. -/
def openRetry : Nat := 2000
def closeRetry : Nat := 2000

-- ---------------------------------------------------------------------------
-- The context
-- ---------------------------------------------------------------------------

/-- `ipu6_fw_com_prepare`. -/
def fwComPrepare (env : InitEnv) (fwcom : FwComCfg) (n : Nat) :
    Option (Nat × FwComContext) × List (Move Owned) :=
  if !env.ctx then (none, [])
  else
    match env.dma with
    | none => (none, [.get (.ctx n), .put (.ctx n)])
    | some (dmaBuffer, dmaAddr) =>
      (some (n, fwcom.toComCfg.prepare dmaBuffer dmaAddr), [.get (.ctx n), .get (.dma n)])

/-- `ipu6_fw_com_release`. -/
def fwComRelease (cellReady force : Bool) (n : Nat) : Int × List (Move Owned) :=
  if !force && !cellReady then (-EBUSY, [])
  else (0, [.put (.dma n), .put (.ctx n)])

/-- The tries of `ipu6_fw_isys_close`, of which `i` have failed. -/
def releaseLoop (cellReady : Nat → Bool) (n : Nat) : Nat → Nat → Int × List (Move Owned)
  | 0, _ => (-EBUSY, [])
  | retry + 1, i =>
    let (ret, moves) := fwComRelease (cellReady i) false n
    if ret = 0 then (ret, moves) else releaseLoop cellReady n retry (i + 1)

/-- `ipu6_fw_isys_close` of a context; a failed `ipu6_fw_com_close` changes nothing. -/
def fwIsysClose (cellReady : Nat → Bool) (fwcom : Nat × FwComContext) (contexts : Nat) : Done :=
  let (ret, moves) := releaseLoop cellReady fwcom.1 closeRetry 0
  if ret = 0 then ⟨⟨none, contexts⟩, ret, moves⟩ else ⟨⟨some fwcom, contexts⟩, ret, moves⟩

/-- The loop of `ipu6_fw_isys_init`, of which `i` polls have failed. -/
def waitReady (ready : Nat → Bool) : Nat → Nat → Bool
  | 0, _ => false
  | retry + 1, i => ready i || waitReady ready retry (i + 1)

/-- `ipu6_fw_isys_init`, with no context before. -/
def fwIsysInit (ipdata : IsysInternalPdata) (env : InitEnv) (contexts numStreams : Nat) : Done :=
  let fwcom := (isysFwcomCfgInit ipdata env.cfg .zero numStreams).1
  let prepared := fwComPrepare env fwcom contexts
  match prepared.1 with
  | none => ⟨⟨none, contexts + 1⟩, - EIO, prepared.2⟩
  | some ctx =>
    -- `ipu6_fw_com_open`
    if !env.cellReady then ⟨⟨some ctx, contexts + 1⟩, - EIO, prepared.2⟩
    else if waitReady env.ready openRetry 0 then ⟨⟨some ctx, contexts + 1⟩, 0, prepared.2⟩
    else
      let closed := fwIsysClose env.closeReady ctx (contexts + 1)
      ⟨closed.state, - EIO, prepared.2 ++ closed.moves⟩

/-- `ipu6_fw_isys_open`; an old context is released by force. -/
def fwIsysOpen (ipdata : IsysInternalPdata) (env : InitEnv) (s : IsysFw) : Done :=
  let moves := match s.fwcom with
    | none => []
    | some ctx => (fwComRelease false true ctx.1).2
  let init := fwIsysInit ipdata env s.contexts ipdata.numParallelStreams
  ⟨init.state, init.ret, moves ++ init.moves⟩

-- ---------------------------------------------------------------------------
-- Every context is freed once
-- ---------------------------------------------------------------------------

variable {ipdata : IsysInternalPdata} {env : InitEnv}

theorem fwComPrepare_moves (env : InitEnv) (fwcom : FwComCfg) (n : Nat) :
    Moves [] (fwComPrepare env fwcom n).2 (heldBy (fwComPrepare env fwcom n).1) := by
  unfold fwComPrepare
  split
  · exact .nil (.refl _)
  · cases env.dma with
    | none => exact .get _ (.put (.refl _) fun l hl => .nil hl)
    | some dma => exact .get _ (.get _ (.nil (.swap ..)))

theorem release_moves (n : Nat) : Moves [Owned.ctx n, .dma n] [.put (.dma n), .put (.ctx n)] [] :=
  Moves.puts [Owned.dma n, .ctx n] (.swap ..)

theorem releaseLoop_cases (cellReady : Nat → Bool) (n retry i : Nat) :
    releaseLoop cellReady n retry i = (-EBUSY, []) ∨
      releaseLoop cellReady n retry i = (0, [.put (.dma n), .put (.ctx n)]) := by
  induction retry generalizing i with
  | zero => exact .inl rfl
  | succ retry ih =>
    unfold releaseLoop
    cases hready : cellReady i with
    | false => exact ih (i + 1)
    | true => exact .inr rfl

theorem fwIsysClose_moves (cellReady : Nat → Bool) (fwcom : Nat × FwComContext) (contexts : Nat) :
    Moves (heldBy (some fwcom)) (fwIsysClose cellReady fwcom contexts).moves
      (heldBy (fwIsysClose cellReady fwcom contexts).state.fwcom) := by
  unfold fwIsysClose
  rcases releaseLoop_cases cellReady fwcom.1 closeRetry 0 with hloop | hloop
  · rw [hloop]
    exact .nil (.refl _)
  · rw [hloop]
    exact release_moves fwcom.1

theorem fwIsysInit_moves (ipdata : IsysInternalPdata) (env : InitEnv) (contexts numStreams : Nat) :
    Moves [] (fwIsysInit ipdata env contexts numStreams).moves
      (heldBy (fwIsysInit ipdata env contexts numStreams).state.fwcom) := by
  have hprepare := fwComPrepare_moves env (isysFwcomCfgInit ipdata env.cfg .zero numStreams).1 contexts
  simp only [fwIsysInit]
  cases hctx : (fwComPrepare env (isysFwcomCfgInit ipdata env.cfg .zero numStreams).1 contexts).1 with
  | none =>
    rw [hctx] at hprepare
    exact hprepare
  | some ctx =>
    rw [hctx] at hprepare
    dsimp only
    split
    · exact hprepare
    · split
      · exact hprepare
      · exact hprepare.trans (fwIsysClose_moves ..)

theorem fwIsysOpen_moves (ipdata : IsysInternalPdata) (env : InitEnv) (s : IsysFw) :
    Moves (heldBy s.fwcom) (fwIsysOpen ipdata env s).moves
      (heldBy (fwIsysOpen ipdata env s).state.fwcom) := by
  have hinit := fwIsysInit_moves ipdata env s.contexts ipdata.numParallelStreams
  unfold fwIsysOpen
  cases s.fwcom with
  | none => exact hinit
  | some ctx => exact (release_moves ctx.1).trans hinit

-- ---------------------------------------------------------------------------
-- Queues
-- ---------------------------------------------------------------------------

def SysQueue.Initialised (q : SysQueue) : Prop := 0 < q.size ∧ 0 < q.tokenSize

/-- The queues that `ipu6_fw_isys_complex_cmd` and `isys_isr_one` use. -/
structure FwComContext.HasQueues (ctx : FwComContext) : Prop where
  send : ∀ stream < 8, ∃ q, ctx.inputQueues[2 + stream]? = some q ∧ q.Initialised
  recv : ∃ q, ctx.outputQueues[1]? = some q ∧ q.Initialised

theorem isysCfg_hasQueues (dmaBuffer dmaAddr : Nat) : (isysCfg.prepare dmaBuffer dmaAddr).HasQueues := by
  obtain ⟨hin, hout⟩ := isysCfg_fits.queues dmaBuffer dmaAddr
  constructor
  · intro stream hstream
    rw [hin]
    exact ⟨_, prepare_msgSendQueue dmaBuffer dmaAddr hstream, Nat.succ_pos _, Nat.succ_pos _⟩
  · rw [hout]
    exact ⟨_, prepare_msgRecvQueue dmaBuffer dmaAddr, Nat.succ_pos _, Nat.succ_pos _⟩

theorem zero_not_hasQueues (dmaBuffer dmaAddr : Nat) :
    ¬ (FwComCfg.zero.toComCfg.prepare dmaBuffer dmaAddr).HasQueues := by
  intro h
  obtain ⟨q, hq, -⟩ := h.recv
  cases hq

theorem waitReady_eq_false : waitReady ready retry i = false ↔ ∀ j < retry, ready (i + j) = false := by
  induction retry generalizing i with
  | zero => simp [waitReady]
  | succ retry ih =>
    rw [waitReady, Bool.or_eq_false_iff, ih]
    constructor
    · rintro ⟨hfirst, hrest⟩ j hj
      cases j with
      | zero => exact hfirst
      | succ j =>
        rw [Nat.add_comm j 1, ← Nat.add_assoc]
        exact hrest j (Nat.lt_of_succ_lt_succ hj)
    · intro h
      refine ⟨h 0 (Nat.succ_pos _), fun j hj => ?_⟩
      rw [Nat.add_assoc, Nat.add_comm 1 j]
      exact h (j + 1) (Nat.succ_lt_succ hj)

/-- The call fails after all. -/
def InitEnv.Fails (env : InitEnv) : Prop :=
  env.ctx = false ∨ env.dma = none ∨ env.cellReady = false ∨ ∀ i < openRetry, env.ready i = false

theorem waitReady_of_not_fails (h : ¬ env.Fails) : waitReady env.ready openRetry 0 = true := by
  cases hwait : waitReady env.ready openRetry 0 with
  | true => rfl
  | false =>
    refine absurd (.inr (.inr (.inr fun i hi => ?_))) h
    have hpoll := waitReady_eq_false.mp hwait i hi
    rwa [Nat.zero_add] at hpoll

theorem fwIsysInit_of_not_fails (contexts numStreams : Nat) (h : ¬ env.Fails) :
    (fwIsysInit ipdata env contexts numStreams).ret = 0 ∧ ∃ dmaBuffer dmaAddr,
      (fwIsysInit ipdata env contexts numStreams).state.fwcom = some (contexts,
        (isysFwcomCfgInit ipdata env.cfg .zero numStreams).1.toComCfg.prepare dmaBuffer dmaAddr) := by
  have hwait := waitReady_of_not_fails h
  simp only [InitEnv.Fails, not_or, Bool.not_eq_false] at h
  obtain ⟨hctx, hdma, hcell, -⟩ := h
  obtain ⟨⟨dmaBuffer, dmaAddr⟩, hdma⟩ := Option.ne_none_iff_exists'.mp hdma
  simp only [fwIsysInit, fwComPrepare, hctx, hdma, hcell, hwait]
  exact ⟨rfl, dmaBuffer, dmaAddr, rfl⟩

theorem fwComPrepare_failed (fwcom : FwComCfg) (n : Nat) (h : env.ctx = false ∨ env.dma = none) :
    (fwComPrepare env fwcom n).1 = none := by
  unfold fwComPrepare
  split
  · rfl
  · rename_i hctx
    rcases h with h | h
    · simp [h] at hctx
    · rw [h]

theorem eio_ne : - EIO ≠ 0 := by decide

theorem fwIsysInit_of_fails (contexts numStreams : Nat) (h : env.Fails) :
    (fwIsysInit ipdata env contexts numStreams).ret ≠ 0 := by
  simp only [fwIsysInit]
  rcases h with hctx | hdma | hcell | hready
  · rw [fwComPrepare_failed _ _ (.inl hctx)]
    exact eio_ne
  · rw [fwComPrepare_failed _ _ (.inr hdma)]
    exact eio_ne
  · cases (fwComPrepare env (isysFwcomCfgInit ipdata env.cfg .zero numStreams).1 contexts).1 with
    | none => exact eio_ne
    | some ctx =>
      dsimp only
      rw [if_pos (by rw [hcell]; rfl)]
      exact eio_ne
  · have hwait : waitReady env.ready openRetry 0 = false :=
      waitReady_eq_false.mpr fun j hj => by rw [Nat.zero_add, hready j hj]
    cases (fwComPrepare env (isysFwcomCfgInit ipdata env.cfg .zero numStreams).1 contexts).1 with
    | none => exact eio_ne
    | some ctx =>
      dsimp only
      split
      · exact eio_ne
      · rw [hwait]
        exact eio_ne

-- ---------------------------------------------------------------------------
-- A successful open
-- ---------------------------------------------------------------------------

/-- What is expected of `ipu6_fw_isys_init`. -/
structure InitEnv.Opens (env : InitEnv) (contexts : Nat) : Prop where
  queues : (fwIsysInit isysIpdata env contexts isysIpdata.numParallelStreams).ret = 0 →
    ∃ n ctx, (fwIsysInit isysIpdata env contexts isysIpdata.numParallelStreams).state.fwcom =
      some (n, ctx) ∧ ctx.HasQueues
  reopens : (fwIsysInit isysIpdata env contexts isysIpdata.numParallelStreams).ret ≠ 0 → ∀ env',
    let init := fwIsysInit isysIpdata env contexts isysIpdata.numParallelStreams
    let again := fwIsysOpen isysIpdata env' init.state
    Moves [] (init.moves ++ again.moves) (heldBy again.state.fwcom)

/-- The configuration must succeed, or the call fail for another reason. -/
theorem init_opens_iff (env : InitEnv) (contexts : Nat) :
    env.Opens contexts ↔ env.cfg.Ok ∨ env.Fails := by
  constructor
  · intro h
    by_contra hnot
    rw [not_or] at hnot
    obtain ⟨hcfg, hfails⟩ := hnot
    obtain ⟨hret, dmaBuffer, dmaAddr, hfwcom⟩ := fwIsysInit_of_not_fails contexts
      isysIpdata.numParallelStreams hfails
    obtain ⟨n, ctx, hctx, hqueues⟩ := h.queues hret
    rw [hfwcom, isysFwcomCfgInit_failed _ _ hcfg] at hctx
    obtain ⟨-, rfl⟩ := Prod.mk.inj (Option.some.inj hctx)
    exact zero_not_hasQueues dmaBuffer dmaAddr hqueues
  · intro h
    refine ⟨fun hret => ?_, fun _ env' => (fwIsysInit_moves ..).trans (fwIsysOpen_moves ..)⟩
    rcases h with hcfg | hfails
    · have hfails : ¬ env.Fails := fun hfails => fwIsysInit_of_fails _ _ hfails hret
      obtain ⟨-, dmaBuffer, dmaAddr, hfwcom⟩ := fwIsysInit_of_not_fails contexts
        isysIpdata.numParallelStreams hfails
      refine ⟨_, _, hfwcom, ?_⟩
      rw [isysFwcomCfgInit_ok _ hcfg]
      exact isysCfg_hasQueues dmaBuffer dmaAddr
    · exact absurd hret (fwIsysInit_of_fails _ _ hfails)

/-- The second allocation of the configuration fails, and nothing else. -/
def queuelessEnv : InitEnv where
  cfg := ⟨true, false, true⟩
  ctx := true
  dma := some (0x1000, 0x10000)
  cellReady := true
  ready := fun _ => true
  closeReady := fun _ => true

theorem opened_without_queues : ¬ ∀ env contexts, InitEnv.Opens env contexts := by
  intro h
  obtain ⟨n, ctx, hctx, hqueues⟩ := (h queuelessEnv 0).queues rfl
  obtain ⟨-, rfl⟩ := Prod.mk.inj (Option.some.inj hctx)
  exact zero_not_hasQueues 0x1000 0x10000 hqueues

end Ipu4.FwCom
