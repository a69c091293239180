import Ipu4.Buttress.Control
import Ipu4.Lib.Runs
import Ipu4.Mmu.Lifetime

/-!
# Runtime power of the input system

The bus powers the island through the buttress, and the callbacks of the input
system bring up its MMU and the time stamp counter. Each layer undoes its own part
when something fails. A power-down that times out is answered by the callback alone,
which brings the device up again while the island stays switched off; a resume that
fails in its second half leaves the MMU up.
-/

namespace Ipu4.Isys.Power

open Buttress (ButtressCtrl ipu4IsysButtressCtrl freqCtlVal pwrSts hhStatus readl readlPollTimeout
  BUTTRESS_REG_PWR_STATE BUTTRESS_FREQ_CTL_START BUTTRESS_PWR_STATE_HH_STATE_DONE
  BUTTRESS_PWR_STATE_HH_STATE_ERR BUTTRESS_TSC_SYNC_RESET_TRIAL_MAX)
open Mmu (Ipu6Mmu MmuHw TrashEnv ipu6MmuHwInit)
open Runs (visited forall_visited_iff)

-- ---------------------------------------------------------------------------
-- The buttress
-- ---------------------------------------------------------------------------

/-- The input system with its MMU, and the value last written to `freq_ctl`. -/
structure IsysDev where
  power : Bool
  needReset : Bool
  phyTermcalVal : Nat
  pmQos : Int
  mmu : Ipu6Mmu
  freqCtl : Nat

/-- `readl_poll_timeout` on PWR_STATE, with the values read until the time is up. -/
def pollTimeout (cond : Nat → Bool) (readings : List Nat) : Int :=
  if readings.any cond then 0 else -ETIMEDOUT

def powered (ctrl : ButtressCtrl) (on : Bool) (pwrState : Nat) : Bool :=
  pwrState &&& ctrl.pwrStsMask = pwrSts ctrl on

/-- What `ipu6_buttress_power` leaves and returns, after what it reads. -/
def powerIsland (ctrl : ButtressCtrl) (s : IsysDev) (on : Bool) (readings : List Nat) : IsysDev × Int :=
  ({ s with freqCtl := freqCtlVal ctrl on }, pollTimeout (powered ctrl on) readings)

/-- What PWR_STATE reads as in one trial of the sync: once, and then in the poll. -/
structure TscTrial where
  first : Nat
  readings : List Nat

def TscTrial.ret (t : TscTrial) : Int :=
  if hhStatus t.first = BUTTRESS_PWR_STATE_HH_STATE_ERR then -EINVAL
  else pollTimeout (fun val => hhStatus val = BUTTRESS_PWR_STATE_HH_STATE_DONE) t.readings

/-- What the sync returns that has `n` trials left, from the `i`-th on. -/
def tscTrials (trial : Nat → TscTrial) : Nat → Nat → Int
  | 0, _ => -ETIMEDOUT
  | n + 1, i => if (trial i).ret ≠ -ETIMEDOUT then (trial i).ret else tscTrials trial n (i + 1)

def tscSync (trial : Nat → TscTrial) : Int := tscTrials trial BUTTRESS_TSC_SYNC_RESET_TRIAL_MAX 0

-- ---------------------------------------------------------------------------
-- The programs of the buttress
-- ---------------------------------------------------------------------------

/-- What is read in PWR_STATE. -/
def pwrReading : Buttress.Event → Option Nat
  | ⟨.readl addr, val⟩ => if addr = BUTTRESS_REG_PWR_STATE then some val else none
  | _ => none

/-- What is written to the frequency register of an island. -/
def freqWritten (ctrl : ButtressCtrl) : Buttress.Event → Option Nat
  | ⟨.writel val addr, _⟩ => if addr = ctrl.freqCtl then some val else none
  | _ => none

section
variable {σ : Type} (M : Machine Buttress.Call.Ans σ) (x : σ)

theorem poll_recorded (cond : Nat → Bool) (polls : Nat) (t : List Nat) :
    Prog.Meets (Prog.recorder pwrReading) (Prog.poll (readl BUTTRESS_REG_PWR_STATE) cond polls) t fun r t' =>
      ∃ readings : List Nat, t' = t ++ readings ∧ r.1 = readings.any cond := by
  induction polls generalizing t with
  | zero =>
    simp only [Prog.poll, Prog.meets_bind, Prog.meets_ite, Buttress.meets_readl]
    refine fun v => ⟨trivial, fun hv => ⟨[v], rfl, by simp [hv]⟩, fun hv w => ⟨trivial, [v, w], ?_, by simp [hv]⟩⟩
    simp [pwrReading]
  | succ polls ih =>
    simp only [Prog.poll, Prog.meets_bind, Prog.meets_ite, Buttress.meets_readl]
    refine fun v => ⟨trivial, fun hv => ⟨[v], rfl, by simp [hv]⟩, fun hv => (ih _).imp ?_⟩
    rintro ⟨ok, w⟩ _ ⟨readings, rfl, hok⟩
    exact ⟨v :: readings, by simp [pwrReading], by simpa [hv] using hok⟩

theorem readlPollTimeout_recorded (cond : Nat → Bool) (polls : Nat) (t : List Nat) :
    Prog.Meets (Prog.recorder pwrReading) (readlPollTimeout polls BUTTRESS_REG_PWR_STATE cond) t fun r t' =>
      ∃ readings, t' = t ++ readings ∧ r.1 = pollTimeout cond readings := by
  simp only [readlPollTimeout, Prog.meets_bind]
  refine (poll_recorded cond polls t).imp ?_
  rintro ⟨ok, v⟩ _ ⟨readings, rfl, rfl⟩
  exact ⟨readings, rfl, rfl⟩

/-- On every machine the program writes the frequency register once, and leaves and returns
what follows from what it has read. -/
theorem buttressPower_run (ctrl : ButtressCtrl) (s : IsysDev) (on : Bool) (polls : Nat) :
    let p := Buttress.ipu6ButtressPower polls (some ctrl) on
    (p.log M x).filterMap (freqWritten ctrl) =
        [(powerIsland ctrl s on ((p.log M x).filterMap pwrReading)).1.freqCtl] ∧
      (p.run M x).1 = (powerIsland ctrl s on ((p.log M x).filterMap pwrReading)).2 := by
  constructor
  · have hwrites : Prog.Meets (Prog.recorder (freqWritten ctrl)) (Buttress.ipu6ButtressPower polls (some ctrl) on)
        [] fun _ t => t = [freqCtlVal ctrl on] := by
      simp only [Buttress.ipu6ButtressPower, Prog.meets_bind, Buttress.meets_lock, Buttress.meets_writel,
        Buttress.meets_unlock]
      refine ⟨trivial, trivial, ?_⟩
      refine (Buttress.readlPollTimeout_meets (I := fun t => t = [freqCtlVal ctrl on]) (R := fun _ _ => True)
        polls _ ?_ ?_).imp ?_
      · rintro _ rfl val
        exact ⟨trivial, rfl, trivial⟩
      · simp [freqWritten]
      · rintro r _ ⟨rfl, -, -⟩
        exact ⟨trivial, rfl⟩
    exact hwrites.recorded M x
  · have hreads : Prog.Meets (Prog.recorder pwrReading) (Buttress.ipu6ButtressPower polls (some ctrl) on) []
        fun ret t => ret = pollTimeout (powered ctrl on) t := by
      simp only [Buttress.ipu6ButtressPower, Prog.meets_bind, Buttress.meets_lock, Buttress.meets_writel,
        Buttress.meets_unlock]
      refine ⟨trivial, trivial, (readlPollTimeout_recorded _ polls _).imp ?_⟩
      rintro r _ ⟨readings, rfl, hret⟩
      have hcond : powered ctrl on = fun val => decide (val &&& ctrl.pwrStsMask = pwrSts ctrl on) := rfl
      refine ⟨trivial, ?_⟩
      rw [hcond]
      simpa [pwrReading] using hret
    exact hreads.recorded M x

def TscTrial.reads (t : TscTrial) : List Nat := t.first :: t.readings

theorem tscRequest_recorded (polls : Nat) (t : List Nat) :
    Prog.Meets (Prog.recorder pwrReading) (Buttress.ipu6ButtressSendTscRequest polls) t fun ret t' =>
      ∃ trial : TscTrial, t' = t ++ trial.reads ∧ ret = trial.ret := by
  simp only [Buttress.ipu6ButtressSendTscRequest, Prog.meets_bind, Prog.meets_ite, Buttress.meets_readl,
    Buttress.meets_writel]
  refine ⟨trivial, fun first => ⟨trivial, fun herr => ⟨⟨first, []⟩, ?_, ?_⟩, fun herr => ?_⟩⟩
  · simp [pwrReading, TscTrial.reads]
  · exact (if_pos herr).symm
  · refine (readlPollTimeout_recorded _ polls _).imp ?_
    rintro r _ ⟨readings, rfl, hret⟩
    exact ⟨⟨first, readings⟩, by simp [pwrReading, TscTrial.reads], hret.trans (if_neg herr).symm⟩

theorem tscTrials_succ (trial : Nat → TscTrial) (n i : Nat) :
    tscTrials trial n (i + 1) = tscTrials (fun j => trial (j + 1)) n i := by
  induction n generalizing i with
  | zero => rfl
  | succ n ih => simp only [tscTrials, ih]

/-- One trial more, before the others. -/
def TscTrial.before (t : TscTrial) (ts : Nat → TscTrial) : Nat → TscTrial
  | 0 => t
  | i + 1 => ts i

theorem tscSyncLoop_recorded (polls : Nat → Nat) (n : Nat) (t : List Nat) :
    Prog.Meets (Prog.recorder pwrReading) (Buttress.tscSyncLoop polls n) t fun ret t' =>
      ∃ trial : Nat → TscTrial, ∃ k ≤ n,
        t' = t ++ (List.range k).flatMap (fun i => (trial i).reads) ∧ ret = tscTrials trial n 0 := by
  induction n generalizing t with
  | zero => exact ⟨fun _ => ⟨0, []⟩, 0, Nat.le_refl 0, by simp, rfl⟩
  | succ n ih =>
    simp only [Buttress.tscSyncLoop, Prog.meets_bind, Prog.meets_ite, Buttress.meets_readl,
      Buttress.meets_writel]
    refine (tscRequest_recorded (polls n) t).imp ?_
    rintro ret _ ⟨trial, rfl, rfl⟩
    refine ⟨fun hne => ⟨fun _ => trial, 1, by omega, by simp, (if_pos hne).symm⟩, fun heq val => ?_⟩
    refine ⟨trivial, trivial, trivial, (ih _).imp ?_⟩
    rintro ret _ ⟨trials, k, hk, rfl, rfl⟩
    refine ⟨trial.before trials, k + 1, by omega, ?_, ?_⟩
    · have hne : Buttress.BUTTRESS_REG_TSW_CTL ≠ BUTTRESS_REG_PWR_STATE := by decide
      simp [TscTrial.before, pwrReading, List.range_succ_eq_map, List.flatMap_map, hne]
    · rw [tscTrials, TscTrial.before, if_neg heq, tscTrials_succ]
      rfl

theorem buttressTscSync_run (polls : Nat → Nat) :
    let p := Buttress.ipu6ButtressStartTscSync polls
    ∃ trial : Nat → TscTrial, ∃ k ≤ BUTTRESS_TSC_SYNC_RESET_TRIAL_MAX,
      (p.log M x).filterMap pwrReading = (List.range k).flatMap (fun i => (trial i).reads) ∧
        (p.run M x).1 = tscSync trial :=
  (tscSyncLoop_recorded polls BUTTRESS_TSC_SYNC_RESET_TRIAL_MAX []).recorded M x

end

-- ---------------------------------------------------------------------------
-- The callbacks of the input system
-- ---------------------------------------------------------------------------

def ISYS_PM_QOS_VALUE : Int := 300
def PM_QOS_DEFAULT_VALUE : Int := -1

/-- The outside of a resume: memory for the MMU, and the time stamp counter. -/
structure ResumeEnv where
  trash : TrashEnv
  tsc : Nat → TscTrial

def errno : Mmu.Errno → Int
  | .ENOMEM => -ENOMEM
  | .EINVAL => -EINVAL
  | .ENODEV => -ENODEV

section
variable (ctrl : ButtressCtrl) (mmuHw : List MmuHw)

def isysRuntimePmResume (s : IsysDev) (env : ResumeEnv) : IsysDev × Int :=
  match ipu6MmuHwInit s.mmu mmuHw env.trash with
  | (mmu, some err) => ({ s with mmu := mmu }, errno err)
  | (mmu, none) =>
    let s := { s with mmu := mmu, pmQos := ISYS_PM_QOS_VALUE }
    let ret := tscSync env.tsc
    if ret ≠ 0 then (s, ret) else ({ s with power := true }, 0)

/-- `ipu6_mmu_hw_cleanup` only takes the MMU out of use. -/
def isysRuntimePmSuspend (s : IsysDev) : IsysDev × Int :=
  ({ s with
    power := false
    needReset := false
    phyTermcalVal := 0
    pmQos := PM_QOS_DEFAULT_VALUE
    mmu := { s.mmu with ready := false } }, 0)

-- ---------------------------------------------------------------------------
-- The bus
-- ---------------------------------------------------------------------------

structure SuspendEnv where
  down : List Nat
  recovery : ResumeEnv

def busPmRuntimeSuspend (s : IsysDev) (env : SuspendEnv) : IsysDev × Int :=
  let (s, ret) := isysRuntimePmSuspend s
  if ret ≠ 0 then (s, ret)
  else
    let (s, ret) := powerIsland ctrl s false env.down
    if ret = 0 then (s, 0)
    else
      let (s, ret) := isysRuntimePmResume mmuHw s env.recovery
      if ret = 0 then (s, -EBUSY) else (s, - EIO)

structure BusResumeEnv where
  up : List Nat
  inner : ResumeEnv
  down : List Nat

def busPmRuntimeResume (s : IsysDev) (env : BusResumeEnv) : IsysDev × Int :=
  let (s, ret) := powerIsland ctrl s true env.up
  if ret ≠ 0 then (s, ret)
  else
    let (s, ret) := isysRuntimePmResume mmuHw s env.inner
    if ret = 0 then (s, 0)
    else ((powerIsland ctrl s false env.down).1, -EBUSY)

def ipu6BusResetDevice (s : IsysDev) (a : SuspendEnv) (b : BusResumeEnv) : IsysDev × Int :=
  let (s, ret) := busPmRuntimeSuspend ctrl mmuHw s a
  if ret < 0 then (s, ret) else busPmRuntimeResume ctrl mmuHw s b

inductive Ev
  | suspend (env : SuspendEnv)
  | resume (env : BusResumeEnv)
  | reset (a : SuspendEnv) (b : BusResumeEnv)

def step (s : IsysDev) : Ev → IsysDev
  | .suspend env => (busPmRuntimeSuspend ctrl mmuHw s env).1
  | .resume env => (busPmRuntimeResume ctrl mmuHw s env).1
  | .reset a b => (ipu6BusResetDevice ctrl mmuHw s a b).1

-- ---------------------------------------------------------------------------
-- Consistency
-- ---------------------------------------------------------------------------

/-- What is up is on a powered island. -/
def Consistent (s : IsysDev) : Prop := s.power = true ∨ s.mmu.ready = true → s.freqCtl.testBit 31

def Undone (s : IsysDev) (env : SuspendEnv) : Prop :=
  let (s', ret) := busPmRuntimeSuspend ctrl mmuHw s env
  ret ≠ 0 → s'.power = s.power ∧ s'.mmu.ready = s.mmu.ready ∧ s'.needReset = s.needReset ∧
    s'.freqCtl = s.freqCtl

def Meets (s : IsysDev) : Ev → Prop
  | .suspend env => Consistent (step ctrl mmuHw s (.suspend env)) ∧ Undone ctrl mmuHw s env
  | .resume env => Consistent (step ctrl mmuHw s (.resume env))
  | .reset a b => Consistent (step ctrl mmuHw s (.reset a b)) ∧ Undone ctrl mmuHw s a

/-- The island goes down; or it was down already, and the recovery does not even
bring up the MMU. -/
def SuspendOk (s : IsysDev) (env : SuspendEnv) : Prop :=
  pollTimeout (powered ctrl false) env.down = 0 ∨
    s.needReset = false ∧ s.freqCtl = 0 ∧
      (ipu6MmuHwInit { s.mmu with ready := false } mmuHw env.recovery.trash).2 ≠ none

/-- If the island comes up, so do the MMU and the counter; or the MMU does not, on a
device of which nothing was up. -/
def ResumeOk (mmu : Ipu6Mmu) (power : Bool) (env : BusResumeEnv) : Prop :=
  pollTimeout (powered ctrl true) env.up = 0 →
    match (ipu6MmuHwInit mmu mmuHw env.inner.trash).2 with
    | none => tscSync env.inner.tsc = 0
    | some _ => power = false ∧ mmu.ready = false

def Cond (s : IsysDev) : Ev → Prop
  | .suspend env => SuspendOk ctrl mmuHw s env
  | .resume env => ResumeOk ctrl mmuHw s.mmu s.power env
  | .reset a b => SuspendOk ctrl mmuHw s a ∧
    (pollTimeout (powered ctrl false) a.down = 0 →
      ResumeOk ctrl mmuHw { s.mmu with ready := false } false b)

-- ---------------------------------------------------------------------------
-- The layers
-- ---------------------------------------------------------------------------

theorem testBit_freqCtlVal : (freqCtlVal ctrl true).testBit 31 = true := by
  have hstart : BUTTRESS_FREQ_CTL_START.testBit 31 = true := by decide
  simp [freqCtlVal, hstart]

theorem trashBuffered_ready (r : Ipu6Mmu × Option Mmu.Errno) :
    (Mmu.trashBuffered r).1.ready = (r.2.isNone || r.1.ready) ∧ (Mmu.trashBuffered r).2 = r.2 := by
  obtain ⟨s, _ | err⟩ := r
  · exact ⟨rfl, rfl⟩
  · exact ⟨rfl, rfl⟩

theorem allocateTrashBuffer_ready (mmu : Ipu6Mmu) (env : TrashEnv) :
    (Mmu.allocateTrashBuffer mmu env).1.ready = mmu.ready := by
  unfold Mmu.allocateTrashBuffer
  cases env.allocIova with
  | none => rfl
  | some pfnLo =>
    dsimp only
    cases env.dmaMapPage with
    | none => rfl
    | some dma =>
      dsimp only
      generalize Mmu.trashLoop env.tables pfnLo dma Mmu.trashPages 0 mmu.info = r
      obtain ⟨info, _ | err⟩ := r <;> rfl

theorem mmuHwInit_ready (mmu : Ipu6Mmu) (env : TrashEnv) :
    (ipu6MmuHwInit mmu mmuHw env).1.ready =
      ((ipu6MmuHwInit mmu mmuHw env).2.isNone || mmu.ready) := by
  unfold ipu6MmuHwInit
  split
  · rfl
  cases mmu.trashPage with
  | some page => rfl
  | none =>
    cases env.allocPage with
    | none => rfl
    | some page =>
      have hready := allocateTrashBuffer_ready { mmu with trashPage := some page } env
      dsimp only
      rw [(trashBuffered_ready _).1, (trashBuffered_ready _).2, hready]

/-- How the callback ends, apart from what it leaves alone. -/
inductive Resumed (s : IsysDev) (env : ResumeEnv) : IsysDev × Int → Prop
  | mmuFails : (ipu6MmuHwInit s.mmu mmuHw env.trash).2 = some err → ret ≠ 0 →
    s'.power = s.power → s'.mmu.ready = s.mmu.ready → Resumed s env (s', ret)
  | tscFails : (ipu6MmuHwInit s.mmu mmuHw env.trash).2 = none →
    tscSync env.tsc ≠ 0 → ret ≠ 0 → s'.power = s.power → s'.mmu.ready = true →
    Resumed s env (s', ret)
  | up : (ipu6MmuHwInit s.mmu mmuHw env.trash).2 = none → tscSync env.tsc = 0 →
    s'.power = true → s'.mmu.ready = true → Resumed s env (s', 0)

theorem errno_ne_zero (err : Mmu.Errno) : errno err ≠ 0 := by
  cases err <;> decide

theorem resumed_isysRuntimePmResume (s : IsysDev) (env : ResumeEnv) :
    Resumed mmuHw s env (isysRuntimePmResume mmuHw s env) := by
  have hready := mmuHwInit_ready mmuHw s.mmu env.trash
  have hmmuFails := @Resumed.mmuFails mmuHw s env
  have htscFails := @Resumed.tscFails mmuHw s env
  have hup := @Resumed.up mmuHw s env
  unfold isysRuntimePmResume
  generalize ipu6MmuHwInit s.mmu mmuHw env.trash = r at hready hmmuFails htscFails hup
  obtain ⟨mmu, _ | err⟩ := r
  · dsimp only
    split
    next htsc => exact htscFails rfl htsc htsc rfl hready
    next htsc => exact hup rfl (not_not.mp htsc) rfl hready
  · exact hmmuFails rfl (errno_ne_zero err) rfl hready

theorem isysRuntimePmResume_keeps (s : IsysDev) (env : ResumeEnv) :
    (isysRuntimePmResume mmuHw s env).1.needReset = s.needReset ∧
      (isysRuntimePmResume mmuHw s env).1.freqCtl = s.freqCtl := by
  unfold isysRuntimePmResume
  generalize ipu6MmuHwInit s.mmu mmuHw env.trash = r
  obtain ⟨mmu, _ | err⟩ := r
  · dsimp only
    split <;> exact ⟨rfl, rfl⟩
  · exact ⟨rfl, rfl⟩

/-- The device once the callback has taken it down and the island is switched off. -/
def switchedOff (s : IsysDev) : IsysDev := { (isysRuntimePmSuspend s).1 with freqCtl := 0 }

theorem busPmRuntimeSuspend_down {env : SuspendEnv}
    (h : pollTimeout (powered ctrl false) env.down = 0) (s : IsysDev) :
    busPmRuntimeSuspend ctrl mmuHw s env = (switchedOff s, 0) := by
  unfold busPmRuntimeSuspend powerIsland
  simp only [h]
  rfl

theorem busPmRuntimeSuspend_recovers {env : SuspendEnv}
    (h : pollTimeout (powered ctrl false) env.down ≠ 0) (s : IsysDev) :
    (busPmRuntimeSuspend ctrl mmuHw s env).1 =
        (isysRuntimePmResume mmuHw (switchedOff s) env.recovery).1 ∧
      (busPmRuntimeSuspend ctrl mmuHw s env).2 < 0 := by
  have hoff : busPmRuntimeSuspend ctrl mmuHw s env =
      if (isysRuntimePmResume mmuHw (switchedOff s) env.recovery).2 = 0 then
        ((isysRuntimePmResume mmuHw (switchedOff s) env.recovery).1, -EBUSY)
      else ((isysRuntimePmResume mmuHw (switchedOff s) env.recovery).1, - EIO) := by
    unfold busPmRuntimeSuspend powerIsland
    simp only [h, if_false]
    rfl
  rw [hoff]
  split
  · exact ⟨rfl, (by decide : -EBUSY < 0)⟩
  · exact ⟨rfl, (by decide : - EIO < 0)⟩

-- ---------------------------------------------------------------------------
-- One call
-- ---------------------------------------------------------------------------

theorem consistent_switchedOff (s : IsysDev) : Consistent (switchedOff s) := by
  rintro (h | h) <;> cases h

theorem consistent_off (h : s.freqCtl = 0) :
    Consistent s ↔ s.power = false ∧ s.mmu.ready = false := by
  unfold Consistent
  cases s.power <;> cases s.mmu.ready <;> simp [h]

theorem recovered_iff {ret : Int} (hs : Consistent s) (hret : ret ≠ 0) {env : ResumeEnv}
    (hcase : Resumed mmuHw (switchedOff s) env (s', ret')) (hreset : s'.needReset = false)
    (hfreq : s'.freqCtl = 0) :
    (Consistent s' ∧ (ret ≠ 0 → s'.power = s.power ∧ s'.mmu.ready = s.mmu.ready ∧
        s'.needReset = s.needReset ∧ s'.freqCtl = s.freqCtl)) ↔
      s.needReset = false ∧ s.freqCtl = 0 ∧
        (ipu6MmuHwInit { s.mmu with ready := false } mmuHw env.trash).2 ≠ none := by
  rw [consistent_off hfreq, hreset, hfreq]
  cases hcase with
  | mmuFails hinit _ hpower hready =>
    have hnone : (ipu6MmuHwInit { s.mmu with ready := false } mmuHw env.trash).2 ≠ none := by
      intro hnone
      cases hinit.symm.trans hnone
    constructor
    · rintro ⟨-, hundone⟩
      obtain ⟨-, -, hreset, hfreq⟩ := hundone hret
      exact ⟨hreset.symm, hfreq.symm, hnone⟩
    · rintro ⟨hreset, hfreq, -⟩
      obtain ⟨hoff, hdown⟩ := (consistent_off hfreq).mp hs
      exact ⟨⟨hpower, hready⟩, fun _ =>
        ⟨hpower.trans hoff.symm, hready.trans hdown.symm, hreset.symm, hfreq.symm⟩⟩
  | tscFails hinit _ _ _ hready | up hinit _ _ hready =>
    constructor
    · rintro ⟨⟨-, hdown⟩, -⟩
      cases hready.symm.trans hdown
    · rintro ⟨-, -, hnone⟩
      exact absurd hinit hnone

theorem suspend_ok_iff (hs : Consistent s) (env : SuspendEnv) :
    Consistent (busPmRuntimeSuspend ctrl mmuHw s env).1 ∧ Undone ctrl mmuHw s env ↔
      SuspendOk ctrl mmuHw s env := by
  unfold Undone SuspendOk
  by_cases hdown : pollTimeout (powered ctrl false) env.down = 0
  · rw [busPmRuntimeSuspend_down ctrl mmuHw hdown]
    simp [hdown, consistent_switchedOff]
  · obtain ⟨hdev, hret⟩ := busPmRuntimeSuspend_recovers ctrl mmuHw hdown s
    have hkept := isysRuntimePmResume_keeps mmuHw (switchedOff s) env.recovery
    have hcase := resumed_isysRuntimePmResume mmuHw (switchedOff s) env.recovery
    generalize isysRuntimePmResume mmuHw (switchedOff s) env.recovery = r at hdev hcase hkept
    generalize busPmRuntimeSuspend ctrl mmuHw s env = r' at hdev hret
    obtain ⟨s', ret'⟩ := r
    obtain ⟨s'', ret⟩ := r'
    obtain rfl : s'' = s' := hdev
    have hne : ret ≠ 0 := Int.ne_of_lt hret
    simp only [hdown, false_or]
    exact recovered_iff mmuHw hs hne hcase hkept.1 hkept.2

theorem resume_ok_iff (s : IsysDev) (env : BusResumeEnv) :
    Consistent (busPmRuntimeResume ctrl mmuHw s env).1 ↔
      ResumeOk ctrl mmuHw s.mmu s.power env := by
  have hon := testBit_freqCtlVal ctrl
  unfold busPmRuntimeResume ResumeOk powerIsland
  dsimp only
  by_cases hup : pollTimeout (powered ctrl true) env.up = 0
  · have hcase := resumed_isysRuntimePmResume mmuHw { s with freqCtl := freqCtlVal ctrl true } env.inner
    have hkept := isysRuntimePmResume_keeps mmuHw { s with freqCtl := freqCtlVal ctrl true } env.inner
    simp only [hup, ne_eq, not_true_eq_false, if_false, forall_const]
    generalize isysRuntimePmResume mmuHw { s with freqCtl := freqCtlVal ctrl true } env.inner = r at hcase hkept
    cases hcase with
    | mmuFails hinit hret hpower hready =>
      dsimp only at hinit hpower hready ⊢
      rw [if_neg hret, hinit, consistent_off rfl]
      dsimp only
      rw [hpower, hready]
    | tscFails hinit htsc hret hpower hready =>
      dsimp only at hinit hpower hready ⊢
      rw [if_neg hret, hinit, consistent_off rfl]
      dsimp only
      simp [hready, htsc]
    | up hinit htsc hpower hready =>
      dsimp only at hinit hkept ⊢
      rw [if_pos rfl, hinit]
      simp [Consistent, hkept.2, hon, htsc]
  · simp [hup, Consistent, hon]

theorem reset_ok_iff (hs : Consistent s) (a : SuspendEnv) (b : BusResumeEnv) :
    Consistent (ipu6BusResetDevice ctrl mmuHw s a b).1 ∧ Undone ctrl mmuHw s a ↔
      SuspendOk ctrl mmuHw s a ∧
        (pollTimeout (powered ctrl false) a.down = 0 →
          ResumeOk ctrl mmuHw { s.mmu with ready := false } false b) := by
  unfold ipu6BusResetDevice
  by_cases hdown : pollTimeout (powered ctrl false) a.down = 0
  · have hok : SuspendOk ctrl mmuHw s a := .inl hdown
    have hundone : Undone ctrl mmuHw s a := ((suspend_ok_iff ctrl mmuHw hs a).mpr hok).2
    rw [busPmRuntimeSuspend_down ctrl mmuHw hdown]
    dsimp only
    rw [if_neg (by decide), resume_ok_iff]
    simp only [hundone, hok, hdown, and_true, true_and, forall_const]
    rfl
  · have hret := (busPmRuntimeSuspend_recovers ctrl mmuHw hdown s).2
    dsimp only
    rw [if_pos hret]
    simp only [hdown, false_implies, and_true]
    exact suspend_ok_iff ctrl mmuHw hs a

theorem meets_iff (hs : Consistent s) (e : Ev) : Meets ctrl mmuHw s e ↔ Cond ctrl mmuHw s e := by
  cases e with
  | suspend env => exact suspend_ok_iff ctrl mmuHw hs env
  | resume env => exact resume_ok_iff ctrl mmuHw s env
  | reset a b => exact reset_ok_iff ctrl mmuHw hs a b

theorem consistent_step (hs : Consistent s) (e : Ev) (h : Cond ctrl mmuHw s e) :
    Consistent (step ctrl mmuHw s e) := by
  have hmeets := (meets_iff ctrl mmuHw hs e).mpr h
  cases e with
  | suspend env => exact hmeets.1
  | resume env => exact hmeets
  | reset a b => exact hmeets.1

-- ---------------------------------------------------------------------------
-- Any sequence of calls
-- ---------------------------------------------------------------------------

/-- In a sequence of calls, power transitions are consistent exactly if each call
meets its condition. -/
theorem power_consistent_iff (hs : Consistent s) (evs : List Ev) :
    (∀ x ∈ visited (step ctrl mmuHw) s evs, Meets ctrl mmuHw x.1 x.2) ↔
      ∀ x ∈ visited (step ctrl mmuHw) s evs, Cond ctrl mmuHw x.1 x.2 :=
  forall_visited_iff hs (fun _ e hs => meets_iff ctrl mmuHw hs e) fun _ e hs =>
    consistent_step ctrl mmuHw hs e

end

/-- After the probe: the island is on and the MMU initialised. -/
def probed : IsysDev where
  power := false
  needReset := false
  phyTermcalVal := 0
  pmQos := PM_QOS_DEFAULT_VALUE
  mmu := { Mmu.plainMmu with trashPage := some 20 }
  freqCtl := freqCtlVal ipu4IsysButtressCtrl true

/-- The MMU needs no memory any more, and the counter syncs in the first trial. -/
def syncs : ResumeEnv where
  trash := ⟨none, none, none, fun _ => ⟨none, none⟩⟩
  tsc := fun _ => ⟨0, [2 <<< 12]⟩

/-- The island reads as ready. -/
def comesUp : BusResumeEnv := ⟨[0xa <<< 20], syncs, []⟩

/-- The island reads as idle. -/
def goesDown : SuspendEnv := ⟨[0], syncs⟩

/-- The island still reads as ready when the time is up. -/
def staysUp : SuspendEnv := ⟨[0xa <<< 20], syncs⟩

theorem consistent_probed : Consistent probed := fun _ => testBit_freqCtlVal _

theorem power_consistent_cycles :
    (visited (step ipu4IsysButtressCtrl []) probed
      [.resume comesUp, .suspend goesDown, .resume comesUp, .reset goesDown comesUp]).Forall
      fun x => Meets ipu4IsysButtressCtrl [] x.1 x.2 := by
  rw [List.forall_iff_forall_mem]
  refine (power_consistent_iff ipu4IsysButtressCtrl [] consistent_probed _).mpr ?_
  have hsync : tscSync syncs.tsc = 0 := by decide
  have hdown : pollTimeout (powered ipu4IsysButtressCtrl false) goesDown.down = 0 := by decide
  simp only [visited, List.forall_mem_cons, List.not_mem_nil, false_implies, implies_true, and_true]
  exact ⟨fun _ => hsync, .inl hdown, fun _ => hsync, .inl hdown, fun _ _ => hsync⟩

/-- A power-down that times out: the device is up again on an island switched off. -/
theorem recovery_unpowered :
    ¬ ∀ evs, ∀ x ∈ visited (step ipu4IsysButtressCtrl []) probed evs,
      Meets ipu4IsysButtressCtrl [] x.1 x.2 := by
  intro h
  have hmeets := h [.resume comesUp, .suspend staysUp]
    (step ipu4IsysButtressCtrl [] probed (.resume comesUp), .suspend staysUp)
    (by simp [visited])
  have hbit := hmeets.1 (.inl (by decide +kernel))
  revert hbit
  decide +kernel

end Ipu4.Isys.Power
