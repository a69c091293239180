import Ipu4.Buttress.Irq
import Ipu4.Lib.Errno

/-!
# Authentication of the firmware

`ipu6_buttress_authenticate` has the CSE load the boot loader and then run the
authentication. A monitor over the calls says in which order that may happen; the
program keeps to it whatever the device, the CSE and runtime PM answer, and a CSE that
does its part is authenticated.
-/

namespace Ipu4.Buttress

def IPU4_BOOTLOADER_STATUS_OFFSET : Nat := 0x8000
def BOOTLOADER_MAGIC_KEY : Nat := 0xb00710ad

def BUTTRESS_IU2CSEDATA0_IPC_BOOT_LOAD : Nat := 1
def BUTTRESS_IU2CSEDATA0_IPC_AUTH_RUN : Nat := 2
def BUTTRESS_CSE2IUDATA0_IPC_BOOT_LOAD_DONE : Nat := 1 <<< 0
def BUTTRESS_CSE2IUDATA0_IPC_AUTH_RUN_DONE : Nat := 1 <<< 1

def BUTTRESS_SECURITY_CTL_FW_SETUP_MASK : Nat := 0x1f
def BUTTRESS_SECURITY_CTL_FW_SETUP_DONE : Nat := 1 <<< 0
def BUTTRESS_SECURITY_CTL_AUTH_DONE : Nat := 1 <<< 1
def BUTTRESS_SECURITY_CTL_AUTH_FAILED : Nat := 1 <<< 3

/-- The fields of `struct ipu6_device` and `isp->psys` that are used; `psysBase` is
where the registers of the psys start in the BAR. -/
structure Isp where
  secureMode : Bool
  pkgDirDmaAddr : Nat
  psysBase : Nat

/-- The patience of the three polls. -/
structure AuthPolls where
  bootLoad : Nat
  magic : Nat
  authRun : Nat

def fwSetup (securityCtl : Nat) : Nat := securityCtl &&& BUTTRESS_SECURITY_CTL_FW_SETUP_MASK

def ipu6ButtressAuthDone (secureMode : Bool) : Code Bool :=
  if !secureMode then return true
  else do
    let val ← readl BUTTRESS_REG_SECURITY_CTL
    return fwSetup val = BUTTRESS_SECURITY_CTL_AUTH_DONE

/-- The wait for SECURITY_CTL to say done or failed, and what follows from it. -/
def waitSetup (polls done : Nat) : Code Int := do
  let (ret, data) ← readlPollTimeout polls BUTTRESS_REG_SECURITY_CTL fun data =>
    fwSetup data = done ∨ fwSetup data = BUTTRESS_SECURITY_CTL_AUTH_FAILED
  if ret ≠ 0 then return ret
  if fwSetup data = BUTTRESS_SECURITY_CTL_AUTH_FAILED then return -EINVAL
  return 0

def bootLoad : Call :=
  .ipcSend BUTTRESS_IU2CSEDATA0_IPC_BOOT_LOAD 1 true BUTTRESS_CSE2IUDATA0_IPC_BOOT_LOAD_DONE

def authRun : Call :=
  .ipcSend BUTTRESS_IU2CSEDATA0_IPC_AUTH_RUN 1 true BUTTRESS_CSE2IUDATA0_IPC_AUTH_RUN_DONE

/-- `ipu6_buttress_ipc_send` of one command. -/
def ipcSend (msg : Nat) (expectedResp : Nat) : Code Int := Prog.ask (Call.ipcSend msg 1 true expectedResp)

/-- What is done between `pm_runtime_resume_and_get` and `out_pm_put`. -/
def authenticateBody (isp : Isp) (polls : AuthPolls) : Code Int := do
  let done ← ipu6ButtressAuthDone isp.secureMode
  if done then return 0
  writel (isp.pkgDirDmaAddr % 2 ^ 32) BUTTRESS_REG_FW_SOURCE_BASE_LO
  writel (isp.pkgDirDmaAddr / 2 ^ 32 % 2 ^ 32) BUTTRESS_REG_FW_SOURCE_BASE_HI
  let ret ← ipcSend BUTTRESS_IU2CSEDATA0_IPC_BOOT_LOAD BUTTRESS_CSE2IUDATA0_IPC_BOOT_LOAD_DONE
  if ret ≠ 0 then return ret
  let ret ← waitSetup polls.bootLoad BUTTRESS_SECURITY_CTL_FW_SETUP_DONE
  if ret ≠ 0 then return ret
  let (ret, _) ← readlPollTimeout polls.magic (isp.psysBase + IPU4_BOOTLOADER_STATUS_OFFSET) fun data =>
    data = BOOTLOADER_MAGIC_KEY
  if ret ≠ 0 then return ret
  let ret ← ipcSend BUTTRESS_IU2CSEDATA0_IPC_AUTH_RUN BUTTRESS_CSE2IUDATA0_IPC_AUTH_RUN_DONE
  if ret ≠ 0 then return ret
  waitSetup polls.authRun BUTTRESS_SECURITY_CTL_AUTH_DONE

def ipu6ButtressAuthenticate (isp : Isp) (polls : AuthPolls) : Code Int :=
  if !isp.secureMode then return 0
  else do
    lock .auth
    let ret ← Prog.ask Call.pmResumeAndGet
    let ret ← if ret < (0 : Int) then pure ret else do
      let ret ← authenticateBody isp polls
      Prog.ask Call.pmPut
      pure ret
    unlock .auth
    return ret

-- ---------------------------------------------------------------------------
-- The protocol
-- ---------------------------------------------------------------------------

/-- What has happened so far: the lock and the reference, what was written to the
source registers, which of the two commands the CSE has done, and what SECURITY_CTL and
the status of the boot loader have shown since the last command. -/
structure Progress where
  locked : Bool
  held : Bool
  sourceLo : Option Nat
  sourceHi : Option Nat
  loaded : Bool
  authenticated : Bool
  security : Option Nat
  magic : Option Nat
  deriving DecidableEq, Repr

def Progress.start : Progress := ⟨false, false, none, none, false, false, none, none⟩

def Progress.active (t : Progress) : Prop := t.locked = true ∧ t.held = true

instance (t : Progress) : Decidable t.active := inferInstanceAs (Decidable (_ ∧ _))

/-- SECURITY_CTL has shown that the last command is through. -/
def Progress.Shows (t : Progress) (field : Nat) : Prop := t.security.map fwSetup = some field

/-- The order of the protocol. Registers are touched under the lock and with the device
held, the boot loader is loaded from the address in the source registers, and the
authentication is run after SECURITY_CTL and the boot loader have shown that it is there. -/
def protocol (isp : Isp) : Trace.Monitor Progress Event where
  next t
    | ⟨.lock _, _⟩ => { t with locked := true }
    | ⟨.unlock _, _⟩ => { t with locked := false }
    | ⟨.pmResumeAndGet, ret⟩ => { t with held := decide (ret ≥ (0 : Int)) }
    | ⟨.pmPut, _⟩ => { t with held := false }
    | ⟨.writel val addr, _⟩ =>
      if addr = BUTTRESS_REG_FW_SOURCE_BASE_LO then { t with sourceLo := some val }
      else if addr = BUTTRESS_REG_FW_SOURCE_BASE_HI then { t with sourceHi := some val }
      else t
    | ⟨.readl addr, val⟩ =>
      if addr = BUTTRESS_REG_SECURITY_CTL then { t with security := some val }
      else if addr = isp.psysBase + IPU4_BOOTLOADER_STATUS_OFFSET then { t with magic := some val }
      else t
    | ⟨.ipcSend msg _ _ _, ret⟩ =>
      { t with
        loaded := t.loaded || decide (msg = BUTTRESS_IU2CSEDATA0_IPC_BOOT_LOAD ∧ ret = (0 : Int))
        authenticated := t.authenticated || decide (msg = BUTTRESS_IU2CSEDATA0_IPC_AUTH_RUN ∧ ret = (0 : Int))
        security := none
        magic := none }
    | _ => t
  allows t
    | ⟨.lock m, _⟩ => m = .auth ∧ t.locked = false
    | ⟨.unlock m, _⟩ => m = .auth ∧ t.locked = true ∧ t.held = false
    | ⟨.pmResumeAndGet, _⟩ => t.locked = true ∧ t.held = false
    | ⟨.pmPut, _⟩ | ⟨.readl _, _⟩ | ⟨.writel .., _⟩ => t.active
    | ⟨.ipcSend msg size requireResp resp, _⟩ => t.active ∧
      if Call.ipcSend msg size requireResp resp = bootLoad then
        t.loaded = false ∧ t.sourceLo = some (isp.pkgDirDmaAddr % 2 ^ 32) ∧
          t.sourceHi = some (isp.pkgDirDmaAddr / 2 ^ 32 % 2 ^ 32)
      else
        Call.ipcSend msg size requireResp resp = authRun ∧ t.loaded = true ∧ t.authenticated = false ∧
          t.Shows BUTTRESS_SECURITY_CTL_FW_SETUP_DONE ∧ t.magic = some BOOTLOADER_MAGIC_KEY
    | _ => False

/-- Where a call may end: lock and reference are given back, and success means in secure
mode that SECURITY_CTL has shown that the firmware is authenticated. -/
structure Ended (secureMode : Bool) (ret : Int) (t : Progress) : Prop where
  unlocked : t.locked = false
  released : t.held = false
  success : ret = 0 → secureMode = true → t.Shows BUTTRESS_SECURITY_CTL_AUTH_DONE

section
variable {isp : Isp} {t : Progress}

theorem waitSetup_meets (polls done : Nat) (ht : t.active) :
    Prog.Meets (protocol isp) (waitSetup polls done) t fun ret t' =>
      ∃ val, t' = { t with security := some val } ∧ (ret = 0 → fwSetup val = done) := by
  simp only [waitSetup, Prog.meets_bind, Prog.meets_ite]
  refine (readlPollTimeout_meets (I := fun t' => ∃ x, t' = { t with security := x })
    (R := fun val t' => t' = { t with security := some val }) polls _ ?_ ⟨t.security, rfl⟩).imp ?_
  · rintro _ ⟨x, rfl⟩ val
    exact ⟨ht, ⟨some val, rfl⟩, rfl⟩
  · rintro ⟨ret, data⟩ _ ⟨-, rfl, hret⟩
    refine ⟨fun hne => ⟨data, rfl, fun h => absurd h hne⟩, fun hz => ⟨fun _ => ⟨data, rfl, ?_⟩, ?_⟩⟩
    · intro h
      exact absurd h (by decide)
    · intro hfail
      refine ⟨data, rfl, fun _ => ?_⟩
      have hcond := hret.mp (not_not.mp hz)
      simpa [hfail] using hcond

theorem waitMagic_meets (polls : Nat) (ht : t.active) :
    Prog.Meets (protocol isp)
      (readlPollTimeout polls (isp.psysBase + IPU4_BOOTLOADER_STATUS_OFFSET) fun data =>
        data = BOOTLOADER_MAGIC_KEY) t fun r t' =>
      ∃ val, t' = { t with magic := some val } ∧ (r.1 = 0 → val = BOOTLOADER_MAGIC_KEY) := by
  have hne : isp.psysBase + IPU4_BOOTLOADER_STATUS_OFFSET ≠ BUTTRESS_REG_SECURITY_CTL := by
    unfold IPU4_BOOTLOADER_STATUS_OFFSET BUTTRESS_REG_SECURITY_CTL
    omega
  refine (readlPollTimeout_meets (I := fun t' => ∃ x, t' = { t with magic := x })
    (R := fun val t' => t' = { t with magic := some val }) polls _ ?_ ⟨t.magic, rfl⟩).imp ?_
  · rintro _ ⟨x, rfl⟩ val
    have hnext : (protocol isp).next { t with magic := x }
        ⟨.readl (isp.psysBase + IPU4_BOOTLOADER_STATUS_OFFSET), val⟩ = { t with magic := some val } := by
      simp only [protocol, hne, if_false, if_true]
    rw [hnext]
    exact ⟨ht, ⟨some val, rfl⟩, rfl⟩
  · rintro ⟨ret, data⟩ _ ⟨-, rfl, hret⟩
    refine ⟨data, rfl, fun hz => ?_⟩
    simpa using hret.mp hz

theorem bootLoad_meets (ht : t.active) (hload : t.loaded = false)
    (hlo : t.sourceLo = some (isp.pkgDirDmaAddr % 2 ^ 32))
    (hhi : t.sourceHi = some (isp.pkgDirDmaAddr / 2 ^ 32 % 2 ^ 32)) :
    Prog.Meets (protocol isp)
      (ipcSend BUTTRESS_IU2CSEDATA0_IPC_BOOT_LOAD BUTTRESS_CSE2IUDATA0_IPC_BOOT_LOAD_DONE) t fun ret t' =>
      t'.active ∧ t'.authenticated = t.authenticated ∧ (ret = 0 → t'.loaded = true) := by
  intro ret
  refine ⟨⟨ht, ?_⟩, ht, ?_, ?_⟩
  · split
    · exact ⟨hload, hlo, hhi⟩
    · next hne => exact absurd rfl hne
  · show (t.authenticated || decide (_ ∧ _)) = _
    simp [BUTTRESS_IU2CSEDATA0_IPC_BOOT_LOAD, BUTTRESS_IU2CSEDATA0_IPC_AUTH_RUN]
  · rintro rfl
    show (t.loaded || decide (_ ∧ _)) = true
    simp

theorem authRun_meets (ht : t.active) (hload : t.loaded = true) (hauth : t.authenticated = false)
    (hsec : t.Shows BUTTRESS_SECURITY_CTL_FW_SETUP_DONE) (hmagic : t.magic = some BOOTLOADER_MAGIC_KEY) :
    Prog.Meets (protocol isp)
      (ipcSend BUTTRESS_IU2CSEDATA0_IPC_AUTH_RUN BUTTRESS_CSE2IUDATA0_IPC_AUTH_RUN_DONE) t
        fun _ t' => t'.active := by
  intro ret
  refine ⟨⟨ht, ?_⟩, ht⟩
  rw [if_neg (by decide)]
  exact ⟨rfl, hload, hauth, hsec, hmagic⟩

theorem failed_meets {ret : Int} (ht : t.active) (hret : ret ≠ 0) :
    Prog.Meets (protocol isp) (pure ret) t fun ret t' =>
      t'.active ∧ (ret = 0 → t'.Shows BUTTRESS_SECURITY_CTL_AUTH_DONE) :=
  ⟨ht, fun h => absurd h hret⟩

theorem authenticateBody_meets (polls : AuthPolls) (ht : t.active) (hload : t.loaded = false)
    (hauth : t.authenticated = false) (hsec : isp.secureMode = true) :
    Prog.Meets (protocol isp) (authenticateBody isp polls) t fun ret t' =>
      t'.active ∧ (ret = 0 → t'.Shows BUTTRESS_SECURITY_CTL_AUTH_DONE) := by
  simp only [authenticateBody, ipu6ButtressAuthDone, hsec, Bool.not_true, Bool.false_eq_true, if_false,
    Prog.meets_bind, Prog.meets_ite, meets_readl, meets_writel]
  intro val
  refine ⟨ht, fun hdone => ⟨ht, fun _ => congrArg some (of_decide_eq_true hdone)⟩, fun _ => ⟨ht, ht, ?_⟩⟩
  -- the address of the package directory is in the source registers
  refine Prog.Meets.imp (bootLoad_meets ht hload ?_ ?_) ?_
  · rfl
  · rfl
  rintro ret t₁ ⟨ht₁, hauth₁, hload₁⟩
  refine ⟨failed_meets ht₁, fun hret => ?_⟩
  refine (waitSetup_meets _ _ ht₁).imp ?_
  rintro ret' _ ⟨security, rfl, hsetup⟩
  refine ⟨failed_meets ht₁, fun hret' => ?_⟩
  refine (waitMagic_meets (t := { t₁ with security := some security }) _ ht₁).imp ?_
  rintro r _ ⟨magic, rfl, hmagic⟩
  refine ⟨failed_meets ht₁, fun hr => ?_⟩
  rw [hmagic (not_not.mp hr)]
  refine Prog.Meets.imp (authRun_meets ht₁ (hload₁ (not_not.mp hret)) (hauth₁.trans hauth) ?_ ?_) ?_
  · exact congrArg some (hsetup (not_not.mp hret'))
  · rfl
  · rintro ret'' t₂ ht₂
    refine ⟨failed_meets ht₂, fun _ => ?_⟩
    refine (waitSetup_meets _ _ ht₂).imp ?_
    rintro ret _ ⟨security, rfl, hsetup⟩
    exact ⟨ht₂, fun h => congrArg some (hsetup h)⟩

theorem authenticate_meets (polls : AuthPolls) :
    Prog.Meets (protocol isp) (ipu6ButtressAuthenticate isp polls) .start (Ended isp.secureMode) := by
  cases hsec : isp.secureMode with
  | false =>
    simp only [ipu6ButtressAuthenticate, hsec, Bool.not_false, if_true]
    exact ⟨rfl, rfl, fun _ h => absurd h Bool.false_ne_true⟩
  | true =>
    simp only [ipu6ButtressAuthenticate, hsec, Bool.not_true, Bool.false_eq_true, if_false,
      Prog.meets_bind, Prog.meets_ite, meets_lock, meets_unlock]
    refine ⟨⟨rfl, rfl⟩, fun ret => ⟨⟨rfl, rfl⟩, fun hneg => ?_, fun hpos => ?_⟩⟩
    · have hheld : decide (ret ≥ (0 : Int)) = false := decide_eq_false (Int.not_le.mpr hneg)
      refine ⟨⟨rfl, rfl, hheld⟩, rfl, hheld, ?_⟩
      rintro rfl
      exact absurd hneg (by decide)
    · have hheld : decide (ret ≥ (0 : Int)) = true := decide_eq_true (Int.not_lt.mp hpos)
      refine (authenticateBody_meets polls ⟨rfl, hheld⟩ rfl rfl hsec).imp ?_
      rintro ret' t ⟨ht, hshows⟩
      exact fun _ => ⟨ht, ⟨rfl, ht.1, rfl⟩, ⟨rfl, rfl, fun h _ => hshows h⟩⟩

/-- On every machine: the calls of an authentication come in the order of the protocol,
the lock and the reference are given back on every path, and in secure mode a return of 0
means that SECURITY_CTL has shown the firmware to be authenticated. -/
theorem authenticate_protocol {σ : Type} (M : Machine Call.Ans σ) (isp : Isp) (polls : AuthPolls) (s : σ) :
    Trace.EndsIn (protocol isp) .start ((ipu6ButtressAuthenticate isp polls).log M s)
      (Ended isp.secureMode ((ipu6ButtressAuthenticate isp polls).run M s).1) :=
  (authenticate_meets polls).run M s

end

-- ---------------------------------------------------------------------------
-- A CSE that does its part
-- ---------------------------------------------------------------------------

/-- Where the CSE is: before the first command; after it, with the number of reads before
SECURITY_CTL and the status of the boot loader show that it is through; after the second,
with the number of reads before SECURITY_CTL shows that. -/
inductive Stage
  | idle
  | loading (setup magic : Nat)
  | running (auth : Nat)

/-- A value of SECURITY_CTL on the way to `done`: it shows it, or it does not show a failure
and `later` holds of the state after. -/
def OnTheWay (val done : Nat) (arrived later : Prop) : Prop :=
  fwSetup val = done ∧ arrived ∨
    fwSetup val ≠ done ∧ fwSetup val ≠ BUTTRESS_SECURITY_CTL_AUTH_FAILED ∧ later

/-- The device can be resumed, the CSE acknowledges both commands, and what the driver polls
for shows before its patience is at an end. -/
structure Cooperates {σ : Type} (M : Machine Call.Ans σ) (isp : Isp) (polls : AuthPolls)
    (At : Stage → σ → Prop) : Prop where
  locked : ∀ s, At .idle s → At .idle (M.step (.lock .auth) s).2
  resumed : ∀ s, At .idle s →
    0 ≤ (M.step .pmResumeAndGet s).1 ∧ At .idle (M.step .pmResumeAndGet s).2
  looked : ∀ s, At .idle s → At .idle (M.step (.readl BUTTRESS_REG_SECURITY_CTL) s).2
  source : ∀ val addr s, At .idle s → At .idle (M.step (.writel val addr) s).2
  loads : ∀ s, At .idle s → (M.step bootLoad s).1 = (0 : Int) ∧
    ∃ setup ≤ polls.bootLoad, ∃ magic ≤ polls.magic, At (.loading setup magic) (M.step bootLoad s).2
  setup : ∀ m n s, At (.loading m n) s →
    OnTheWay (M.step (.readl BUTTRESS_REG_SECURITY_CTL) s).1 BUTTRESS_SECURITY_CTL_FW_SETUP_DONE
      (At (.loading m n) (M.step (.readl BUTTRESS_REG_SECURITY_CTL) s).2)
      (∃ m' < m, At (.loading m' n) (M.step (.readl BUTTRESS_REG_SECURITY_CTL) s).2)
  magic : ∀ m n s, At (.loading m n) s →
    let r := M.step (.readl (isp.psysBase + IPU4_BOOTLOADER_STATUS_OFFSET)) s
    r.1 = BOOTLOADER_MAGIC_KEY ∧ At (.loading m n) r.2 ∨
      r.1 ≠ BOOTLOADER_MAGIC_KEY ∧ ∃ n' < n, At (.loading m n') r.2
  runs : ∀ m n s, At (.loading m n) s → (M.step authRun s).1 = (0 : Int) ∧
    ∃ auth ≤ polls.authRun, At (.running auth) (M.step authRun s).2
  auth : ∀ n s, At (.running n) s →
    OnTheWay (M.step (.readl BUTTRESS_REG_SECURITY_CTL) s).1 BUTTRESS_SECURITY_CTL_AUTH_DONE True
      (∃ n' < n, At (.running n') (M.step (.readl BUTTRESS_REG_SECURITY_CTL) s).2)

section
variable {σ : Type} {M : Machine Call.Ans σ} {isp : Isp} {polls : AuthPolls} {At : Stage → σ → Prop} {s : σ}

theorem run_waitSetup {P : Nat → σ → Prop} {Q : σ → Prop} {done n : Nat}
    (hdone : done ≠ BUTTRESS_SECURITY_CTL_AUTH_FAILED)
    (hread : ∀ n s, P n s → OnTheWay (M.step (.readl BUTTRESS_REG_SECURITY_CTL) s).1 done
      (Q (M.step (.readl BUTTRESS_REG_SECURITY_CTL) s).2)
      (∃ m < n, P m (M.step (.readl BUTTRESS_REG_SECURITY_CTL) s).2))
    (polls : Nat) (hs : P n s) (hn : n ≤ polls) :
    ∃ s', (waitSetup polls done).run M s = (0, s') ∧ Q s' := by
  have hpoll : ∀ n s, P n s → let val := (M.step (.readl BUTTRESS_REG_SECURITY_CTL) s).1
      let s' := (M.step (.readl BUTTRESS_REG_SECURITY_CTL) s).2
      decide (fwSetup val = done ∨ fwSetup val = BUTTRESS_SECURITY_CTL_AUTH_FAILED) = true ∧
          (fwSetup val = done ∧ Q s') ∨
        decide (fwSetup val = done ∨ fwSetup val = BUTTRESS_SECURITY_CTL_AUTH_FAILED) = false ∧
          ∃ m < n, P m s' := by
    intro n s hp
    rcases hread n s hp with ⟨hval, hq⟩ | ⟨hno, hfailed, hlater⟩
    · exact .inl ⟨decide_eq_true (.inl hval), hval, hq⟩
    · exact .inr ⟨decide_eq_false (not_or.mpr ⟨hno, hfailed⟩), hlater⟩
  obtain ⟨val, s', hrun, hval, hq⟩ := Prog.run_poll_within (M := M) (p := readl BUTTRESS_REG_SECURITY_CTL)
    (c := fun val => fwSetup val = done ∨ fwSetup val = BUTTRESS_SECURITY_CTL_AUTH_FAILED) (P := P)
    (Q := fun val s' => fwSetup val = done ∧ Q s') hpoll polls hs hn
  have hne : fwSetup val ≠ BUTTRESS_SECURITY_CTL_AUTH_FAILED := hval.symm ▸ hdone
  refine ⟨s', ?_, hq⟩
  simp only [waitSetup, readlPollTimeout, Prog.run_bind, hrun, if_true, Prog.run_pure, ne_eq, not_true,
    if_false, hne]

theorem Cooperates.run_setup (h : Cooperates M isp polls At) (hs : At (.loading m n) s)
    (hm : m ≤ polls.bootLoad) :
    ∃ s', (waitSetup polls.bootLoad BUTTRESS_SECURITY_CTL_FW_SETUP_DONE).run M s = (0, s') ∧
      ∃ m', At (.loading m' n) s' := by
  have hdone : BUTTRESS_SECURITY_CTL_FW_SETUP_DONE ≠ BUTTRESS_SECURITY_CTL_AUTH_FAILED := by decide
  refine run_waitSetup (P := fun m s => At (.loading m n) s) (Q := fun s => ∃ m', At (.loading m' n) s) hdone
    (fun m s hat => ?_) polls.bootLoad hs hm
  exact (h.setup m n s hat).imp_left fun ⟨hval, hat'⟩ => ⟨hval, m, hat'⟩

theorem Cooperates.run_magic (h : Cooperates M isp polls At) (hs : At (.loading m n) s)
    (hn : n ≤ polls.magic) :
    ∃ val s', (readlPollTimeout polls.magic (isp.psysBase + IPU4_BOOTLOADER_STATUS_OFFSET) fun data =>
      data = BOOTLOADER_MAGIC_KEY).run M s = ((0, val), s') ∧ ∃ n', At (.loading m n') s' := by
  have hpoll : ∀ n s, At (.loading m n) s →
      let val := (M.step (.readl (isp.psysBase + IPU4_BOOTLOADER_STATUS_OFFSET)) s).1
      let s' := (M.step (.readl (isp.psysBase + IPU4_BOOTLOADER_STATUS_OFFSET)) s).2
      decide (val = BOOTLOADER_MAGIC_KEY) = true ∧ (∃ n', At (.loading m n') s') ∨
        decide (val = BOOTLOADER_MAGIC_KEY) = false ∧ ∃ n' < n, At (.loading m n') s' := by
    intro n s hat
    rcases h.magic m n s hat with ⟨hval, hat'⟩ | ⟨hno, hlater⟩
    · exact .inl ⟨decide_eq_true hval, n, hat'⟩
    · exact .inr ⟨decide_eq_false hno, hlater⟩
  obtain ⟨val, s', hrun, hat⟩ := Prog.run_poll_within (M := M)
    (p := readl (isp.psysBase + IPU4_BOOTLOADER_STATUS_OFFSET)) (c := fun val => val = BOOTLOADER_MAGIC_KEY)
    (P := fun n s => At (.loading m n) s) (Q := fun _ s' => ∃ n', At (.loading m n') s')
    hpoll polls.magic hs hn
  refine ⟨val, s', ?_, hat⟩
  simp only [readlPollTimeout, Prog.run_bind, hrun, if_true, Prog.run_pure]

/-- The setup of the boot loader, its magic key and the authentication come as they are
waited for. -/
theorem Cooperates.run_body (h : Cooperates M isp polls At) (hs : At .idle s) :
    ((authenticateBody isp polls).run M s).1 = 0 := by
  cases hdone : (ipu6ButtressAuthDone isp.secureMode).run M s with
  | mk done s₀ =>
  have hs₀ : At .idle s₀ := by
    unfold ipu6ButtressAuthDone at hdone
    split at hdone
    · exact (Prod.mk.inj hdone).2 ▸ hs
    · exact (Prod.mk.inj hdone).2 ▸ h.looked s hs
  have hs₂ := h.source (isp.pkgDirDmaAddr / 2 ^ 32 % 2 ^ 32) BUTTRESS_REG_FW_SOURCE_BASE_HI _
    (h.source (isp.pkgDirDmaAddr % 2 ^ 32) BUTTRESS_REG_FW_SOURCE_BASE_LO s₀ hs₀)
  obtain ⟨hload, m, hm, n, hn, hs₃⟩ := h.loads _ hs₂
  obtain ⟨s₄, hsetup, m', hs₄⟩ := h.run_setup hs₃ hm
  obtain ⟨val, s₅, hmagic, n', hs₅⟩ := h.run_magic hs₄ hn
  obtain ⟨hrun, k, hk, hs₆⟩ := h.runs m' n' s₅ hs₅
  have hdecide : BUTTRESS_SECURITY_CTL_AUTH_DONE ≠ BUTTRESS_SECURITY_CTL_AUTH_FAILED := by decide
  obtain ⟨s₇, hauth, -⟩ := run_waitSetup (P := fun k s => At (.running k) s) (Q := fun _ => True) hdecide h.auth
    polls.authRun hs₆ hk
  cases done with
  | true => simp only [authenticateBody, Prog.run_bind, hdone, if_true, Prog.run_pure]
  | false =>
    have hload' : (ipcSend BUTTRESS_IU2CSEDATA0_IPC_BOOT_LOAD BUTTRESS_CSE2IUDATA0_IPC_BOOT_LOAD_DONE).run M
        (M.step (.writel (isp.pkgDirDmaAddr / 2 ^ 32 % 2 ^ 32) BUTTRESS_REG_FW_SOURCE_BASE_HI)
          (M.step (.writel (isp.pkgDirDmaAddr % 2 ^ 32) BUTTRESS_REG_FW_SOURCE_BASE_LO) s₀).2).2 =
        (0, (M.step bootLoad _).2) := Prod.ext hload rfl
    have hrun' : (ipcSend BUTTRESS_IU2CSEDATA0_IPC_AUTH_RUN BUTTRESS_CSE2IUDATA0_IPC_AUTH_RUN_DONE).run M s₅ =
        (0, (M.step authRun s₅).2) := Prod.ext hrun rfl
    simp only [authenticateBody, Prog.run_bind, hdone, Bool.false_eq_true, if_false, run_writel, hload', ne_eq,
      not_true, hsetup, hmagic, hrun', hauth]

theorem authenticate_succeeds (h : Cooperates M isp polls At) (hs : At .idle s) :
    ((ipu6ButtressAuthenticate isp polls).run M s).1 = 0 := by
  unfold ipu6ButtressAuthenticate
  split
  · rfl
  obtain ⟨hpos, hs₁⟩ := h.resumed _ (h.locked s hs)
  simp only [Prog.run_bind, run_lock, Prog.run_ask, Int.not_lt.mpr hpos, if_false, Prog.run_pure]
  exact h.run_body hs₁

/-- What a CSE shows that takes its time: nothing, until the reads are counted down. -/
def slowRead (isp : Isp) (addr : Nat) : Stage → Nat × Stage
  | .idle => (0, .idle)
  | .loading m n =>
    if addr = BUTTRESS_REG_SECURITY_CTL then
      (if m = 0 then BUTTRESS_SECURITY_CTL_FW_SETUP_DONE else 0, .loading (m - 1) n)
    else if addr = isp.psysBase + IPU4_BOOTLOADER_STATUS_OFFSET then
      (if n = 0 then BOOTLOADER_MAGIC_KEY else 0, .loading m (n - 1))
    else (0, .loading m n)
  | .running n =>
    if addr = BUTTRESS_REG_SECURITY_CTL then
      (if n = 0 then BUTTRESS_SECURITY_CTL_AUTH_DONE else 0, .running (n - 1))
    else (0, .running n)

def slowCse (isp : Isp) (polls : AuthPolls) : Machine Call.Ans Stage where
  step
    | .readl addr, st => slowRead isp addr st
    | .ipcSend msg _ _ _, _ =>
      ((0 : Int), if msg = BUTTRESS_IU2CSEDATA0_IPC_BOOT_LOAD then .loading polls.bootLoad polls.magic
        else .running polls.authRun)
    | .pmResumeAndGet, st | .pmGetIfActive, st | .pmGenericRuntimeResume _, st => ((0 : Int), st)
    | .rpmResume _, st => (.answers 0, st)
    | .isr _, st | .isrThreaded _, st => (.none, st)
    | .writel .., st | .lock _, st | .unlock _, st | .pmPut, st | .pmPutNoidle, st | .setRecvData _, st
    | .complete _, st => ((), st)

theorem fwSetup_none : fwSetup 0 ≠ BUTTRESS_SECURITY_CTL_FW_SETUP_DONE ∧
    fwSetup 0 ≠ BUTTRESS_SECURITY_CTL_AUTH_DONE ∧ fwSetup 0 ≠ BUTTRESS_SECURITY_CTL_AUTH_FAILED := by
  decide

theorem slowCse_cooperates (isp : Isp) (polls : AuthPolls) :
    Cooperates (slowCse isp polls) isp polls fun st s => s = st where
  locked := fun _ h => h
  resumed := fun _ h => ⟨Int.le_refl 0, h⟩
  looked := by
    rintro _ rfl
    rfl
  source := fun _ _ _ h => h
  loads := fun _ _ => ⟨rfl, _, Nat.le_refl _, _, Nat.le_refl _, rfl⟩
  setup := by
    rintro m n _ rfl
    have hsetup : fwSetup BUTTRESS_SECURITY_CTL_FW_SETUP_DONE = BUTTRESS_SECURITY_CTL_FW_SETUP_DONE := by decide
    cases m with
    | zero => exact .inl ⟨hsetup, rfl⟩
    | succ m => exact .inr ⟨fwSetup_none.1, fwSetup_none.2.2, m, Nat.lt_succ_self m, rfl⟩
  magic := by
    rintro m n _ rfl
    have hne : isp.psysBase + IPU4_BOOTLOADER_STATUS_OFFSET ≠ BUTTRESS_REG_SECURITY_CTL := by
      unfold IPU4_BOOTLOADER_STATUS_OFFSET BUTTRESS_REG_SECURITY_CTL
      omega
    cases n with
    | zero => simp [slowCse, slowRead, hne]
    | succ n => simp [slowCse, slowRead, hne, BOOTLOADER_MAGIC_KEY]
  runs := fun _ _ _ _ => ⟨rfl, _, Nat.le_refl _, rfl⟩
  auth := by
    rintro n _ rfl
    have hauth : fwSetup BUTTRESS_SECURITY_CTL_AUTH_DONE = BUTTRESS_SECURITY_CTL_AUTH_DONE := by decide
    cases n with
    | zero => exact .inl ⟨hauth, trivial⟩
    | succ n => exact .inr ⟨fwSetup_none.2.1, fwSetup_none.2.2, n, Nat.lt_succ_self n, rfl⟩

end

end Ipu4.Buttress
