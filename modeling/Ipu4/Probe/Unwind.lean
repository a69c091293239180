import Ipu4.Probe.Steps

/-!
# What a failed probe gives back

A probe that fails before it has an MMU gives everything back. Every later failure
goes wrong: an MMU that fails, or a device that cannot be added, has its platform
data freed twice; a PSYS that fails is an error pointer that is followed; a failure
before the firmware image is mapped unmaps an image that is not there; and after
that the runtime-PM reference stays.
-/

namespace Ipu4.Probe

open Objects Trace

/-- Every object the probe makes is freed once, and only objects are followed and
freed. The bridge is left to the bridge driver. -/
def Unwinds (log : List (Access Res)) : Prop := EndsIn (objects Res) [] log (∀ r ∈ ·, r = .bridge)

/-- One of the allocations before the MMU fails. -/
def BusEnv.FailsEarly (env : BusEnv) : Prop :=
  env.kzallocPdata = false ∨ env.kzallocAdev = false ∨ env.auxiliaryDeviceInit ≠ none

/-- There is no fwnode graph, and no bridge in its place. -/
def Env.NoSensor (env : Env) : Prop :=
  env.checkFwnodeGraph ≠ none ∧ (env.fwnodeSecondary = true ∨ ∃ e, env.bridgeInit = .error e)

/-- The firmware, the sensor or an early allocation of the ISYS fails. -/
def FailsBeforeMmu (env : Env) : Prop :=
  env.requestFirmware ≠ none ∨ env.validateCpdFile ≠ none ∨ env.NoSensor ∨ env.isys.FailsEarly

-- ---------------------------------------------------------------------------
-- Running a program
-- ---------------------------------------------------------------------------

section
variable {α β : Type} {x : Prog α} {f : α → Prog β} {isp : Ipu6Device} {c : Prop} [Decidable c]

@[simp] theorem bind_apply : (x >>= f) isp = x isp >>= fun p => f p.1 p.2 := rfl

@[simp] theorem pure_apply (a : α) : (pure a : Prog α) isp = pure (a, isp) := rfl

@[simp] theorem map_apply (g : α → β) : (g <$> x) isp = x isp >>= fun p => pure (g p.1, p.2) := rfl

@[simp] theorem get_apply : (get : Prog Ipu6Device) isp = pure (isp, isp) := rfl

@[simp] theorem modify_apply (g : Ipu6Device → Ipu6Device) :
    (modify g : Prog PUnit) isp = pure (⟨⟩, g isp) := rfl

@[simp] theorem log_apply (a : Access Res) :
    log a isp = Logged.emit a >>= fun _ => pure ((), isp) := rfl

theorem ite_apply (y : Prog α) : (if c then x else y) isp = if c then x isp else y isp :=
  apply_ite (fun p : Prog α => p isp) _ _ _

end

theorem not_clean_of_use {held : List Res} {log : List (Access Res)} {p : Ptr Res} (h : .use p ∈ log)
    (hp : ∀ x, p ≠ .obj x) : ¬ Clean (objects Res) held log := fun hclean =>
  (Clean.use_obj hclean h).elim hp

theorem not_unwinds_of_kept {log : List (Access Res)} {r : Res} (h : .get r ∈ log) (hr : r ≠ .bridge)
    (hput : .put (.obj r) ∉ log) : ¬ Unwinds log := by
  rintro ⟨hclean, hend⟩
  have hcount := Clean.count hclean r
  rw [List.count_eq_zero.mpr hput] at hcount
  have hpos := List.count_pos_iff.mpr h
  have hheld : r ∈ after (objects Res) [] log := List.count_pos_iff.mp (by simp at hcount; omega)
  exact hr (hend r hheld)

-- ---------------------------------------------------------------------------
-- The unwind labels
-- ---------------------------------------------------------------------------

section
variable {isp : Ipu6Device} {env : Env}

theorem bridgeRemove_keeps (env : Env) (isp : Ipu6Device) :
    (bridgeRemove env isp).val.2.psys = isp.psys ∧ (bridgeRemove env isp).val.2.adev = isp.adev := by
  simp only [bridgeRemove, bind_apply, Logged.val_bind, get_apply, Logged.val_pure, ite_apply]
  split
  · simp
  · simp [deref, release]

theorem uses_err (h : isp.psys = .err e) : .use (.err e) ∈ (outIpu6BusDelDevices isp).log := by
  simp [outIpu6BusDelDevices, ipu6CpdFreePkgDir, load, deref, h, Ptr.map]

theorem load_keeps (p : Ptr Dev) : (load p isp).val = (Ptr.target isp p, isp) := by
  simp [load, deref]

theorem ipu6DmaFree_keeps (isp : Ipu6Device) (h : Option Range) (d : Dev) :
    ((ipu6DmaFree (.obj d) h isp).val.2.adev d).fwSgt = (isp.adev d).fwSgt := by
  cases h with
  | none => simp [ipu6DmaFree, load, deref]
  | some r =>
    simp only [ipu6DmaFree, bind_apply, Logged.val_bind, ite_apply, load_keeps, Logged.val_ite]
    split
    · simp [deref]
    · simp [deref, release, store]

theorem ipu6DmaUnmapSg_uses (isp : Ipu6Device) (d : Dev) :
    .use (Ptr.sgTable (isp.adev d).fwSgt.sgl) ∈ (ipu6DmaUnmapSg (.obj d) isp).log := by
  simp [ipu6DmaUnmapSg, load, deref, Ptr.target]

theorem uses_null (h : isp.psys = .obj d) (hsgl : (isp.adev d).fwSgt.sgl = .null) :
    .use .null ∈ (outIpu6BusDelDevices isp).log := by
  have hkeep := ipu6DmaFree_keeps isp (isp.adev d).pkgDirDmaAddr d
  have huses := ipu6DmaUnmapSg_uses (ipu6CpdFreePkgDir (.obj d) isp).val.2 d
  simp only [ipu6CpdFreePkgDir, bind_apply, Logged.val_bind, load_keeps, Ptr.target] at huses
  rw [hkeep, hsgl] at huses
  simp only [outIpu6BusDelDevices, ipu6CpdFreePkgDir, ipu6ButtressUnmapFwImage, bind_apply, get_apply,
    ite_apply, h, Logged.log_bind, Logged.val_pure, List.mem_append, Logged.val_bind, load_keeps, Ptr.target,
    ne_eq, reduceCtorEq, not_false_eq_true, if_true]
  exact Or.inr (Or.inr (Or.inl (Or.inl huses)))

end

-- ---------------------------------------------------------------------------
-- The runtime-PM reference
-- ---------------------------------------------------------------------------

/-- A program that does not free `r`. -/
def Keeps (r : Res) (x : Prog α) : Prop := ∀ isp, Logged.All (· ≠ .put (.obj r)) (x isp)

section
variable {α β : Type} {r : Res} {x : Prog α} {f : α → Prog β} {c : Prop} [Decidable c]

theorem Keeps.bind (hx : Keeps r x) (hf : ∀ a, Keeps r (f a)) : Keeps r (x >>= f) := fun isp => by
  rw [bind_apply, Logged.all_bind]
  exact ⟨hx isp, hf _ _⟩

theorem Keeps.pure (a : α) : Keeps r (pure a : Prog α) := fun _ => Logged.all_pure _

theorem Keeps.map (g : α → β) (hx : Keeps r x) : Keeps r (g <$> x) := hx.bind fun _ => .pure _

theorem Keeps.get : Keeps r (get : Prog Ipu6Device) := fun _ => Logged.all_pure _

theorem Keeps.modify (g : Ipu6Device → Ipu6Device) : Keeps r (modify g : Prog PUnit) := fun _ =>
  Logged.all_pure _

theorem Keeps.acquire (a : Res) : Keeps r (acquire a) := fun _ => by simp [Probe.acquire]

theorem Keeps.deref (p : Ptr Res) : Keeps r (deref p) := fun _ => by simp [Probe.deref]

theorem Keeps.release {p : Ptr Res} (h : p ≠ .obj r) : Keeps r (release p) := fun _ => by
  simpa [Probe.release] using h

theorem Keeps.load (p : Ptr Dev) : Keeps r (load p) := .bind (.deref _) fun _ => .bind .get fun _ => .pure _

theorem Keeps.store (p : Ptr Dev) (g : Ipu6BusDevice → Ipu6BusDevice) : Keeps r (store p g) := by
  cases p with
  | obj d => exact .modify _
  | null => exact .pure _
  | err e => exact .pure _

theorem Keeps.ite {y : Prog α} (hx : Keeps r x) (hy : Keeps r y) : Keeps r (if c then x else y) := by
  split
  · exact hx
  · exact hy

theorem Keeps.forM {g : β → Prog PUnit} (hg : ∀ b, Keeps r (g b)) (bs : List β) : Keeps r (bs.forM g) := by
  induction bs with
  | nil => exact .pure _
  | cons b bs ih => exact (hg b).bind fun _ => ih

end

theorem map_ne_obj {p : Ptr α} {f : α → Res} (h : ∀ x, f x ≠ r) : p.map f ≠ .obj r := by
  cases p with
  | obj x => exact fun he => h x (Ptr.obj.inj he)
  | null => nofun
  | err e => nofun

theorem putDevice_keepsPm (d : Dev) : Keeps .psysPm (putDevice d) :=
  .bind (.load _) fun _ => .bind (.release (map_ne_obj nofun)) fun _ => .release nofun

theorem ipu6DmaFree_keepsPm (sys : Ptr Dev) (h : Option Range) : Keeps .psysPm (ipu6DmaFree sys h) := by
  refine .bind (.load _) fun _ => .bind (.deref _) fun _ => ?_
  cases h with
  | none => exact .pure _
  | some range => exact .ite (.pure _) (.bind (.release nofun) fun _ => .store _ _)

theorem ipu6DmaUnmapSg_keepsPm (sys : Ptr Dev) : Keeps .psysPm (ipu6DmaUnmapSg sys) :=
  .bind (.load _) fun _ => .bind (.deref _) fun _ => .bind (.deref _) fun _ =>
    .ite (.pure _) (.bind (.release nofun) fun _ => .store _ _)

theorem ipu6CpdFreePkgDir_keepsPm (sys : Ptr Dev) : Keeps .psysPm (ipu6CpdFreePkgDir sys) :=
  .bind (.load _) fun _ => ipu6DmaFree_keepsPm _ _

theorem ipu6ButtressUnmapFwImage_keepsPm (sys : Ptr Dev) :
    Keeps .psysPm (ipu6ButtressUnmapFwImage sys) :=
  .bind (ipu6DmaUnmapSg_keepsPm sys) fun _ => .bind (.release nofun) fun _ =>
    .bind (.release nofun) fun _ => .store _ _

theorem mmuCleanup_keepsPm (p : Ptr Dev) : Keeps .psysPm (mmuCleanup p) := by
  cases p with
  | null => exact .pure _
  | err e => exact .pure _
  | obj d =>
    refine .bind (.load _) fun adev => ?_
    cases adev.mmu with
    | obj m => exact .release nofun
    | null => exact .pure _
    | err e => exact .pure _

theorem outIpu6BusDelDevices_keepsPm : Keeps .psysPm outIpu6BusDelDevices := by
  have hdel : Keeps .psysPm ipu6BusDelDevices :=
    .bind .get fun _ => .bind (.forM putDevice_keepsPm _) fun _ => .modify _
  have hrest : ∀ isp : Ipu6Device, Keeps .psysPm (do
      mmuCleanup isp.psys
      mmuCleanup isp.isys
      ipu6BusDelDevices
      release (.obj .firmware)) := fun isp =>
    .bind (mmuCleanup_keepsPm _) fun _ => .bind (mmuCleanup_keepsPm _) fun _ => .bind hdel fun _ =>
      .release nofun
  exact .bind .get fun isp => .ite (.bind (ipu6CpdFreePkgDir_keepsPm _) fun _ =>
    .bind (ipu6ButtressUnmapFwImage_keepsPm _) fun _ => hrest isp) (hrest isp)

theorem outIpuBridgeUninit_keepsPm (env : Env) : Keeps .psysPm (outIpuBridgeUninit env) := by
  refine .bind (.bind .get fun isp => .ite (.pure _) ?_) fun _ => outIpu6BusDelDevices_keepsPm
  exact .bind (.deref _) fun _ => .bind (.release (map_ne_obj nofun)) fun _ => .modify _

theorem outFreeIrq_keepsPm (env : Env) : Keeps .psysPm (outFreeIrq env) :=
  .bind (.release nofun) fun _ => outIpuBridgeUninit_keepsPm env

theorem ipu6CpdCreatePkgDir_keepsPm (env : Env) (sys : Ptr Dev) :
    Keeps .psysPm (ipu6CpdCreatePkgDir env sys) := by
  refine .bind (.load _) fun _ => .bind (.deref _) fun _ => .bind (.deref _) fun _ =>
    .bind (.deref _) fun _ => .ite (.pure _) (.bind (.acquire _) fun _ => .bind (.store _ _) fun _ => ?_)
  cases env.parseModuleData with
  | none => exact .pure _
  | some ret => exact .bind (ipu6DmaFree_keepsPm _ _) fun _ => .pure _

theorem mapFwPages_keepsPm (env : FwImageEnv) (sys : Ptr Dev) : Keeps .psysPm (mapFwPages env sys) := by
  have hfree : Keeps .psysPm (sgFreeTable sys) := .bind (.release nofun) fun _ => .store _ _
  have hmap : Keeps .psysPm (ipu6DmaMapSgtable env sys) := by
    unfold ipu6DmaMapSgtable
    cases env.ipu6DmaMapSg with
    | error e => exact .pure _
    | ok n =>
      exact .ite (.bind (.acquire _) fun _ => .bind (.store _ _) fun _ => .pure _)
        (.bind (.store _ _) fun _ => .pure _)
  refine .ite (.pure _) ?_
  cases env.sgAllocTable with
  | error e => exact .pure _
  | ok n =>
    refine .bind (.acquire _) fun _ => .bind (.store _ _) fun _ => ?_
    cases env.dmaMapSgtable with
    | error e => exact .bind hfree fun _ => .pure _
    | ok n =>
      refine .bind (.acquire _) fun _ => .bind (.store _ _) fun _ => .bind hmap fun ret => ?_
      cases ret with
      | none => exact .pure _
      | some e => exact .bind (.release nofun) fun _ => .bind hfree fun _ => .pure _

theorem ipu6ButtressMapFwImage_keepsPm (env : FwImageEnv) (sys : Ptr Dev) :
    Keeps .psysPm (ipu6ButtressMapFwImage env sys) :=
  .bind (.deref _) fun _ => .ite (.pure _) (.ite (.pure _) (.bind (.acquire _) fun _ =>
    .bind (mapFwPages_keepsPm env sys) fun _ => .bind (.release nofun) fun _ => .pure _))

theorem busInit_keepsPm (env : BusEnv) (d : Dev) : Keeps .psysPm (busInit env d) := by
  have hadev (p : Ptr Dev) : Keeps .psysPm (ipu6BusInitializeDevice env d p) := by
    refine .ite (.pure _) (.bind (.acquire _) fun _ => .bind (.store _ _) fun _ => ?_)
    cases env.auxiliaryDeviceInit with
    | none => exact .pure _
    | some e => exact .bind (.release nofun) fun _ => .pure _
  have hadd : Keeps .psysPm (ipu6BusAddDevice env d) := by
    unfold ipu6BusAddDevice
    cases env.auxiliaryDeviceAdd with
    | none => exact .bind (.modify _) fun _ => .pure _
    | some e => exact .bind (putDevice_keepsPm d) fun _ => .pure _
  refine .ite (.pure _) (.bind (.acquire _) fun _ => .bind (hadev _) fun p => ?_)
  cases p with
  | null => exact .bind (.release nofun) fun _ => .pure _
  | err e => exact .bind (.release nofun) fun _ => .pure _
  | obj _ =>
    cases env.ipu6MmuInit with
    | some e =>
      exact .bind (.store _ _) fun _ => .bind (putDevice_keepsPm d) fun _ =>
        .bind (.release nofun) fun _ => .bind (.map _ (.load _)) fun _ => .pure _
    | none =>
      refine .bind (.acquire _) fun _ => .bind (.store _ _) fun _ => .bind (.deref _) fun _ =>
        .bind hadd fun ret => ?_
      cases ret with
      | none => exact .pure _
      | some e => exact .bind (.release nofun) fun _ => .pure _

theorem ipu6IsysInit_keepsPm (env : Env) : Keeps .psysPm (ipu6IsysInit env) := by
  have hbridge : Keeps .psysPm (bridgeInstall env) := by
    unfold bridgeInstall
    cases env.bridgeInit with
    | error e => exact .pure _
    | ok b => exact .ite (.bind (.acquire _) fun _ => .bind (.modify _) fun _ => .pure _) (.pure _)
  unfold ipu6IsysInit
  cases env.checkFwnodeGraph with
  | none => exact busInit_keepsPm _ _
  | some e =>
    refine .ite (.pure _) (.bind hbridge fun ret => ?_)
    cases ret with
    | none => exact busInit_keepsPm _ _
    | some e => exact .pure _

-- ---------------------------------------------------------------------------
-- The bus devices
-- ---------------------------------------------------------------------------

section
variable {isp : Ipu6Device} {env : BusEnv} {d : Dev}

attribute [local simp] busInit ipu6BusInitializeDevice ipu6BusAddDevice putDevice acquire deref release
  load store Ptr.target Ptr.map

theorem busInit_early (isp : Ipu6Device) (d : Dev) (h : env.FailsEarly) (held : List Res) :
    (∃ e, (busInit env d isp).val.1 = .err e) ∧
      EndsIn (objects Res) held (busInit env d isp).log (· = held) ∧
        (busInit env d isp).val.2.psys = isp.psys ∧ (busInit env d isp).val.2.devices = isp.devices := by
  obtain ⟨pdata, adev, aux, mmu, add⟩ := env
  cases pdata with
  | false => simp [EndsIn]
  | true =>
    cases adev with
    | false => simp [EndsIn, objects, next, Allows, Ptr.Live]
    | true =>
      cases aux with
      | some e => simp [EndsIn, objects, next, Allows, Ptr.Live]
      | none => simp [BusEnv.FailsEarly] at h

theorem busInit_freed_twice (h : ¬ env.FailsEarly) (he : (busInit env d isp).val.1 = .err e)
    (held : List Res) (hnot : .pdata d ∉ held) :
    ¬ Clean (objects Res) held (busInit env d isp).log := by
  obtain ⟨pdata, adev, aux, mmu, add⟩ := env
  simp only [BusEnv.FailsEarly, not_or, Bool.not_eq_false, not_not] at h
  obtain ⟨rfl, rfl, rfl⟩ := h
  cases mmu with
  | some e => simp [objects, next, Allows, Ptr.Live, hnot]
  | none =>
    cases add with
    | some e => simp [objects, next, Allows, Ptr.Live, hnot]
    | none => simp at he

theorem busInit_result (env : BusEnv) (isp : Ipu6Device) (d : Dev) :
    (∃ e, (busInit env d isp).val.1 = .err e) ∨
      ((busInit env d isp).val.1 = .obj d ∧
        ((busInit env d isp).val.2.adev d).fwSgt.sgl = .null) := by
  obtain ⟨pdata, adev, aux, mmu, add⟩ := env
  cases pdata with
  | false => simp
  | true =>
    cases adev with
    | false => simp
    | true =>
      cases aux with
      | some e => simp
      | none =>
        cases mmu with
        | some e => simp
        | none =>
          cases add with
          | some e => simp
          | none => simp [Ipu6BusDevice.zero]

end

section
variable {isp : Ipu6Device} {env : Env}

theorem ipu6IsysInit_cases (env : Env) (isp : Ipu6Device) :
    (env.NoSensor ∧ ∃ e, ipu6IsysInit env isp = pure (.err e, isp)) ∨
      (¬ env.NoSensor ∧ (ipu6IsysInit env isp = busInit env.isys .isys isp ∨
        ipu6IsysInit env isp = Logged.emit (.get .bridge) >>= fun _ =>
          busInit env.isys .isys { isp with bridge := .obj () })) := by
  unfold ipu6IsysInit Env.NoSensor
  cases env.checkFwnodeGraph with
  | none => simp
  | some _ =>
    cases env.fwnodeSecondary with
    | true => exact .inl ⟨⟨nofun, .inl rfl⟩, _, rfl⟩
    | false =>
      simp only [bridgeInstall]
      cases env.bridgeInit with
      | error e => exact .inl ⟨⟨nofun, .inr ⟨e, rfl⟩⟩, e, rfl⟩
      | ok installed =>
        refine .inr ⟨by simp, ?_⟩
        cases hc : installed || env.virtSensor with
        | true =>
          right
          simp only [hc, Bool.false_eq_true, if_false, if_true]
          rfl
        | false =>
          left
          simp only [hc, Bool.false_eq_true, if_false]
          rfl

theorem ipu6IsysInit_early (isp : Ipu6Device) (h : env.NoSensor ∨ env.isys.FailsEarly) :
    (∃ e, (ipu6IsysInit env isp).val.1 = .err e) ∧
      EndsIn (objects Res) [.firmware] (ipu6IsysInit env isp).log
          (fun held => held = [.firmware] ∨ held = [.bridge, .firmware]) ∧
        (ipu6IsysInit env isp).val.2.psys = isp.psys ∧
          (ipu6IsysInit env isp).val.2.devices = isp.devices := by
  rcases ipu6IsysInit_cases env isp with ⟨-, e, heq⟩ | ⟨hsensor, heq | heq⟩
  · rw [heq]
    exact ⟨⟨e, rfl⟩, .nil (.inl rfl), rfl, rfl⟩
  · rw [heq]
    obtain ⟨he, hends, hkeep⟩ := busInit_early isp .isys (h.resolve_left hsensor) [.firmware]
    exact ⟨he, hends.imp fun _ hh => .inl hh, hkeep⟩
  · rw [heq]
    obtain ⟨he, hends, hkeep⟩ := busInit_early { isp with bridge := .obj () } .isys
      (h.resolve_left hsensor) [.bridge, .firmware]
    exact ⟨he, .cons trivial (hends.imp fun _ hh => .inr hh), hkeep⟩

theorem ipu6IsysInit_late (isp : Ipu6Device) (h : ¬ env.NoSensor) (hbus : ¬ env.isys.FailsEarly)
    (he : (ipu6IsysInit env isp).val.1 = .err e) :
    ¬ Clean (objects Res) [.firmware] (ipu6IsysInit env isp).log := by
  rcases ipu6IsysInit_cases env isp with ⟨hno, -⟩ | ⟨-, heq | heq⟩
  · exact absurd hno h
  · rw [heq] at he ⊢
    exact busInit_freed_twice hbus he _ (by simp)
  · rw [heq] at he ⊢
    rintro ⟨-, hclean⟩
    exact busInit_freed_twice hbus he [.bridge, .firmware] (by simp) hclean

theorem ipu6IsysInit_result (env : Env) (isp : Ipu6Device) : (∃ e, (ipu6IsysInit env isp).val.1 = .err e) ∨
    (ipu6IsysInit env isp).val.1 = .obj .isys := by
  rcases ipu6IsysInit_cases env isp with ⟨-, e, heq⟩ | ⟨-, heq | heq⟩
  · rw [heq]
    exact .inl ⟨e, rfl⟩
  · rw [heq]
    exact (busInit_result _ _ _).imp_right And.left
  · rw [heq]
    exact (busInit_result _ _ _).imp_right And.left

end

-- ---------------------------------------------------------------------------
-- The probe
-- ---------------------------------------------------------------------------

section
variable {isp : Ipu6Device} {env : Env}

theorem outIpu6BusDelDevices_early (isp : Ipu6Device) (hpsys : isp.psys = .null)
    (hisys : isp.isys = .null ∨ ∃ e, isp.isys = .err e) (hdev : isp.devices = []) :
    (outIpu6BusDelDevices isp).log = [.put (.obj .firmware)] := by
  rcases hisys with h | ⟨e, h⟩
  · simp [outIpu6BusDelDevices, mmuCleanup, ipu6BusDelDevices, release, hpsys, h, hdev]
  · simp [outIpu6BusDelDevices, mmuCleanup, ipu6BusDelDevices, release, hpsys, h, hdev]

theorem outLabel_keepsPm (ret : Errno) : Keeps .psysPm (do outIpuBridgeUninit env; return some ret) :=
  .bind (outIpuBridgeUninit_keepsPm env) fun _ => .pure _

theorem probePkgDir_keepsPm (h : (probePkgDir env isp).val.1 ≠ none) :
    Logged.All (· ≠ .put (.obj .psysPm)) (probePkgDir env isp) := by
  simp only [probePkgDir, bind_apply, get_apply, Logged.val_bind, Logged.all_bind, Logged.val_pure,
    Logged.all_pure, true_and] at h ⊢
  refine ⟨ipu6CpdCreatePkgDir_keepsPm env _ _, ?_⟩
  generalize (ipu6CpdCreatePkgDir env isp.psys isp).val = created at h ⊢
  obtain ⟨ret, isp⟩ := created
  cases ret with
  | some ret => exact outLabel_keepsPm ret isp
  | none =>
    cases hirq : env.requestIrq with
    | some ret =>
      exact outLabel_keepsPm ret isp
    | none =>
      simp only [hirq] at h ⊢
      cases hauth : env.authenticate with
      | some ret =>
        exact Keeps.bind (.acquire _) (fun _ => .bind (outFreeIrq_keepsPm env) fun _ => .pure _) isp
      | none =>
        simp [hauth] at h

/-- Without the runtime-PM reference there is no image either, and after it nothing
gives it back. -/
theorem probePsys_fails (h : (probePsys env isp).val.1 ≠ none) (hpsys : isp.psys = .obj .psys)
    (hsgl : (isp.adev .psys).fwSgt.sgl = .null) :
    .use .null ∈ (probePsys env isp).log ∨
      (.get .psysPm ∈ (probePsys env isp).log ∧
        Logged.All (· ≠ .put (.obj .psysPm)) (probePsys env isp)) := by
  cases hpm : env.pmRuntimeResumeAndGet with
  | some ret =>
    left
    have hkeep := bridgeRemove_keeps env isp
    have huses := uses_null (hkeep.1.trans hpsys) (by rw [hkeep.2]; exact hsgl)
    simp only [probePsys, hpm, outIpuBridgeUninit, bind_apply, get_apply, load_keeps, Logged.val_bind,
      Logged.log_bind, Logged.val_pure, List.mem_append]
    exact .inr (.inr (.inl (.inr huses)))
  | none =>
    right
    have hget : .get .psysPm ∈ (probePsys env isp).log := by
      simp [probePsys, hpm, acquire]
    refine ⟨hget, ?_⟩
    simp only [probePsys, hpm, bind_apply, get_apply, load_keeps, Logged.val_bind, Logged.all_bind,
      Logged.val_pure, Logged.all_pure, true_and] at h ⊢
    refine ⟨Keeps.load _ _, Keeps.acquire _ _, Keeps.deref _ _, ?_⟩
    cases hhw : env.ipu6MmuHwInit with
    | some ret => exact outLabel_keepsPm ret _
    | none =>
      simp only [hhw, bind_apply, Logged.val_bind, Logged.all_bind] at h ⊢
      refine ⟨ipu6ButtressMapFwImage_keepsPm _ _ _, ?_⟩
      generalize (ipu6ButtressMapFwImage env.fwImage isp.psys _).val = mapped at h ⊢
      obtain ⟨ret, isp⟩ := mapped
      cases ret with
      | some ret => exact outLabel_keepsPm ret isp
      | none => exact probePkgDir_keepsPm h

theorem probeIsys_early (h : env.NoSensor ∨ env.isys.FailsEarly) :
    EndsIn (objects Res) [.firmware] (probeIsys env .zero).log (∀ r ∈ ·, r = .bridge) := by
  obtain ⟨⟨e, he⟩, hends, hpsys, hdev⟩ := ipu6IsysInit_early .zero h
  simp only [probeIsys, bind_apply, modify_apply, Logged.log_bind, Logged.log_pure,
    Logged.val_pure, he]
  have hout := outIpu6BusDelDevices_early
    { (ipu6IsysInit env .zero).val.2 with isys := .err e } hpsys (.inr ⟨e, rfl⟩) hdev
  rw [hout, pure_apply, Logged.log_pure, List.append_nil, List.nil_append]
  refine hends.append fun held hheld => ?_
  rcases hheld with rfl | rfl
  · exact ⟨by decide, by decide⟩
  · exact ⟨by decide, by decide⟩

theorem probeIsys_late (hsensor : ¬ env.NoSensor) (hbus : ¬ env.isys.FailsEarly)
    (h : (probeIsys env .zero).val.1 ≠ none) :
    ¬ Clean (objects Res) [.firmware] (probeIsys env .zero).log ∨
      (.get .psysPm ∈ (probeIsys env .zero).log ∧
        Logged.All (· ≠ .put (.obj .psysPm)) (probeIsys env .zero)) := by
  have hlate {e : Errno} := @ipu6IsysInit_late _ e .zero hsensor hbus
  have hkeep := ipu6IsysInit_keepsPm env .zero
  have hresult := ipu6IsysInit_result env .zero
  simp only [probeIsys, bind_apply, modify_apply, Logged.log_bind, Logged.val_bind, Logged.log_pure,
    Logged.val_pure, Logged.all_bind, Logged.all_pure, true_and, List.nil_append, clean_append] at h ⊢
  generalize ipu6IsysInit env .zero = isys at *
  rcases hresult with ⟨e, he⟩ | he
  · exact .inl fun hclean => hlate he hclean.1
  · simp only [he, bind_apply, Logged.val_bind, Logged.log_bind, Logged.all_bind, modify_apply, Logged.log_pure,
      Logged.val_pure, Logged.all_pure, true_and, List.nil_append, clean_append] at h ⊢
    have hpsys := busInit_result env.psys { isys.val.2 with isys := .obj .isys } .psys
    have hkeep' := busInit_keepsPm env.psys .psys { isys.val.2 with isys := .obj .isys }
    rw [ipu6PsysInit] at h ⊢
    generalize busInit env.psys .psys _ = psys at *
    rcases hpsys with ⟨e, he⟩ | ⟨he, hsgl⟩
    · left
      simp only [he, outIpuBridgeUninit, bind_apply, Logged.log_bind, clean_append]
      rintro ⟨-, -, ⟨-, hout⟩, -⟩
      have hkeep := bridgeRemove_keeps env { psys.val.2 with psys := .err e }
      exact not_clean_of_use (uses_err hkeep.1) (by simp) hout
    · simp only [he] at h ⊢
      rcases probePsys_fails h rfl hsgl with huse | ⟨hget, hput⟩
      · exact .inl fun hclean => not_clean_of_use huse (by simp) hclean.2.2
      · exact .inr ⟨by simp [hget], hkeep, hkeep', hput⟩

end

/-- A failing probe gives back what it has, and nothing else, if and only if it
fails before it has an MMU. -/
theorem probe_unwinds_iff (env : Env) (h : (probe env).val ≠ none) :
    Unwinds (probe env).log ↔ FailsBeforeMmu env := by
  rw [probe, Logged.val_map] at h
  rw [probe, Logged.log_map]
  cases hreq : env.requestFirmware with
  | some ret =>
    simp only [ipu6PciProbe, hreq, pure_apply, Logged.log_pure]
    exact iff_of_true (.nil nofun) (.inl (by simp [hreq]))
  | none =>
    cases hval : env.validateCpdFile with
    | some ret =>
      have hout := outIpu6BusDelDevices_early .zero rfl (.inl rfl) rfl
      refine iff_of_true ?_ (.inr (.inl (by simp [hval])))
      simp only [ipu6PciProbe, hreq, hval, acquire, deref, bind_apply, log_apply, pure_apply,
        Logged.log_bind, Logged.val_bind, Logged.log_emit, Logged.log_pure, Logged.val_pure, hout]
      exact ⟨by decide, by decide⟩
    | none =>
      simp only [ipu6PciProbe, hreq, hval, acquire, deref, bind_apply, log_apply,
        Logged.log_bind, Logged.val_bind, Logged.log_emit, Logged.log_pure, Logged.val_pure] at h ⊢
      by_cases hearly : env.NoSensor ∨ env.isys.FailsEarly
      · refine iff_of_true ?_ (.inr (.inr hearly))
        exact .cons trivial (.cons (List.mem_singleton_self _) (probeIsys_early hearly))
      · obtain ⟨hsensor, hbus⟩ := not_or.mp hearly
        refine iff_of_false ?_ (by simp [FailsBeforeMmu, hreq, hval, hsensor, hbus])
        rcases probeIsys_late hsensor hbus h with hclean | ⟨hget, hput⟩
        · exact fun hunwinds => hclean hunwinds.1.2.2
        · refine not_unwinds_of_kept (r := .psysPm) (by simp [hget]) nofun ?_
          simpa using fun hmem => hput _ hmem rfl

/-- Answers with which the probe gets through. -/
def answers : Env where
  virtSensor := false
  requestFirmware := none
  validateCpdFile := none
  checkFwnodeGraph := some EINVAL
  fwnodeSecondary := false
  bridgeInit := .ok true
  isys := ⟨true, true, none, none, none⟩
  psys := ⟨true, true, none, none, none⟩
  pmRuntimeResumeAndGet := none
  ipu6MmuHwInit := none
  fwImage := ⟨true, true, true, .ok 1, .ok 1, .ok 1⟩
  ipu6DmaAlloc := true
  parseModuleData := none
  requestIrq := none
  authenticate := none

/-- The bridge is there, and the auxiliary device of the ISYS cannot be made. -/
theorem probe_unwinds_early :
    (probe { answers with isys := { answers.isys with auxiliaryDeviceInit := some EINVAL } }).val ≠ none ∧
      Unwinds (probe { answers with isys := { answers.isys with auxiliaryDeviceInit := some EINVAL } }).log :=
  ⟨by decide +kernel, (probe_unwinds_iff _ (by decide +kernel)).mpr (.inr (.inr (.inr (.inr (.inr nofun)))))⟩

/-- There is no memory for the platform data of the PSYS. -/
theorem failed_psys_followed :
    (probe { answers with psys := { answers.psys with kzallocPdata := false } }).val = some ENOMEM ∧
      ¬ Unwinds (probe { answers with psys := { answers.psys with kzallocPdata := false } }).log := by
  refine ⟨by decide +kernel, fun h => ?_⟩
  exact absurd h.1 (by decide +kernel)

end Ipu4.Probe
