import Ipu4.Capture.Queue

/-!
# How a stream start can end

`ipu6_isys_video_set_streaming` has some fifteen ways out. They fall into five
kinds, which the answers of the kernel and of the firmware decide, and each kind
leaves the driver in one state.
-/

namespace Ipu4.Capture

/-- The command list, the last one first, has an accepted `STREAM_OPEN` of stream
`h` after which no `STREAM_CLOSE` has been sent. -/
def stillOpen (h : Nat) : List Cmd → Bool
  | [] => false
  | c :: cs =>
    if c.handle = h then
      match c.type with
      | .streamOpen => c.accepted || stillOpen h cs
      | .streamClose => false
      | _ => stillOpen h cs
    else stillOpen h cs

/-- What happens to the firmware side on stream `k`: `counted` is whether
`stream_opened` went up, `left` whether the stream is still open. -/
structure Moves (k : Nat) (counted left : Bool) (fw fw' : Firmware) : Prop where
  cmds : ∃ new, fw'.cmds = new ++ fw.cmds ∧ ∀ h, stillOpen h new = (decide (h = k) && left)
  opened : fw'.streamOpened = fw.streamOpened + if counted then 1 else 0
  wrapped : fw'.wrapped = true → fw.wrapped = true ∨ fw.streamOpened + 1 = 0

structure SameLog (fw fw' : Firmware) : Prop where
  cmds : fw'.cmds = fw.cmds
  opened : fw'.streamOpened = fw.streamOpened
  wrapped : fw'.wrapped = fw.wrapped

theorem SameLog.refl (fw : Firmware) : SameLog fw fw := ⟨rfl, rfl, rfl⟩

theorem SameLog.moves (h : SameLog fw fw') (k : Nat) : Moves k false false fw fw' where
  cmds := ⟨[], h.cmds, by simp [stillOpen]⟩
  opened := by simpa using h.opened
  wrapped := fun hw => .inl (h.wrapped ▸ hw)

theorem SameLog.trans_moves (h : SameLog fw fw') (hm : Moves k counted left fw' fw'') :
    Moves k counted left fw fw'' where
  cmds := h.cmds ▸ hm.cmds
  opened := h.opened ▸ hm.opened
  wrapped := h.opened ▸ h.wrapped ▸ hm.wrapped

theorem Moves.trans_same (hm : Moves k counted left fw fw') (h : SameLog fw' fw'') :
    Moves k counted left fw fw'' where
  cmds := h.cmds ▸ hm.cmds
  opened := h.opened ▸ hm.opened
  wrapped := h.wrapped ▸ hm.wrapped

/-- The kinds of ends of a stream start: before an accepted `STREAM_OPEN`;
between that and the queueing of the buffers; before the stream has started;
when the sub-device could not be enabled; and success. -/
inductive SetResult where
  | refused
  | unanswered
  | unstarted
  | undone
  | started
  deriving DecidableEq, Repr

def FwStart.result (env : FwStart) (queues : List Nat) (bl : Bool) : SetResult :=
  if env.msg = false ∨ (∃ i ∈ queues, env.pinCfg i < 0) ∨ env.sendOpen = false then .refused
  else if env.openWait ≠ .done ∨ bl = true ∧ env.frameMsg = false then .unanswered
  else if env.sendStart = false ∨ env.startWait ≠ .done then .unstarted
  else .started

def SetEnv.result (env : SetEnv) (sourced : Bool) (queues : List Nat) (bl : Bool) : SetResult :=
  if sourced = false ∨ env.route ≠ 0 then .refused
  else if env.start.result queues bl = .started ∧ env.enable ≠ 0 then .undone
  else env.start.result queues bl

-- ---------------------------------------------------------------------------
-- The firmware
-- ---------------------------------------------------------------------------

theorem pinCfgs_spec (env : FwStart) (handle : Nat) (queues : List Nat) (n : Nat) (fw : Firmware) :
    ∃ fw' ret, pinCfgs env handle queues n fw = (fw', ret) ∧ SameLog fw fw' ∧
      (ret < 0 ↔ ∃ i ∈ queues, env.pinCfg i < 0) := by
  induction queues generalizing n fw with
  | nil => exact ⟨_, _, rfl, ⟨rfl, rfl, rfl⟩, by simp⟩
  | cons i is ih =>
    simp only [pinCfgs, List.exists_mem_cons_iff]
    by_cases hi : env.pinCfg i < 0
    · rw [if_pos hi]
      exact ⟨_, _, rfl, ⟨rfl, rfl, rfl⟩, by simp [hi]⟩
    · rw [if_neg hi]
      obtain ⟨fw', ret, hrun, hlog, hret⟩ := ih _ _
      exact ⟨fw', ret, hrun, ⟨hlog.cmds, hlog.opened, hlog.wrapped⟩, by simp [hret, hi]⟩

/-- The list's buffers, if there is a list, become active. -/
def activate (q : Bufs) : Option (List Buffer) → Bufs
  | none => q
  | some bl => ipu6IsysBufferListQueue q .active none bl

inductive FwOn (fw : Firmware) (q : Bufs) (k : Nat) (bl : Option (List Buffer)) :
    SetResult → Firmware × Bufs × Option (List Buffer) × Int → Prop
  | refused : Moves k false false fw fw' → ret < 0 → FwOn fw q k bl .refused (fw', q, bl, ret)
  | unanswered : Moves k false true fw fw' → ret < 0 → FwOn fw q k bl .unanswered (fw', q, bl, ret)
  | unstarted : Moves k false false fw fw' → ret < 0 →
      FwOn fw q k bl .unstarted (fw', activate q bl, bl.map fun _ => [], ret)
  | started : Moves k true true fw fw' →
      FwOn fw q k bl .started (fw', activate q bl, bl.map fun _ => [], 0)

/-- After an accepted `STREAM_OPEN`. -/
structure Opened (k : Nat) (fw fw' : Firmware) : Prop where
  cmds : fw'.cmds = ⟨k, .streamOpen, .zero, true⟩ :: fw.cmds
  opened : fw'.streamOpened = fw.streamOpened + 1
  wrapped : fw'.wrapped = fw.wrapped

theorem Opened.put (h : Opened k fw fw') : Moves k false true fw (putStreamOpened fw') where
  cmds := ⟨[_], h.cmds, fun h => by simp [stillOpen, eq_comm]⟩
  opened := by simp [putStreamOpened, h.opened]
  wrapped := by simp [putStreamOpened, h.opened, h.wrapped]

def Cmd.neutral (c : Cmd) : Prop := c.type ≠ .streamOpen ∧ c.type ≠ .streamClose

theorem stillOpen_neutral (hc : Cmd.neutral c) : stillOpen h (c :: cs) = stillOpen h cs := by
  obtain ⟨handle, type, frame, accepted⟩ := c
  cases type with
  | streamOpen => exact absurd rfl hc.1
  | streamClose => exact absurd rfl hc.2
  | _ => simp [stillOpen]

theorem Opened.started (h : Opened k fw fw') (hc : Cmd.neutral c) :
    Moves k true true fw { fw' with cmds := c :: fw'.cmds } where
  cmds := ⟨[c, _], congrArg (c :: ·) h.cmds, fun h => by
    rw [stillOpen_neutral hc]
    simp [stillOpen, eq_comm]⟩
  opened := h.opened
  wrapped := fun hw => .inl (h.wrapped ▸ hw)

theorem Opened.closed (h : Opened k fw fw') (hc : Cmd.neutral c) (env : FwStart) :
    Moves k false false fw (outStreamClose { fw' with cmds := c :: fw'.cmds } env k) where
  cmds := ⟨[⟨k, .streamClose, .zero, env.sendClose⟩, c, _],
    congrArg (fun cs => _ :: c :: cs) h.cmds, fun h => by
      rw [Bool.and_false]
      by_cases hk : k = h
      · simp [stillOpen, hk]
      · rw [stillOpen, if_neg hk, stillOpen_neutral hc]
        simp [stillOpen, hk]⟩
  opened := by
    show fw'.streamOpened - 1 = _
    simp [h.opened]
  wrapped := fun hw => by
    simpa [outStreamClose, putStreamOpened, ipu6FwIsysSimpleCmd, ipu6FwIsysComplexCmd, h.opened,
      h.wrapped] using hw

theorem Opened.start (h : Opened k fw fw') (env : FwStart) (frame : Option FrameBuffSet) :
    ∃ fw'' ret, startOpened fw' env k frame = (fw'', ret) ∧
      if env.sendStart = false ∨ env.startWait ≠ .done then Moves k false false fw fw'' ∧ ret < 0
      else Moves k true true fw fw'' ∧ ret = 0 := by
  obtain ⟨c, hc, hsend⟩ : ∃ c : Cmd, c.neutral ∧ startCmd fw' k frame env.sendStart =
      ({ fw' with cmds := c :: fw'.cmds }, if env.sendStart then 0 else -EBUSY) := by
    cases frame with
    | none => exact ⟨⟨k, .streamStart, .zero, env.sendStart⟩, by simp [Cmd.neutral], rfl⟩
    | some frame =>
      exact ⟨⟨k, .streamStartAndCapture, frame, env.sendStart⟩, by simp [Cmd.neutral], rfl⟩
  unfold startOpened
  rw [hsend]
  cases hs : env.sendStart with
  | false => exact ⟨_, _, rfl, by simpa using ⟨h.closed hc env, by decide⟩⟩
  | true =>
    cases hw : env.startWait with
    | done => exact ⟨_, _, rfl, by simpa using h.started hc⟩
    | timeout => exact ⟨_, _, rfl, by simpa using ⟨h.closed hc env, by decide⟩⟩
    | error => exact ⟨_, _, rfl, by simpa using ⟨h.closed hc env, by decide⟩⟩

theorem Opened.on (h : Opened k fw fw') (env : FwStart) (frame : Option FrameBuffSet) (q : Bufs)
    (bl : Option (List Buffer)) :
    FwOn fw q k bl (if env.sendStart = false ∨ env.startWait ≠ .done then .unstarted else .started)
      ((startOpened fw' env k frame).1, activate q bl, bl.map fun _ => [],
        (startOpened fw' env k frame).2) := by
  obtain ⟨fw'', ret, hrun, hif⟩ := h.start env frame
  rw [hrun]
  split at hif
  next hfail =>
    rw [if_pos hfail]
    exact .unstarted hif.1 hif.2
  next hfail =>
    obtain ⟨hmoves, rfl⟩ := hif
    rw [if_neg hfail]
    exact .started hmoves

theorem startStreamFirmware_on (fw : Firmware) (q : Bufs) (env : FwStart) (k : Nat)
    (queues : List Nat) (bl : Option (List Buffer)) :
    FwOn fw q k bl (env.result queues bl.isSome) (startStreamFirmware fw q env k queues bl) := by
  obtain ⟨fw₁, ret, hpins, hlog, hret⟩ := pinCfgs_spec env k queues 0 fw
  unfold FwStart.result startStreamFirmware
  cases hmsg : env.msg with
  | false => exact .refused ((SameLog.refl fw).moves k) (by decide)
  | true =>
    by_cases hpin : ∃ i ∈ queues, env.pinCfg i < 0
    · simp only [hpins, hpin, hret.mpr hpin, Bool.not_true, Bool.false_eq_true, if_true, if_false,
        true_or, or_true]
      exact .refused (hlog.moves k) (hret.mpr hpin)
    · have hret := mt hret.mp hpin
      cases hsend : env.sendOpen with
      | false =>
        simp only [hpins, hpin, hret, ipu6FwIsysComplexCmd, Bool.not_true, Bool.false_eq_true,
          if_true, if_false, or_true]
        exact .refused ⟨⟨[_], congrArg (_ :: ·) hlog.cmds, by simp [stillOpen]⟩,
          by simpa using hlog.opened, fun h => .inl (hlog.wrapped ▸ h)⟩ (by decide)
      | true =>
        have hop : Opened k fw (getStreamOpened { fw₁ with
            cmds := ⟨k, .streamOpen, .zero, true⟩ :: fw₁.cmds }) :=
          ⟨congrArg (_ :: ·) hlog.cmds, congrArg (· + 1) hlog.opened, hlog.wrapped⟩
        simp only [hpins, hpin, hret, ipu6FwIsysComplexCmd, Bool.not_true, Bool.false_eq_true,
          Bool.true_eq_false, if_true, if_false, false_or, Int.lt_irrefl]
        generalize getStreamOpened _ = fw₂ at hop
        cases hwait : env.openWait with
        | timeout => exact .unanswered hop.put (by decide)
        | error => exact .unanswered hop.put (by decide)
        | done =>
          cases bl with
          | none =>
            simp only [Option.isSome_none, Bool.false_eq_true, ne_eq, not_true, false_and, or_false,
              if_false]
            exact hop.on env none q none
          | some bl =>
            cases hframe : env.frameMsg with
            | false => exact .unanswered hop.put (by decide)
            | true =>
              simp only [Bool.not_true, Bool.false_eq_true, Bool.true_eq_false, ne_eq, not_true,
                and_false, or_false, if_false]
              exact hop.on env (some (ipu6IsysBufToFwFrameBuf fw₂ bl)) q (some bl)

-- ---------------------------------------------------------------------------
-- The node
-- ---------------------------------------------------------------------------

inductive SetOn (s : Isys) (i k : Nat) (bl : Option (List Buffer)) :
    SetResult → Isys × Option (List Buffer) × Int → Prop
  | refused : Moves k false false s.fw fw → ret ≠ 0 →
      SetOn s i k bl .refused ({ s with fw := fw }, bl, ret)
  | unanswered : Moves k false true s.fw fw → ret ≠ 0 →
      SetOn s i k bl .unanswered ({ s with fw := fw }, bl, ret)
  | unstarted : Moves k false false s.fw fw → ret ≠ 0 → SetOn s i k bl .unstarted
      ({ s with fw := fw, bufs := activate s.bufs bl }, bl.map fun _ => [], ret)
  | undone : Moves k true true s.fw fw → ret ≠ 0 → SetOn s i k bl .undone
      ({ s with fw := fw, bufs := activate s.bufs bl }, bl.map fun _ => [], ret)
  | started : Moves k true true s.fw fw → SetOn s i k bl .started
      (({ s with fw := fw, bufs := activate s.bufs bl }).setAv i { s.av i with streaming := true },
        bl.map fun _ => [], 0)

theorem Moves.flush (h : Moves k counted left fw fw') (sendFlush : Bool) :
    Moves k counted left fw (stopStreamingFirmware fw' k sendFlush) where
  cmds := by
    obtain ⟨new, hnew, hopen⟩ := h.cmds
    refine ⟨⟨k, .streamFlush, .zero, sendFlush⟩ :: new, congrArg (_ :: ·) hnew, fun h => ?_⟩
    rw [stillOpen_neutral (by simp [Cmd.neutral]), hopen]
  opened := h.opened
  wrapped := h.wrapped

theorem setStreaming_on (s : Isys) (env : SetEnv) (i k : Nat) (bl : Option (List Buffer)) :
    SetOn s i k bl
      (env.result (s.streams k).sourceEntity.isSome (s.streams k).queues bl.isSome)
      (ipu6IsysVideoSetStreaming s env i k true bl) := by
  have hsame : Moves k false false s.fw s.fw := (SameLog.refl s.fw).moves k
  unfold SetEnv.result ipu6IsysVideoSetStreaming
  cases hsrc : (s.streams k).sourceEntity with
  | none => exact .refused hsame (by decide)
  | some e =>
    by_cases hroute : env.route = 0
    · have hon := startStreamFirmware_on s.fw s.bufs env.start k (s.streams k).queues bl
      generalize startStreamFirmware s.fw s.bufs env.start k (s.streams k).queues bl = r at hon ⊢
      generalize env.start.result (s.streams k).queues bl.isSome = res at hon ⊢
      simp only [reduceCtorEq, Option.isSome_some, hroute, Bool.not_true, Bool.false_eq_true,
        Bool.true_eq_false, ne_eq, not_true, or_false, if_false]
      cases hon with
      | refused hm hret =>
        simp only [reduceCtorEq, false_and, if_false, Int.ne_of_lt hret, not_false_eq_true, if_true]
        exact .refused hm (Int.ne_of_lt hret)
      | unanswered hm hret =>
        simp only [reduceCtorEq, false_and, if_false, Int.ne_of_lt hret, not_false_eq_true, if_true]
        exact .unanswered hm (Int.ne_of_lt hret)
      | unstarted hm hret =>
        simp only [reduceCtorEq, false_and, if_false, Int.ne_of_lt hret, not_false_eq_true, if_true]
        exact .unstarted hm (Int.ne_of_lt hret)
      | started hm =>
        by_cases hen : env.enable = 0
        · simp only [hen, not_true, and_false, if_false]
          exact .started hm
        · simp only [hen, not_true, not_false_eq_true, and_self, if_true, if_false]
          exact .undone (hm.flush _) hen
    · simp only [reduceCtorEq, hroute, ne_eq, not_false_eq_true, or_true, if_true, if_false]
      exact .refused hsame hroute

def switchedOff (fw : Firmware) (env : SetEnv) (k : Nat) : Firmware :=
  closeStreamingFirmware (stopStreamingFirmware fw k env.sendFlush) k env.sendClose

/-- Switching a stream off fails as a whole, or closes it. -/
inductive SetOff (s : Isys) (env : SetEnv) (i k : Nat) : Isys × Option (List Buffer) × Int → Prop
  | failed : ((s.streams k).sourceEntity = none ∨ env.route ≠ 0 ∨ env.disable ≠ 0) →
      Moves k false false s.fw fw → ret ≠ 0 → SetOff s env i k ({ s with fw := fw }, none, ret)
  | closed : (s.streams k).sourceEntity ≠ none → env.route = 0 → env.disable = 0 →
      SetOff s env i k (({ s with fw := switchedOff s.fw env k }).setAv i
        { s.av i with streaming := false }, none, 0)

theorem setStreaming_off (s : Isys) (env : SetEnv) (i k : Nat) :
    SetOff s env i k (ipu6IsysVideoSetStreaming s env i k false none) := by
  have hsame : Moves k false false s.fw s.fw := (SameLog.refl s.fw).moves k
  unfold ipu6IsysVideoSetStreaming
  by_cases hsrc : (s.streams k).sourceEntity = none
  · rw [if_pos hsrc]
    exact .failed (.inl hsrc) hsame (by decide)
  rw [if_neg hsrc]
  by_cases hroute : env.route = 0
  · rw [if_neg (not_not.mpr hroute)]
    by_cases hdis : env.disable = 0
    · rw [if_pos (by rfl), if_neg (not_not.mpr hdis)]
      exact .closed hsrc hroute hdis
    · rw [if_pos (by rfl), if_pos hdis]
      exact .failed (.inr (.inr hdis)) (hsame.flush _) hdis
  · rw [if_pos hroute]
    exact .failed (.inr (.inl hroute)) hsame hroute

-- ---------------------------------------------------------------------------
-- The capture loop
-- ---------------------------------------------------------------------------

theorem lt_sets_iff (q : Bufs) (hq : queues ≠ []) (n : Nat) :
    n < sets q queues ↔ ∀ i ∈ queues, n < (q.incoming i).length := by
  unfold sets
  cases hmin : (queues.map fun i => (q.incoming i).length).min? with
  | none => simp [hq] at hmin
  | some m =>
    obtain ⟨hmem, hle⟩ := List.min?_eq_some_iff.mp hmin
    simp only [List.mem_map, forall_exists_index, and_imp, forall_apply_eq_imp_iff₂] at hmem hle
    obtain ⟨i, hi, rfl⟩ := hmem
    exact ⟨fun h j hj => Nat.lt_of_lt_of_le h (hle j hj), fun h => h i hi⟩

theorem sets_eq_of_less (hq : queues ≠ []) (hn : sets q queues = n + 1)
    (hless : ∀ i ∈ queues, (q'.incoming i).length + 1 = (q.incoming i).length) :
    sets q' queues = n := by
  have hlt : ∀ m, m < sets q' queues ↔ m < n := by
    intro m
    rw [lt_sets_iff q' hq, show m < n ↔ m + 1 < sets q queues by omega, lt_sets_iff q hq]
    refine forall₂_congr fun i hi => ?_
    have := hless i hi
    omega
  have h₁ := hlt n
  have h₂ := hlt (sets q' queues)
  omega

/-- Some round finds a set of buffers and no message for it. -/
def CaptureEnv.Fails (env : CaptureEnv) (j n : Nat) : Prop :=
  ∃ m < n, (∀ l < m, env.msg (j + l) = true ∧ env.send (j + l) = true) ∧ env.msg (j + m) = false

theorem CaptureEnv.fails_succ (env : CaptureEnv) (j n : Nat) :
    env.Fails j (n + 1) ↔
      env.msg j = false ∨ env.msg j = true ∧ env.send j = true ∧ env.Fails (j + 1) n := by
  constructor
  · rintro ⟨m, hm, hall, hfail⟩
    cases m with
    | zero => exact .inl hfail
    | succ m =>
      obtain ⟨hmsg, hsend⟩ := hall 0 (Nat.succ_pos m)
      refine .inr ⟨hmsg, hsend, m, Nat.lt_of_succ_lt_succ hm, fun l hl => ?_, ?_⟩
      · simpa [Nat.add_right_comm, Nat.add_assoc] using hall (l + 1) (Nat.succ_lt_succ hl)
      · simpa [Nat.add_right_comm, Nat.add_assoc] using hfail
  · rintro (hfail | ⟨hmsg, hsend, m, hm, hall, hfail⟩)
    · exact ⟨0, Nat.succ_pos n, by simp, hfail⟩
    · refine ⟨m + 1, Nat.succ_lt_succ hm, fun l hl => ?_, ?_⟩
      · cases l with
        | zero => exact ⟨hmsg, hsend⟩
        | succ l =>
          simpa [Nat.add_right_comm, Nat.add_assoc] using hall l (Nat.lt_of_succ_lt_succ hl)
      · simpa [Nat.add_right_comm, Nat.add_assoc] using hfail

structure Captures (fw fw' : Firmware) : Prop where
  cmds : ∃ new, fw'.cmds = new ++ fw.cmds ∧ ∀ c ∈ new, c.neutral
  opened : fw'.streamOpened = fw.streamOpened
  wrapped : fw'.wrapped = fw.wrapped

theorem Captures.refl (fw : Firmware) : Captures fw fw := ⟨⟨[], rfl, by simp⟩, rfl, rfl⟩

theorem Captures.send (h : Captures { fw with cmds := c :: fw.cmds } fw') (hc : c.neutral) :
    Captures fw fw' where
  cmds := by
    obtain ⟨new, hnew, hall⟩ := h.cmds
    refine ⟨new ++ [c], by simp [hnew], fun d hd => ?_⟩
    rcases List.mem_append.mp hd with hd | hd
    · exact hall d hd
    · exact List.mem_singleton.mp hd ▸ hc
  opened := h.opened
  wrapped := h.wrapped

theorem stillOpen_append_neutral (hnew : ∀ c ∈ new, Cmd.neutral c) :
    stillOpen h (new ++ cs) = stillOpen h cs := by
  induction new with
  | nil => rfl
  | cons c new ih =>
    obtain ⟨hc, hnew⟩ := List.forall_mem_cons.mp hnew
    exact (stillOpen_neutral hc).trans (ih hnew)

theorem Moves.captures (h : Moves k counted left fw fw') (hc : Captures fw' fw'') :
    Moves k counted left fw fw'' where
  cmds := by
    obtain ⟨new, hnew, hopen⟩ := h.cmds
    obtain ⟨new', hnew', hall⟩ := hc.cmds
    exact ⟨new' ++ new, by simp [hnew', hnew], fun h => (stillOpen_append_neutral hall).trans (hopen h)⟩
  opened := hc.opened.trans h.opened
  wrapped := fun hw => h.wrapped (hc.wrapped ▸ hw)

/-- The loop of the source has no bound: with more rounds than complete sets it
ends the same way. -/
theorem captureLoop_rounds (env : CaptureEnv) (k : Nat) (hnd : queues.Nodup) (hq : queues ≠ [])
    (hown : ∀ i, ∀ b ∈ q.incoming i, b.queue = i) (hn : sets q queues = n) (m j : Nat)
    (fw : Firmware) :
    captureLoop env k queues (n + m) j fw q = captureLoop env k queues n j fw q := by
  induction n generalizing q j fw with
  | zero =>
    cases m with
    | zero => rfl
    | succ m =>
      rw [Nat.zero_add, captureLoop, captureLoop]
      cases hget : bufferListGet q queues [] with
      | mk q₁ r =>
      cases r with
      | none => rw [bufferListGet_none_eq hown hget]; rfl
      | some bl =>
        obtain ⟨-, -, hless⟩ := bufferListGet_some hnd hget
        have hpos : 0 < sets q queues := (lt_sets_iff q hq 0).mpr fun i hi => by
          have := hless i hi
          omega
        omega
  | succ n ih =>
    rw [Nat.succ_add, captureLoop, captureLoop]
    cases hget : bufferListGet q queues [] with
    | mk q₁ r =>
    cases r with
    | none => rfl
    | some bl =>
      obtain ⟨-, -, hless⟩ := bufferListGet_some hnd hget
      dsimp only
      rw [ih]
      · intro i b hb
        rw [incoming_queue_active] at hb
        exact hown i b (bufferListGet_incoming hget hb)
      · refine sets_eq_of_less hq hn fun i hi => ?_
        rw [incoming_queue_active]
        exact hless i hi

theorem captureLoop_spec (env : CaptureEnv) (k : Nat) (hnd : queues.Nodup) (hq : queues ≠ [])
    (hn : sets q queues = n) (j : Nat) (fw : Firmware) :
    ∃ fw' q' ret, captureLoop env k queues n j fw q = (fw', q', ret) ∧ Captures fw fw' ∧
      (ret ≠ 0 ↔ env.Fails j n) ∧
      (Accounted q [] → if ret = 0 then Accounted q' [] else Missing q') := by
  induction n generalizing q j fw with
  | zero => exact ⟨fw, q, 0, rfl, .refl fw, by simp [CaptureEnv.Fails], id⟩
  | succ n ih =>
    simp only [captureLoop]
    have hall := (lt_sets_iff q hq n).mp (by omega)
    cases hget : bufferListGet q queues [] with
    | mk q₁ r =>
    cases r with
    | none =>
      obtain ⟨i, hi, hnil⟩ := bufferListGet_none hnd hget
      have := hall i hi
      simp [hnil] at this
    | some bl =>
      obtain ⟨hlen, -, hless⟩ := bufferListGet_some hnd hget
      have hbl : bl ≠ [] := by
        rintro rfl
        exact hq (List.length_eq_zero_iff.mp (by simpa using hlen.symm))
      cases hmsg : env.msg j with
      | false =>
        refine ⟨fw, q₁, -ENOMEM, rfl, .refl fw, ?_, fun hacc => ?_⟩
        · simp [CaptureEnv.fails_succ, hmsg, ENOMEM]
        · exact (hacc.get hget).missing hbl
      | true =>
        have hact : ∀ hacc : Accounted q [], Accounted (ipu6IsysBufferListQueue q₁ .active none bl) [] :=
          fun hacc => (hacc.get hget).queue .active
        cases hsend : env.send j with
        | false =>
          refine ⟨_, _, 0, rfl, (Captures.refl _).send (by simp [Cmd.neutral]), ?_, ?_⟩
          · simp [CaptureEnv.fails_succ, hmsg, hsend]
          · exact fun hacc => hact hacc
        | true =>
          have hsets : sets (ipu6IsysBufferListQueue q₁ .active none bl) queues = n := by
            refine sets_eq_of_less hq hn fun i hi => ?_
            rw [incoming_queue_active]
            exact hless i hi
          obtain ⟨fw', q', ret, hrun, hcap, hret, hacc'⟩ := ih hsets (j + 1)
            { fw with cmds := ⟨k, .streamCapture, ipu6IsysBufToFwFrameBuf fw bl, true⟩ :: fw.cmds }
          refine ⟨fw', q', ret, hrun, hcap.send (by simp [Cmd.neutral]), ?_, fun hacc => hacc' (hact hacc)⟩
          rw [hret]
          simp [CaptureEnv.fails_succ, hmsg, hsend]

-- ---------------------------------------------------------------------------
-- Starting for real
-- ---------------------------------------------------------------------------

def SetResult.counted (r : SetResult) : Bool := r = .undone || r = .started

def SetResult.left (r : SetResult) : Bool := r = .unanswered || r = .undone || r = .started

def SetResult.queued (r : SetResult) : Bool := r ≠ .refused && r ≠ .unanswered

inductive StreamStart (s : Isys) (env : StreamStartEnv) (i k : Nat) (bl : List Buffer)
    (error : Bool) : SetResult → Isys × Int → Prop
  | failed : r ≠ .started → ret ≠ 0 → Moves k r.counted r.left s.fw fw →
      (Accounted s.bufs bl → bl ≠ [] →
        if error = true ∧ r.queued = false then Leaked q else Accounted q []) →
      StreamStart s env i k bl error r ({ s with fw := fw, bufs := q }, ret)
  | started : (ret ≠ 0 ↔ env.capture.Fails 0 (sets s.bufs (s.streams k).queues)) →
      Moves k true true s.fw fw →
      (Accounted s.bufs bl → if ret = 0 then Accounted q [] else Missing q) →
      StreamStart s env i k bl error .started
        ((({ s with fw := fw, bufs := q }).setAv i { s.av i with streaming := true }).setStream k
          { s.streams k with streaming := true }, ret)

theorem streamStart_spec (s : Isys) (env : StreamStartEnv) (i k : Nat) (bl : List Buffer)
    (error : Bool) (hnd : (s.streams k).queues.Nodup) (hq : (s.streams k).queues ≠ []) :
    StreamStart s env i k bl error
      (env.set.result (s.streams k).sourceEntity.isSome (s.streams k).queues true)
      (ipu6IsysStreamStart s env i k bl error) := by
  have hon := setStreaming_on s env.set i k (some bl)
  unfold ipu6IsysStreamStart
  rw [Option.isSome_some] at hon
  generalize ipu6IsysVideoSetStreaming s env.set i k true (some bl) = r at hon ⊢
  generalize env.set.result (s.streams k).sourceEntity.isSome (s.streams k).queues true = res at hon ⊢
  cases hon with
  | refused hm hret =>
    simp only [ne_eq, hret, not_false_eq_true, if_true]
    refine .failed (by decide) hret hm fun hacc hbl => ?_
    cases error with
    | false => exact (hacc.queue .incoming).flush _ _
    | true => exact (leaked_queue_done hbl _ _).flush _ _
  | unanswered hm hret =>
    simp only [ne_eq, hret, not_false_eq_true, if_true]
    refine .failed (by decide) hret hm fun hacc hbl => ?_
    cases error with
    | false => exact (hacc.queue .incoming).flush _ _
    | true => exact (leaked_queue_done hbl _ _).flush _ _
  | unstarted hm hret =>
    simp only [ne_eq, hret, not_false_eq_true, if_true]
    refine .failed (by decide) hret hm fun hacc _ => ?_
    rw [if_neg (by simp [SetResult.queued])]
    exact (hacc.queue .active).flush _ _
  | undone hm hret =>
    simp only [ne_eq, hret, not_false_eq_true, if_true]
    refine .failed (by decide) hret hm fun hacc _ => ?_
    rw [if_neg (by simp [SetResult.queued])]
    exact (hacc.queue .active).flush _ _
  | @started fw hm =>
    have hsets : sets (activate s.bufs (some bl)) (s.streams k).queues =
        sets s.bufs (s.streams k).queues := by
      simp only [sets, activate, incoming_queue_active]
    obtain ⟨fw', q', ret, hrun, hcap, hret, hacc⟩ := captureLoop_spec env.capture k hnd hq hsets 0 fw
    simp only [Isys.setAv, Isys.setStream, ne_eq, not_true, if_false, hsets, hrun]
    exact .started hret (hm.captures hcap) fun hb => hacc (hb.queue .active)

end Ipu4.Capture
