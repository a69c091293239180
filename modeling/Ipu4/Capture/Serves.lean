import Ipu4.Capture.Calls
import Ipu4.Capture.Interleaved

/-!
# What the steps leave to others

Which active lists a step can put buffers on, which pins it can set, and that
nothing else of it is seen by the other nodes or by the response handler.
-/

namespace Ipu4.Capture.Interleaved

-- ---------------------------------------------------------------------------
-- What the lists are fed with
-- ---------------------------------------------------------------------------

/-- The buffers are in the lists of their own queues. -/
structure Owned (q : Bufs) : Prop where
  incoming : ∀ i, ∀ b ∈ q.incoming i, b.queue = i
  active : ∀ i, ∀ b ∈ q.active i, b.queue = i

/-- At most the active lists of the queues `js` get buffers. -/
structure Feeds (js : List Nat) (q q' : Bufs) : Prop where
  own : Owned q → Owned q'
  active : ∀ j, ∀ b ∈ q'.active j, b ∈ q.active j ∨ j ∈ js

section
variable {q q' q'' : Bufs} {js : List Nat} {i : Nat} {b : Buffer}

theorem Feeds.refl (js : List Nat) (q : Bufs) : Feeds js q q := ⟨id, fun _ _ h => .inl h⟩

theorem Feeds.trans (h : Feeds js q q') (h' : Feeds js q' q'') : Feeds js q q'' where
  own := fun ho => h'.own (h.own ho)
  active := fun j b hb => (h'.active j b hb).elim (h.active j b) .inr

theorem Feeds.mono (h : Feeds js q q') (hsub : ∀ j ∈ js, j ∈ js') : Feeds js' q q' where
  own := h.own
  active := fun j b hb => (h.active j b hb).imp_right (hsub j)

theorem Feeds.weaken (h : Feeds [] q q') (js : List Nat) : Feeds js q q' :=
  h.mono fun _ hj => nomatch hj

theorem feeds_done (q : Bufs) (b : Buffer) (state : VbState) : Feeds [] q (vb2BufferDone q b state) :=
  ⟨fun h => ⟨h.incoming, h.active⟩, fun _ _ h => .inl h⟩

theorem feeds_setIncoming (hl : Owned q → ∀ b ∈ l, b.queue = i) : Feeds [] q (q.setIncoming i l) where
  own := fun h => by
    refine ⟨fun j c hc => ?_, h.active⟩
    by_cases hj : j = i
    · subst hj
      rw [incoming_setIncoming] at hc
      exact hl h c hc
    · rw [incoming_setIncoming_of_ne hj] at hc
      exact h.incoming j c hc
  active := fun _ _ h => .inl h

theorem active_setActive (q : Bufs) (i j : Nat) (l : List Buffer) :
    (q.setActive i l).active j = if j = i then l else q.active j :=
  Function.update_apply q.active i l j

theorem feeds_setActive (hl : ∀ b ∈ l, b ∈ q.active i) : Feeds [] q (q.setActive i l) where
  own := fun h => by
    refine ⟨h.incoming, fun j c hc => ?_⟩
    rw [active_setActive] at hc
    split at hc
    next hj => exact hj ▸ h.active i c (hl c hc)
    · exact h.active j c hc
  active := fun j b hb => by
    rw [active_setActive] at hb
    split at hb
    next heq => exact .inl (heq ▸ hl b hb)
    · exact .inl hb

theorem feeds_queueOne (fl : ListFlag) (state : Option VbState) (q : Bufs) (b : Buffer) :
    Feeds (if fl = .active then [b.queue] else []) q (listQueueOne fl state q b) := by
  have hlist : Feeds (if fl = .active then [b.queue] else []) q (listQueueOne fl none q b) := by
    cases fl with
    | active =>
      refine ⟨fun h => ⟨h.incoming, fun j c hc => ?_⟩, fun j c hc => ?_⟩
      · simp only [listQueueOne, active_setActive] at hc
        split at hc
        next hj =>
          rcases List.mem_cons.mp hc with rfl | hc
          · exact hj.symm
          · exact hj ▸ h.active b.queue c hc
        · exact h.active j c hc
      · simp only [listQueueOne, active_setActive] at hc
        split at hc
        next heq => exact .inr (by simp [heq])
        · exact .inl hc
    | incoming =>
      refine feeds_setIncoming fun h c hc => ?_
      rcases List.mem_append.mp hc with hc | hc
      · exact h.incoming b.queue c hc
      · rw [List.mem_singleton.mp hc]
  cases state with
  | none => exact hlist
  | some state => exact hlist.trans ((feeds_done _ b state).weaken _)

theorem feeds_queue_active (q : Bufs) (state : Option VbState) (bl : List Buffer) :
    Feeds (bl.map Buffer.queue) q (ipu6IsysBufferListQueue q .active state bl) := by
  induction bl generalizing q with
  | nil => exact .refl _ q
  | cons b bl ih =>
    refine ((feeds_queueOne .active state q b).mono fun j hj => ?_).trans
      ((ih _).mono fun j hj => List.mem_cons_of_mem _ hj)
    rw [if_pos rfl] at hj
    rw [List.mem_singleton.mp hj]
    exact List.mem_cons_self

theorem feeds_queue_incoming (q : Bufs) (state : Option VbState) (bl : List Buffer) :
    Feeds [] q (ipu6IsysBufferListQueue q .incoming state bl) := by
  induction bl generalizing q with
  | nil => exact .refl _ q
  | cons b bl ih => exact (feeds_queueOne .incoming state q b).trans (ih _)

theorem feeds_get (hget : bufferListGet q is bl = (q', r)) : Feeds [] q q' := by
  induction is generalizing q bl with
  | nil =>
    obtain ⟨rfl, -⟩ := Prod.mk.inj hget
    exact .refl _ q
  | cons i is ih =>
    simp only [bufferListGet] at hget
    split at hget
    · obtain ⟨rfl, -⟩ := Prod.mk.inj hget
      exact feeds_queue_incoming q none bl
    · exact (feeds_setIncoming fun h c hc => h.incoming i c (List.mem_of_mem_dropLast hc)).trans
        (ih hget)

theorem Owned.got (h : Owned q) (hget : bufferListGet q is bl = (q', some bl')) (hb : b ∈ bl') :
    b ∈ bl ∨ b.queue ∈ is := by
  induction is generalizing q bl with
  | nil =>
    obtain rfl := Option.some.inj (Prod.mk.inj hget).2
    exact .inl hb
  | cons i is ih =>
    simp only [bufferListGet] at hget
    split at hget
    · cases hget
    next c hc =>
      have hown : Owned (q.setIncoming i (q.incoming i).dropLast) :=
        (feeds_setIncoming fun h c hc => h.incoming i c (List.mem_of_mem_dropLast hc)).own h
      rcases ih hown hget with hb | hb
      · rcases List.mem_cons.mp hb with rfl | hb
        · exact .inr (h.incoming i b (List.mem_of_getLast? hc) ▸ List.mem_cons_self)
        · exact .inl hb
      · exact .inr (List.mem_cons_of_mem _ hb)

/-- What `flush_firmware_streamon_fail` does with the buffers `l` of queue `i`. -/
def unload (streaming : Bool) (i : Nat) (l : List Buffer) (q : Bufs) : Bufs :=
  l.foldl (fun q b =>
    if streaming then q.setIncoming i (b :: q.incoming i) else vb2BufferDone q b .queued) q

theorem unload_cons (streaming : Bool) (i : Nat) (b : Buffer) (l : List Buffer) (q : Bufs) :
    unload streaming i (b :: l) q = unload streaming i l
      (if streaming then q.setIncoming i (b :: q.incoming i) else vb2BufferDone q b .queued) := rfl

theorem active_unload (streaming : Bool) (i : Nat) (l : List Buffer) (q : Bufs) :
    (unload streaming i l q).active = q.active := by
  induction l generalizing q with
  | nil => rfl
  | cons b l ih =>
    rw [unload_cons, ih]
    split
    · rfl
    · rfl

theorem Owned.unload (h : Owned q) (streaming : Bool) (hl : ∀ b ∈ l, b.queue = i) :
    Owned (Interleaved.unload streaming i l q) := by
  induction l generalizing q with
  | nil => exact h
  | cons b l ih =>
    obtain ⟨hb, hl⟩ := List.forall_mem_cons.mp hl
    rw [unload_cons]
    refine ih ?_ hl
    split
    · refine (feeds_setIncoming fun h c hc => ?_).own h
      rcases List.mem_cons.mp hc with rfl | hc
      · exact hb
      · exact h.incoming i c hc
    · exact (feeds_done q b .queued).own h

theorem feeds_flushQueue (streaming : Nat → Bool) (q : Bufs) (i : Nat) :
    Feeds [] q (flushQueue streaming q i) := by
  have hcleared : Feeds [] q (q.setActive i []) := feeds_setActive fun _ h => nomatch h
  have hflush : flushQueue streaming q i = unload (streaming i) i (q.active i) (q.setActive i []) := rfl
  rw [hflush]
  refine ⟨fun h => (hcleared.own h).unload _ (h.active i), fun j b hb => ?_⟩
  rw [active_unload] at hb
  exact hcleared.active j b hb

theorem feeds_flush (streaming : Nat → Bool) (queues : List Nat) (q : Bufs) :
    Feeds [] q (flushFirmwareStreamonFail streaming queues q) := by
  induction queues generalizing q with
  | nil => exact .refl _ q
  | cons i is ih => exact (feeds_flushQueue streaming q i).trans (ih _)

theorem feeds_addIncoming (s : Isys) (b : Buffer) : Feeds [] s.bufs (s.addIncoming b).bufs := by
  have hheld : Feeds [] s.bufs { s.bufs with held := insert b s.bufs.held } :=
    ⟨fun h => ⟨h.incoming, h.active⟩, fun _ _ h => .inl h⟩
  refine hheld.trans (feeds_setIncoming fun h c hc => ?_)
  rcases List.mem_cons.mp hc with rfl | hc
  · rfl
  · exact h.incoming b.queue c hc

theorem feeds_captureLoop (env : CaptureEnv) (k : Nat) (queues : List Nat) (n j : Nat) (fw : Firmware)
    (h : Owned q) : Feeds queues q (captureLoop env k queues n j fw q).2.1 := by
  induction n generalizing j fw q with
  | zero => exact .refl _ q
  | succ n ih =>
    rw [captureLoop]
    cases hget : bufferListGet q queues [] with
    | mk q₁ r =>
    have hgot := (feeds_get hget).weaken queues
    cases r with
    | none => exact hgot
    | some bl =>
      have hqueues : ∀ b ∈ bl, b.queue ∈ queues := fun b hb =>
        (h.got hget hb).resolve_left (List.not_mem_nil)
      have hsent : Feeds queues q (ipu6IsysBufferListQueue q₁ .active none bl) := by
        refine hgot.trans ((feeds_queue_active q₁ none bl).mono fun i hi => ?_)
        obtain ⟨b, hb, rfl⟩ := List.mem_map.mp hi
        exact hqueues b hb
      dsimp only
      split
      · exact hgot
      split
      · exact hsent
      · exact hsent.trans (ih _ _ (hsent.own h))

end

-- ---------------------------------------------------------------------------
-- What the slots' pins are set to
-- ---------------------------------------------------------------------------

/-- The pins that change are pins of slot `k`, and they are set to queues of `js`. -/
def Pins (k : Nat) (js : List Nat) (fw fw' : Firmware) : Prop :=
  ∀ k' p, fw'.outputPinsQueue k' p = fw.outputPinsQueue k' p ∨
    k' = k ∧ ∃ j ∈ js, fw'.outputPinsQueue k' p = some j

theorem Pins.same (h : fw'.outputPinsQueue = fw.outputPinsQueue) : Pins k js fw fw' :=
  fun _ _ => .inl (by rw [h])

theorem Pins.trans (h : Pins k js fw fw') (h' : Pins k js fw' fw'') : Pins k js fw fw'' := fun k' p => by
  rcases h' k' p with heq | hset
  · rw [heq]
    exact h k' p
  · exact .inr hset

theorem pins_pinCfgs (env : FwStart) (k : Nat) (queues : List Nat) (n : Nat) (fw : Firmware) :
    Pins k queues fw (pinCfgs env k queues n fw).1 := by
  induction queues generalizing n fw with
  | nil => exact .same rfl
  | cons i is ih =>
    rw [pinCfgs]
    split
    · exact .same rfl
    intro k' p
    rcases ih _ _ k' p with heq | ⟨hk, j, hj, hp⟩
    · rw [heq]
      by_cases hk : k' = k
      · subst hk
        by_cases hn : p = n
        · subst hn
          exact .inr ⟨rfl, i, List.mem_cons_self, by simp⟩
        · exact .inl (by simp [hn])
      · exact .inl (by simp [hk])
    · exact .inr ⟨hk, j, List.mem_cons_of_mem _ hj, hp⟩

theorem pins_startOpened (fw : Firmware) (env : FwStart) (k : Nat) (frame : Option FrameBuffSet) :
    (startOpened fw env k frame).1.outputPinsQueue = fw.outputPinsQueue := by
  unfold startOpened startCmd
  cases frame with
  | none =>
    dsimp only
    split
    · rfl
    cases env.startWait with
    | timeout => rfl
    | error => rfl
    | done => rfl
  | some frame =>
    dsimp only
    split
    · rfl
    cases env.startWait with
    | timeout => rfl
    | error => rfl
    | done => rfl

theorem pins_captureLoop (env : CaptureEnv) (k : Nat) (queues : List Nat) (n j : Nat) (fw : Firmware)
    (q : Bufs) : (captureLoop env k queues n j fw q).1.outputPinsQueue = fw.outputPinsQueue := by
  induction n generalizing j fw q with
  | zero => rfl
  | succ n ih =>
    rw [captureLoop]
    cases bufferListGet q queues [] with
    | mk q₁ r =>
    cases r with
    | none => rfl
    | some bl =>
      dsimp only
      split
      · rfl
      split
      · rfl
      · exact ih _ _ _

theorem pins_open (fw : Firmware) (env : FwStart) (k : Nat) (queues : List Nat) :
    Pins k queues fw (openStreamFirmware fw env k queues).1 := by
  have hpins := pins_pinCfgs env k queues 0 fw
  unfold openStreamFirmware
  split
  · exact .same rfl
  dsimp only
  split
  · exact hpins
  split
  · exact hpins
  cases env.openWait with
  | timeout => exact hpins
  | error => exact hpins
  | done => exact hpins

theorem pins_fwPut (s : Isys) (ret : Int) :
    (ipu6IsysFwPut s ret).fw.outputPinsQueue = s.fw.outputPinsQueue := by
  unfold ipu6IsysFwPut ipu6FwIsysClose
  dsimp only
  split
  · rfl
  split
  · rfl
  · rfl

-- ---------------------------------------------------------------------------
-- What a step does for others
-- ---------------------------------------------------------------------------

/-- A step of node `i` that attaches or detaches nobody: it can set pins of slot `k`
for the queues `ps` and make buffers of the queues `js` active. -/
structure Serves (i k : Nat) (ps js : List Nat) (s s' : Isys) : Prop where
  stream : ∀ j, (s'.av j).stream = (s.av j).stream
  called : ∀ j, j ≠ i → (s'.av j).called = (s.av j).called
  queues : ∀ k', (s'.streams k').queues = (s.streams k').queues
  pins : Pins k ps s.fw s'.fw
  feeds : Feeds js s.bufs s'.bufs

section
variable {s s' s'' : Isys} {i k : Nat} {ps js : List Nat}

theorem Serves.refl (s : Isys) : Serves i k ps js s s :=
  ⟨fun _ => rfl, fun _ _ => rfl, fun _ => rfl, .same rfl, .refl _ _⟩

theorem Serves.trans (h : Serves i k ps js s s') (h' : Serves i k ps js s' s'') :
    Serves i k ps js s s'' where
  stream := fun j => (h'.stream j).trans (h.stream j)
  called := fun j hj => (h'.called j hj).trans (h.called j hj)
  queues := fun k' => (h'.queues k').trans (h.queues k')
  pins := h.pins.trans h'.pins
  feeds := h.feeds.trans h'.feeds

theorem Serves.mono (h : Serves i k ps js s s') (hps : ∀ j ∈ ps, j ∈ ps') (hjs : ∀ j ∈ js, j ∈ js') :
    Serves i k ps' js' s s' where
  stream := h.stream
  called := h.called
  queues := h.queues
  pins := fun k' p => (h.pins k' p).imp_right fun ⟨hk, j, hj, hp⟩ => ⟨hk, j, hps j hj, hp⟩
  feeds := h.feeds.mono hjs

theorem serves_bufs (hav : s'.av = s.av) (hst : s'.streams = s.streams)
    (hfw : s'.fw.outputPinsQueue = s.fw.outputPinsQueue) (hb : Feeds js s.bufs s'.bufs) :
    Serves i k ps js s s' :=
  ⟨fun _ => by rw [hav], fun _ _ => by rw [hav], fun _ => by rw [hst], .same hfw, hb⟩

theorem serves_setCalled (s : Isys) (i k : Nat) (c : Bool) : Serves i k ps js s (s.setCalled i c) where
  stream := setCalled_stream s i c
  called := fun j hj => by simp [Isys.setCalled, Isys.setAv, hj]
  queues := fun _ => rfl
  pins := .same rfl
  feeds := .refl _ _

theorem serves_setStreaming (s : Isys) (i k j : Nat) (b : Bool) :
    Serves i k ps js s (s.setAv j { s.av j with streaming := b }) where
  stream := fun j' => (update_streaming_same s j b j').1
  called := fun j' _ => (update_streaming_same s j b j').2
  queues := fun _ => rfl
  pins := .same rfl
  feeds := .refl _ _

theorem serves_open (s : Isys) (env : SetEnv) (i k : Nat) :
    Serves i k (s.streams k).queues [] s (setStreamingOpen s env k).1 := by
  unfold setStreamingOpen
  split
  · exact .refl s
  split
  · exact .refl s
  · exact ⟨fun _ => rfl, fun _ _ => rfl, fun _ => rfl, pins_open s.fw env.start k _, .refl _ _⟩

theorem serves_capture (s : Isys) (env : SetEnv) (o i k : Nat) (bl : List Buffer) :
    Serves o k [] (bl.map Buffer.queue) s (setStreamingCapture s env i k bl).1 := by
  have hfw : ∀ frame, (startOpened s.fw env.start k frame).1.outputPinsQueue = s.fw.outputPinsQueue :=
    pins_startOpened s.fw env.start k
  have hbufs := feeds_queue_active s.bufs none bl
  unfold setStreamingCapture captureStreamFirmware
  cases env.start.frameMsg with
  | false =>
    simp only [Bool.not_false, if_true, ENOMEM, ne_eq, reduceCtorEq, not_false_eq_true]
    exact serves_bufs rfl rfl rfl (.refl _ _)
  | true =>
    simp only [Bool.not_true, Bool.false_eq_true, if_false]
    split
    · exact serves_bufs rfl rfl (hfw _) hbufs
    split
    · exact serves_bufs rfl rfl (hfw _) hbufs
    · have hsent : Serves o k [] (bl.map Buffer.queue) s { s with
          fw := (startOpened s.fw env.start k (some (ipu6IsysBufToFwFrameBuf s.fw bl))).1
          bufs := ipu6IsysBufferListQueue s.bufs .active none bl } :=
        serves_bufs rfl rfl (hfw _) hbufs
      exact hsent.trans (serves_setStreaming _ o k i true)

theorem serves_captureStep (h : Owned s.bufs) (env : CaptureEnv) (i k : Nat) :
    Serves i k [] (s.streams k).queues s (captureStep s env k).1 where
  stream := fun _ => rfl
  called := fun _ _ => rfl
  queues := fun k' => by
    by_cases hk : k' = k
    · subst hk
      simp [captureStep, Isys.setStream]
    · simp [captureStep, Isys.setStream, hk]
  pins := .same (pins_captureLoop env k _ _ 0 s.fw s.bufs)
  feeds := feeds_captureLoop env k _ _ 0 s.fw h

theorem serves_outRequeue (s : Isys) (i k : Nat) (bl : List Buffer) :
    Serves i k [] [] s (outRequeue s k bl) :=
  serves_bufs rfl rfl rfl ((feeds_queue_incoming s.bufs none bl).trans (feeds_flush _ _ _))

theorem serves_fwGet (h : ipu6IsysFwGet s env = (s', ret)) : Serves i k [] [] s s' := by
  unfold ipu6IsysFwGet at h
  dsimp only at h
  split at h
  · obtain rfl := (Prod.mk.inj h).1
    exact .refl s
  split at h
  · obtain rfl := (Prod.mk.inj h).1
    exact serves_bufs rfl rfl rfl (.refl _ _)
  have hpins : (ipu6FwIsysOpen s.fw env.fwOpen).1.outputPinsQueue = s.fw.outputPinsQueue := by
    cases env.fwOpen with
    | ok => rfl
    | error ret fwcom => rfl
  split at h
  · obtain rfl := (Prod.mk.inj h).1
    exact serves_bufs rfl rfl hpins (.refl _ _)
  · obtain rfl := (Prod.mk.inj h).1
    exact serves_bufs rfl rfl hpins (.refl _ _)

theorem serves_fwPut (s : Isys) (i k : Nat) (ret : Int) : Serves i k [] [] s (ipu6IsysFwPut s ret) := by
  obtain ⟨fw, hput, -⟩ := fwPut_eq s ret
  have hpins := pins_fwPut s ret
  rw [hput] at hpins ⊢
  exact serves_bufs rfl rfl hpins (.refl _ _)

theorem serves_prepare (h : prepareFirst s k e n = (s', ret)) : Serves i k [] [] s s' := by
  have hsame : ∀ st : Stream, st.queues = (s.streams k).queues → Serves i k [] [] s (s.setStream k st) := by
    intro st hst
    refine ⟨fun _ => rfl, fun _ _ => rfl, fun k' => ?_, .same rfl, .refl _ _⟩
    by_cases hk : k' = k
    · subst hk
      simp [Isys.setStream, hst]
    · simp [Isys.setStream, hk]
  unfold prepareFirst ipu6IsysVideoPrepareStream at h
  dsimp only at h
  split at h
  · split at h
    · obtain rfl := (Prod.mk.inj h).1
      exact .refl s
    split at h
    · obtain rfl := (Prod.mk.inj h).1
      exact hsame _ rfl
    · obtain rfl := (Prod.mk.inj h).1
      simp only [Isys.setStream, Function.update_self, Function.update_idem]
      exact hsame _ rfl
  · obtain rfl := (Prod.mk.inj h).1
    exact .refl s

theorem serves_cleanup (s : Isys) (i : Nat) (x : Exit) :
    Serves i 0 [] [] s (nodeStep s i (.cleanup x)).1 := by
  unfold nodeStep
  cases (s.av i).stream with
  | none => exact .refl _
  | some k =>
    dsimp only
    unfold ipu6IsysPutStream
    split
    · exact serves_bufs rfl rfl rfl (.refl _ _)
    · exact .refl _

theorem serves_stop (s : Isys) (env : StopEnv) (i k : Nat) :
    Serves i k [] [] s (stopStep s env i k).1 := by
  unfold stopStep ipu6IsysVideoSetStreaming
  dsimp only
  split
  · split
    · exact .refl s
    split
    · exact .refl s
    simp only [Bool.not_false, if_true]
    split
    · exact serves_bufs rfl rfl rfl (.refl _ _)
    · have hpins : (closeStreamingFirmware (stopStreamingFirmware s.fw k env.set.sendFlush) k
          env.set.sendClose).outputPinsQueue = s.fw.outputPinsQueue := by
        unfold closeStreamingFirmware
        dsimp only
        split
        · rfl
        · rfl
      generalize closeStreamingFirmware _ k env.set.sendClose = fw at hpins ⊢
      have hclosed : Serves i k [] [] s { s with fw := fw } := serves_bufs rfl rfl hpins (.refl _ _)
      exact hclosed.trans (serves_setStreaming _ i k i false)
  · exact .refl s

theorem serves_streamStart (h : Owned s.bufs) (env : StreamStartEnv) (o i k : Nat) (error : Bool)
    (hbl : ∀ b ∈ bl, b.queue ∈ (s.streams k).queues) :
    Serves o k (s.streams k).queues (s.streams k).queues s
      (ipu6IsysStreamStart s env i k bl error).1 := by
  have hopen : Serves o k (s.streams k).queues (s.streams k).queues s (setStreamingOpen s env.set k).1 :=
    (serves_open s env.set o k).mono (fun _ hj => hj) fun _ hj => nomatch hj
  have hcapture : ∀ s₁, Serves o k (s.streams k).queues (s.streams k).queues s₁
      (setStreamingCapture s₁ env.set i k bl).1 := by
    intro s₁
    refine (serves_capture s₁ env.set o i k bl).mono (fun _ hj => nomatch hj) fun j hj => ?_
    obtain ⟨b, hb, rfl⟩ := List.mem_map.mp hj
    exact hbl b hb
  have hfail : ∀ (s₁ : Isys) (streaming : Nat → Bool) (queues : List Nat) (bl : List Buffer),
      Serves o k (s.streams k).queues (s.streams k).queues s₁ { s₁ with
        bufs := flushFirmwareStreamonFail streaming queues (ipu6IsysBufferListQueue s₁.bufs .incoming
          (if error then some .error else none) bl) } := fun s₁ streaming queues bl =>
    serves_bufs rfl rfl rfl (((feeds_queue_incoming _ _ bl).trans (feeds_flush _ _ _)).weaken _)
  unfold ipu6IsysStreamStart
  rw [setStreaming_halves]
  by_cases hret : (setStreamingOpen s env.set k).2 = 0
  case neg =>
    simp only [hret, ne_eq, not_false_eq_true, if_true]
    exact hopen.trans (hfail _ _ _ _)
  simp only [hret, ne_eq, not_true, if_false]
  have hset := hopen.trans (hcapture (setStreamingOpen s env.set k).1)
  generalize setStreamingCapture (setStreamingOpen s env.set k).1 env.set i k bl = r at hset ⊢
  split
  · exact hset.trans (hfail _ _ _ _)
  · refine hset.trans ?_
    have hstep := serves_captureStep (hset.feeds.own h) env.capture o k
    rw [hset.queues] at hstep
    exact hstep.mono (fun _ hj => nomatch hj) fun _ hj => hj

theorem serves_bufQueue (h : Owned s.bufs) (env : BufQueueEnv) (b : Buffer) :
    ∃ k, Serves i k (s.streams k).queues (s.streams k).queues s (bufQueue s env b) := by
  have hadd : ∀ {k ps js}, Serves i k ps js s (s.addIncoming b) :=
    serves_bufs rfl rfl rfl ((feeds_addIncoming s b).weaken _)
  rw [bufQueue_slot]
  cases hslot : env.slot s b with
  | none => exact ⟨0, hadd⟩
  | some k =>
    refine ⟨k, ?_⟩
    simp only [Option.elim_some, bufQueueStream, show (s.addIncoming b).streams = s.streams from rfl]
    by_cases hnr : (s.streams k).nrStreaming = (s.streams k).nrQueues
    case neg =>
      rw [if_pos hnr]
      exact hadd
    rw [if_neg (not_not.mpr hnr)]
    cases hget : bufferListGet (s.addIncoming b).bufs (s.streams k).queues [] with
    | mk q r =>
    have hgot : ∀ {k ps js}, Serves i k ps js s { s.addIncoming b with bufs := q } :=
      hadd.trans (serves_bufs rfl rfl rfl ((feeds_get hget).weaken _))
    cases r with
    | none => exact hgot
    | some bl =>
      have hown := (feeds_addIncoming s b).own h
      have hbl : ∀ c ∈ bl, c.queue ∈ (s.streams k).queues := fun c hc =>
        (hown.got hget hc).resolve_left List.not_mem_nil
      dsimp only
      split
      · exact hgot
      split
      · have hstart := serves_streamStart (s := { s.addIncoming b with bufs := q })
          ((feeds_get hget).own hown) env.start i b.queue k true hbl
        exact hgot.trans hstart
      · refine hgot.trans (serves_bufs rfl rfl rfl ((feeds_queue_active q none bl).mono fun j hj => ?_))
        obtain ⟨c, hc, rfl⟩ := List.mem_map.mp hj
        exact hbl c hc

end

end Ipu4.Capture.Interleaved
