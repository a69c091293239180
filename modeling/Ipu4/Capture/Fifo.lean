import Ipu4.Capture.Calls

/-!
# Capture sets in order

Buffers go to the head of a queue's incoming list and leave at its end, one from
every queue for each set. As long as nothing fails, the sets of a stream go
through its queues in step: set `i` has the `i`-th buffer of every queue.
-/

namespace Ipu4.Capture

open Runs

/-- The frame buffer sets that stream `k` has been sent, the first one first. -/
def sentSets (fw : Firmware) (k : Nat) : List FrameBuffSet :=
  ((fw.cmds.filter fun c => c.framed && decide (c.handle = k)).map Cmd.frame).reverse

/-- `set` is set `i` of the queues: it has the `i`-th buffer of each queue at the queue's
own output pin, and nothing at the other pins. -/
structure IsSet (history : Nat → List Buffer) (output : Nat → Nat) (queues : List Nat) (i : Nat)
    (set : FrameBuffSet) : Prop where
  pin : ∀ j ∈ queues, ∃ b, (history j)[i]? = some b ∧
    set.outputPins[output j]? = some ⟨b.index + 1, b.dmaAddr⟩
  rest : ∀ p < IPU4_MAX_OPINS, (∀ j ∈ queues, output j ≠ p) → set.outputPins[p]? = some ⟨0, 0⟩

/-- `set` has been filled from one buffer of each queue, the `i`-th that was queued on it. -/
def Taken (history : Nat → List Buffer) (fw : Firmware) (queues : List Nat) (i : Nat)
    (set : FrameBuffSet) : Prop :=
  ∃ bl : List Buffer, bl.map Buffer.queue = queues.reverse ∧
    (∀ b ∈ bl, (history b.queue)[i]? = some b) ∧ set = ipu6IsysBufToFwFrameBuf fw bl

/-- As many queues as there are pins, and the one after them, have the pin of their place. -/
def Pinned (fw : Firmware) (queues : List Nat) : Prop :=
  ∀ n ≤ IPU4_MAX_OPINS, ∀ j, queues[n]? = some j → fw.fwOutput j = n

section
variable {fw fw' : Firmware} {p : Nat}

theorem fill_congr {bl : List Buffer} (h : ∀ b ∈ bl, fw.fwOutput b.queue = fw'.fwOutput b.queue) :
    ipu6IsysBufToFwFrameBuf fw bl = ipu6IsysBufToFwFrameBuf fw' bl := by
  unfold ipu6IsysBufToFwFrameBuf
  refine List.foldl_ext _ _ _ fun set b hb => ?_
  unfold ipu6IsysBufToFwFrameBufPin
  rw [h b hb]

theorem setPin_pin (set : FrameBuffSet) (i p : Nat) (pin : OutputPin) :
    (set.setPin i pin).outputPins[p]? =
      if i = p ∧ p < IPU4_MAX_OPINS then some pin else set.outputPins[p]? := by
  unfold FrameBuffSet.setPin
  split
  · rw [Vector.getElem?_setIfInBounds]
    grind
  · split <;> grind

theorem fill_other {bl : List Buffer} (h : ∀ b ∈ bl, fw.fwOutput b.queue ≠ p) (set : FrameBuffSet) :
    (bl.foldl (fun set b => ipu6IsysBufToFwFrameBufPin fw b set) set).outputPins[p]? = set.outputPins[p]? := by
  induction bl generalizing set with
  | nil => rfl
  | cons b bl ih =>
    obtain ⟨hb, hbl⟩ := List.forall_mem_cons.mp h
    rw [List.foldl_cons, ih hbl, ipu6IsysBufToFwFrameBufPin, setPin_pin, if_neg (fun hp => hb hp.1)]

theorem fill_pin {bl : List Buffer} (hdiff : bl.Pairwise fun b c => fw.fwOutput b.queue ≠ fw.fwOutput c.queue)
    (hb : b ∈ bl) (hp : fw.fwOutput b.queue < IPU4_MAX_OPINS) (set : FrameBuffSet) :
    (bl.foldl (fun set b => ipu6IsysBufToFwFrameBufPin fw b set) set).outputPins[fw.fwOutput b.queue]? =
      some ⟨b.index + 1, b.dmaAddr⟩ := by
  induction bl generalizing set with
  | nil => cases hb
  | cons c bl ih =>
    obtain ⟨hc, hdiff⟩ := List.pairwise_cons.mp hdiff
    rw [List.foldl_cons]
    rcases List.mem_cons.mp hb with rfl | hb
    · rw [fill_other fun c' hc' => (hc c' hc').symm, ipu6IsysBufToFwFrameBufPin, setPin_pin, if_pos ⟨rfl, hp⟩]
    · exact ih hdiff hb _

theorem Pinned.inj (h : Pinned fw queues) (hlen : queues.length ≤ IPU4_MAX_OPINS) (hj : j ∈ queues)
    (hj' : j' ∈ queues) (heq : fw.fwOutput j = fw.fwOutput j') : j = j' := by
  obtain ⟨n, hn, rfl⟩ := List.getElem_of_mem hj
  obtain ⟨n', hn', rfl⟩ := List.getElem_of_mem hj'
  rw [h n (by omega) _ (List.getElem?_eq_getElem hn), h n' (by omega) _ (List.getElem?_eq_getElem hn')] at heq
  subst heq
  rfl

theorem Taken.isSet (h : Taken history fw queues i frame) (hnd : queues.Nodup) (hpin : Pinned fw queues)
    (hlen : queues.length ≤ IPU4_MAX_OPINS) : IsSet history fw.fwOutput queues i frame := by
  obtain ⟨bl, hbl, hbuf, rfl⟩ := h
  have hmem : ∀ j, j ∈ queues ↔ ∃ b ∈ bl, b.queue = j := fun j => by
    rw [← List.mem_reverse, ← hbl, List.mem_map]
  have hdiff : bl.Pairwise fun b c => fw.fwOutput b.queue ≠ fw.fwOutput c.queue := by
    have hpair : (bl.map Buffer.queue).Pairwise fun j j' => fw.fwOutput j ≠ fw.fwOutput j' := by
      rw [hbl]
      refine (List.nodup_reverse.mpr hnd).imp_of_mem fun hj hj' hne heq => hne ?_
      exact hpin.inj hlen (List.mem_reverse.mp hj) (List.mem_reverse.mp hj') heq
    exact (List.pairwise_map (R := fun j j' => fw.fwOutput j ≠ fw.fwOutput j')).mp hpair
  refine ⟨fun j hj => ?_, fun p hp hother => ?_⟩
  · obtain ⟨b, hb, rfl⟩ := (hmem j).mp hj
    obtain ⟨n, hn, heq⟩ := List.getElem_of_mem hj
    have hout := hpin n (by omega) _ (heq ▸ List.getElem?_eq_getElem hn)
    exact ⟨b, hbuf b hb, fill_pin hdiff hb (by omega) _⟩
  · refine (fill_other (fun b hb => hother _ ((hmem _).mpr ⟨b, hb, rfl⟩)) _).trans ?_
    rw [FrameBuffSet.zero, Vector.getElem?_replicate, if_pos hp]

theorem IsSet.length_le (h : IsSet history fw.fwOutput queues i frame) (hpin : Pinned fw queues) :
    queues.length ≤ IPU4_MAX_OPINS := by
  by_contra hlen
  have hlt : IPU4_MAX_OPINS < queues.length := Nat.not_le.mp hlen
  have hget := List.getElem?_eq_getElem hlt
  obtain ⟨b, -, hb⟩ := h.pin _ (List.getElem_mem hlt)
  rw [hpin _ (Nat.le_refl _) _ hget, Vector.getElem?_eq_none (Nat.le_refl _)] at hb
  cases hb

end

-- ---------------------------------------------------------------------------
-- One set
-- ---------------------------------------------------------------------------

def Own (q : Bufs) : Prop := ∀ i, ∀ b ∈ q.incoming i, b.queue = i

section
variable {q q' : Bufs} {bl bl' : List Buffer}

theorem bufferListGet_buffers (hown : Own q) (hget : bufferListGet q is bl = (q', some bl')) :
    bl'.map Buffer.queue = is.reverse ++ bl.map Buffer.queue := by
  induction is generalizing q bl with
  | nil =>
    obtain rfl := Option.some.inj (Prod.mk.inj hget).2
    rfl
  | cons i is ih =>
    simp only [bufferListGet] at hget
    split at hget
    · cases hget
    next b hb =>
      rw [ih (fun j c hc => hown j c (mem_of_mem_dropLast_update hc)) hget, List.map_cons,
        hown i b (List.mem_of_getLast? hb), List.reverse_cons, List.append_assoc]
      rfl

theorem bufferListGet_last (hown : Own q) (hnd : is.Nodup)
    (hget : bufferListGet q is bl = (q', some bl')) (hb : b ∈ bl') :
    b ∈ bl ∨ b.queue ∈ is ∧ (q.incoming b.queue).getLast? = some b := by
  induction is generalizing q bl with
  | nil =>
    obtain rfl := Option.some.inj (Prod.mk.inj hget).2
    exact .inl hb
  | cons i is ih =>
    obtain ⟨hi, hnd⟩ := List.nodup_cons.mp hnd
    simp only [bufferListGet] at hget
    split at hget
    · cases hget
    next c hc =>
      have hcq := hown i c (List.mem_of_getLast? hc)
      rcases ih (fun j c hc => hown j c (mem_of_mem_dropLast_update hc)) hnd hget with h | ⟨hmem, h⟩
      · rcases List.mem_cons.mp h with rfl | h
        · exact .inr ⟨hcq ▸ List.mem_cons_self, hcq ▸ hc⟩
        · exact .inl h
      · have hne : b.queue ≠ i := by
          rintro rfl
          exact hi hmem
        rw [incoming_setIncoming_of_ne hne] at h
        exact .inr ⟨List.mem_cons_of_mem _ hmem, h⟩

theorem bufferListGet_rest (hnd : is.Nodup) (hget : bufferListGet q is bl = (q', some bl')) (j : Nat) :
    q'.incoming j = if j ∈ is then (q.incoming j).dropLast else q.incoming j := by
  induction is generalizing q bl with
  | nil =>
    obtain ⟨rfl, -⟩ := Prod.mk.inj hget
    simp
  | cons i is ih =>
    obtain ⟨hi, hnd⟩ := List.nodup_cons.mp hnd
    simp only [bufferListGet] at hget
    split at hget
    · cases hget
    · rw [ih hnd hget]
      by_cases hj : j = i
      · subst hj
        simp [hi, incoming_setIncoming]
      · simp [hj, incoming_setIncoming_of_ne hj]

theorem Own.get (hown : Own q) (hget : bufferListGet q is [] = (q', some bl)) : Own q' :=
  fun i b hb => hown i b (bufferListGet_incoming hget hb)

end

-- ---------------------------------------------------------------------------
-- One stream
-- ---------------------------------------------------------------------------

theorem sentSets_cons (fw : Firmware) (c : Cmd) (k : Nat) :
    sentSets { fw with cmds := c :: fw.cmds } k =
      sentSets fw k ++ if c.framed = true ∧ c.handle = k then [c.frame] else [] := by
  unfold sentSets
  rw [List.filter_cons]
  by_cases hc : c.framed = true ∧ c.handle = k
  · simp [hc]
  · rw [if_neg (by simpa using hc), if_neg hc, List.append_nil]

/-- Stream `k` has taken its sets from the queues in order, and the rest waits. -/
structure InStep (history : Nat → List Buffer) (k : Nat) (queues : List Nat) (fw : Firmware)
    (q : Bufs) : Prop where
  waiting : ∀ j ∈ queues, (q.incoming j).reverse = (history j).drop (sentSets fw k).length
  le : ∀ j ∈ queues, (sentSets fw k).length ≤ (history j).length
  sets : ∀ i set, (sentSets fw k)[i]? = some set → Taken history fw queues i set

section
variable {history : Nat → List Buffer} {k : Nat} {queues : List Nat} {fw fw' : Firmware}
  {q q' : Bufs} {bl : List Buffer}

theorem getLast?_of_reverse_eq_drop {l h : List Buffer} (hl : l.reverse = h.drop n)
    (hb : l.getLast? = some b) :
    h[n]? = some b ∧ l.dropLast.reverse = h.drop (n + 1) ∧ n + 1 ≤ h.length := by
  obtain ⟨l', rfl⟩ := List.getLast?_eq_some_iff.mp hb
  rw [List.reverse_append, List.reverse_singleton, List.singleton_append] at hl
  have hlt : n < h.length := by
    by_contra hge
    rw [List.drop_eq_nil_of_le (Nat.le_of_not_lt hge)] at hl
    cases hl
  rw [List.drop_eq_getElem_cons hlt] at hl
  obtain ⟨hhead, htail⟩ := List.cons.inj hl
  exact ⟨by rw [List.getElem?_eq_getElem hlt, hhead], by rw [List.dropLast_concat, htail], hlt⟩

theorem InStep.send (h : InStep history k queues fw q) (hown : Own q) (hnd : queues.Nodup)
    (hget : bufferListGet q queues [] = (q', some bl)) (hc : Cmd.framed c = true) (hk : c.handle = k)
    (hframe : c.frame = ipu6IsysBufToFwFrameBuf fw bl) :
    InStep history k queues { fw with cmds := c :: fw.cmds }
      (ipu6IsysBufferListQueue q' .active none bl) := by
  have hsent : sentSets { fw with cmds := c :: fw.cmds } k = sentSets fw k ++ [c.frame] := by
    rw [sentSets_cons, if_pos ⟨hc, hk⟩]
  have hlen : (sentSets { fw with cmds := c :: fw.cmds } k).length = (sentSets fw k).length + 1 := by
    rw [hsent, List.length_append, List.length_singleton]
  have hbufs := bufferListGet_buffers hown hget
  have hlast : ∀ b ∈ bl, b.queue ∈ queues ∧ (q.incoming b.queue).getLast? = some b := by
    intro b hb
    rcases bufferListGet_last hown hnd hget hb with hno | h
    · cases hno
    · exact h
  have hnext : ∀ b ∈ bl, (history b.queue)[(sentSets fw k).length]? = some b ∧
      (q.incoming b.queue).dropLast.reverse = (history b.queue).drop ((sentSets fw k).length + 1) ∧
      (sentSets fw k).length + 1 ≤ (history b.queue).length := fun b hb =>
    getLast?_of_reverse_eq_drop (h.waiting _ (hlast b hb).1) (hlast b hb).2
  have hbuf : ∀ j ∈ queues, ∃ b ∈ bl, b.queue = j := by
    intro j hj
    have hmem : j ∈ bl.map Buffer.queue := by
      rw [hbufs]
      simpa using hj
    obtain ⟨b, hb, rfl⟩ := List.mem_map.mp hmem
    exact ⟨b, hb, rfl⟩
  refine ⟨fun j hj => ?_, fun j hj => ?_, fun i set hset => ?_⟩
  · obtain ⟨b, hb, rfl⟩ := hbuf j hj
    rw [incoming_queue_active, bufferListGet_rest hnd hget, if_pos hj, hlen]
    exact (hnext b hb).2.1
  · obtain ⟨b, hb, rfl⟩ := hbuf j hj
    rw [hlen]
    exact (hnext b hb).2.2
  · rw [hsent] at hset
    rcases Nat.lt_trichotomy i (sentSets fw k).length with hi | rfl | hi
    · rw [List.getElem?_append_left hi] at hset
      exact h.sets i set hset
    · rw [List.getElem?_concat_length] at hset
      obtain rfl := Option.some.inj hset
      exact ⟨bl, by simpa using hbufs, fun b hb => (hnext b hb).1, hframe⟩
    · rw [List.getElem?_eq_none (by rw [List.length_append, List.length_singleton]; omega)] at hset
      cases hset

/-- What the other streams and their queues see: nothing. -/
structure Beside (k : Nat) (queues : List Nat) (fw : Firmware) (q : Bufs) (fw' : Firmware)
    (q' : Bufs) : Prop where
  sets : ∀ k', k' ≠ k → sentSets fw' k' = sentSets fw k'
  output : ∀ j ∉ queues, fw'.fwOutput j = fw.fwOutput j
  incoming : ∀ j ∉ queues, q'.incoming j = q.incoming j

theorem Beside.refl (k : Nat) (queues : List Nat) (fw : Firmware) (q : Bufs) :
    Beside k queues fw q fw q :=
  ⟨fun _ _ => rfl, fun _ _ => rfl, fun _ _ => rfl⟩

theorem Beside.trans (h : Beside k queues fw q fw' q') (h' : Beside k queues fw' q' fw'' q'') :
    Beside k queues fw q fw'' q'' where
  sets := fun k' hk => (h'.sets k' hk).trans (h.sets k' hk)
  output := fun j hj => (h'.output j hj).trans (h.output j hj)
  incoming := fun j hj => (h'.incoming j hj).trans (h.incoming j hj)

theorem Beside.send (hnd : queues.Nodup) (hget : bufferListGet q queues [] = (q', some bl))
    (fw : Firmware) (hk : Cmd.handle c = k) :
    Beside k queues fw q { fw with cmds := c :: fw.cmds } (ipu6IsysBufferListQueue q' .active none bl) where
  sets := fun k' hk' => by
    rw [sentSets_cons, if_neg (fun h => hk' (h.2.symm.trans hk)), List.append_nil]
  output := fun _ _ => rfl
  incoming := fun j hj => by
    rw [incoming_queue_active, bufferListGet_rest hnd hget, if_neg hj]

theorem InStep.beside (h : InStep history k' members fw q) (hb : Beside k queues fw q fw' q')
    (hk : k' ≠ k) (hdis : ∀ j ∈ members, j ∉ queues) : InStep history k' members fw' q' where
  waiting := fun j hj => by
    rw [hb.incoming j (hdis j hj), hb.sets k' hk]
    exact h.waiting j hj
  le := fun j hj => by
    rw [hb.sets k' hk]
    exact h.le j hj
  sets := fun i set hset => by
    rw [hb.sets k' hk] at hset
    obtain ⟨bl, hbl, hbuf, hset⟩ := h.sets i set hset
    refine ⟨bl, hbl, hbuf, hset.trans (fill_congr fun b hmem => ?_)⟩
    have hmember : b.queue ∈ members := by
      have hq := List.mem_map_of_mem (f := Buffer.queue) hmem
      rw [hbl] at hq
      exact List.mem_reverse.mp hq
    rw [hb.output _ (hdis _ hmember)]

-- ---------------------------------------------------------------------------
-- Starting for real
-- ---------------------------------------------------------------------------

def Call.succeeds : Call → Bool
  | .cmd c => c.accepted
  | .getMsg ok => ok
  | _ => true

theorem InStep.loop (h : InStep history k queues fw q) (hown : Own q) (hnd : queues.Nodup)
    (env : CaptureEnv) (n j : Nat)
    (hok : ∀ c ∈ captureLoopCalls env k queues n j fw q, c.succeeds = true) :
    ∃ fw' q', captureLoop env k queues n j fw q = (fw', q', 0) ∧ InStep history k queues fw' q' ∧
      Beside k queues fw q fw' q' ∧ Own q' ∧ fw'.fwOutput = fw.fwOutput ∧
      (sentSets fw k ≠ [] → sentSets fw' k ≠ []) := by
  induction n generalizing j fw q with
  | zero => exact ⟨fw, q, rfl, h, .refl .., hown, rfl, id⟩
  | succ n ih =>
    rw [captureLoopCalls] at hok
    rw [captureLoop]
    cases hget : bufferListGet q queues [] with
    | mk q₁ r =>
    rw [hget] at hok
    cases r with
    | none =>
      rw [bufferListGet_none_eq hown hget]
      exact ⟨fw, q, rfl, h, .refl .., hown, rfl, id⟩
    | some bl =>
      obtain ⟨hmsg, hrest⟩ := List.forall_mem_cons.mp hok
      replace hmsg : env.msg j = true := hmsg
      simp only [hmsg, Bool.not_true, Bool.false_eq_true, if_false] at hrest ⊢
      obtain ⟨hsend, hrest⟩ := List.forall_mem_cons.mp hrest
      replace hsend : env.send j = true := hsend
      simp only [hsend, Bool.not_true, Bool.false_eq_true, if_false] at hrest
      have hown₁ : Own (ipu6IsysBufferListQueue q₁ .active none bl) := by
        intro i b hb
        rw [incoming_queue_active] at hb
        exact hown.get hget i b hb
      have hstep := h.send (c := ⟨k, .streamCapture, ipu6IsysBufToFwFrameBuf fw bl, true⟩) hown hnd hget
        rfl rfl rfl
      have hbeside := Beside.send (k := k)
        (c := ⟨k, .streamCapture, ipu6IsysBufToFwFrameBuf fw bl, true⟩) hnd hget fw rfl
      obtain ⟨fw', q', hrun, hin, hb, hown', hout, hbegun⟩ := ih hstep hown₁ (j + 1) hrest
      refine ⟨fw', q', ?_, hin, hbeside.trans hb, hown', hout, fun _ => hbegun ?_⟩
      · simp only [ipu6FwIsysComplexCmd, hsend, if_true, ne_eq, not_true, if_false]
        exact hrun
      · rw [sentSets_cons, if_pos ⟨rfl, rfl⟩]
        simp

theorem pinCfgs_other (env : FwStart) (k : Nat) (hj : j ∉ queues) (n : Nat) (fw : Firmware) :
    (pinCfgs env k queues n fw).1.fwOutput j = fw.fwOutput j := by
  induction queues generalizing n fw with
  | nil => rfl
  | cons i is ih =>
    obtain ⟨hi, his⟩ := not_or.mp (List.mem_cons.not.mp hj)
    rw [pinCfgs]
    split
    · rfl
    · rw [ih his]
      exact Function.update_of_ne hi _ _

theorem pinCfgs_pin (env : FwStart) (k : Nat) (hok : ∀ i ∈ queues, ¬ env.pinCfg i < 0)
    (hnd : queues.Nodup) (n : Nat) (fw : Firmware) (hm : n + m ≤ IPU4_MAX_OPINS) (hj : queues[m]? = some j) :
    (pinCfgs env k queues n fw).1.fwOutput j = n + m := by
  induction queues generalizing n m fw with
  | nil => cases hj
  | cons i is ih =>
    obtain ⟨hi, hok⟩ := List.forall_mem_cons.mp hok
    obtain ⟨hni, hnd⟩ := List.nodup_cons.mp hnd
    rw [pinCfgs, if_neg hi]
    cases m with
    | zero =>
      obtain rfl := Option.some.inj hj
      rw [pinCfgs_other env k hni]
      exact Function.update_self ..
    | succ m =>
      rw [if_pos (by omega), ih hok hnd (n + 1) _ (by omega) hj]
      omega

/-- The firmware after a start that nothing stands in the way of. -/
def startedFw (fw : Firmware) (env : FwStart) (k : Nat) (queues : List Nat) (bl : List Buffer) :
    Firmware :=
  let fw := (pinCfgs env k queues 0 fw).1
  let fw := getStreamOpened { fw with cmds := ⟨k, .streamOpen, .zero, true⟩ :: fw.cmds }
  { fw with cmds := ⟨k, .streamStartAndCapture, ipu6IsysBufToFwFrameBuf fw bl, true⟩ :: fw.cmds }

theorem startStreamFirmware_started (hres : env.result queues true = .started) (fw : Firmware)
    (q : Bufs) (k : Nat) (bl : List Buffer) :
    startStreamFirmware fw q env k queues (some bl) =
        (startedFw fw env k queues bl, ipu6IsysBufferListQueue q .active none bl, some [], 0) ∧
      ∀ i ∈ queues, ¬ env.pinCfg i < 0 := by
  obtain ⟨fw₁, ret, hpins, -, hret⟩ := pinCfgs_spec env k queues 0 fw
  unfold FwStart.result at hres
  split at hres
  · cases hres
  next hfirst =>
  split at hres
  · cases hres
  next hsecond =>
  split at hres
  · cases hres
  next hthird =>
  simp only [not_or, Bool.not_eq_false] at hfirst hthird
  obtain ⟨hmsg, hpin, hopen⟩ := hfirst
  obtain ⟨hstart, hwait⟩ := hthird
  simp only [not_or, not_not, true_and, Bool.not_eq_false] at hsecond hwait
  refine ⟨?_, fun i hi hlt => hpin ⟨i, hi, hlt⟩⟩
  simp only [startStreamFirmware, startedFw, startOpened, startCmd, hmsg, hpins, mt hret.mp hpin, hopen,
    hsecond.1, hsecond.2, hstart, hwait, ipu6FwIsysComplexCmd, Bool.not_true, Bool.false_eq_true,
    if_true, if_false, Int.lt_irrefl]

theorem setStreaming_started (s : Isys) (i k : Nat) (bl : List Buffer)
    (hres : env.result (s.streams k).sourceEntity.isSome (s.streams k).queues true = .started) :
    ipu6IsysVideoSetStreaming s env i k true (some bl) =
        (({ s with
          fw := startedFw s.fw env.start k (s.streams k).queues bl
          bufs := ipu6IsysBufferListQueue s.bufs .active none bl }).setAv i
            { s.av i with streaming := true }, some [], 0) ∧
      ∀ i ∈ (s.streams k).queues, ¬ env.start.pinCfg i < 0 := by
  unfold SetEnv.result at hres
  split at hres
  · cases hres
  next hsrc =>
  split at hres
  · cases hres
  next hen =>
  obtain ⟨hrun, hpin⟩ := startStreamFirmware_started hres s.fw s.bufs k bl
  refine ⟨?_, hpin⟩
  simp only [not_or, not_not, Bool.not_eq_false] at hsrc
  simp only [hres, true_and, not_not] at hen
  have hsome : (s.streams k).sourceEntity ≠ none := by
    intro hnone
    rw [hnone] at hsrc
    cases hsrc.1
  simp only [ipu6IsysVideoSetStreaming, hsome, hsrc.2, hen, hrun, ne_eq, not_true, Bool.not_true,
    Bool.false_eq_true, if_false]

theorem InStep.start (s : Isys) (env : StreamStartEnv) (i k : Nat) (bl : List Buffer) (error : Bool)
    (hnd : (s.streams k).queues.Nodup) (hown : Own q)
    (hget : bufferListGet q (s.streams k).queues [] = (s.bufs, some bl))
    (hsent : sentSets s.fw k = [])
    (hwait : ∀ j ∈ (s.streams k).queues, (q.incoming j).reverse = history j)
    (hres : env.set.result (s.streams k).sourceEntity.isSome (s.streams k).queues true = .started)
    (hok : ∀ c ∈ streamStartCalls s env i k bl, c.succeeds = true) :
    ∃ fw' q', ipu6IsysStreamStart s env i k bl error =
        ((({ s with fw := fw', bufs := q' }).setAv i { s.av i with streaming := true }).setStream k
          { s.streams k with streaming := true }, 0) ∧
      InStep history k (s.streams k).queues fw' q' ∧
      Beside k (s.streams k).queues s.fw q fw' q' ∧ Own q' ∧ Pinned fw' (s.streams k).queues ∧
      sentSets fw' k ≠ [] := by
  obtain ⟨hset, hpin⟩ := setStreaming_started s i k bl hres
  have hout : ∀ j ∉ (s.streams k).queues, _ := fun j hj => pinCfgs_other env.set.start k hj 0 s.fw
  have hpinned : ∀ n ≤ IPU4_MAX_OPINS, ∀ j, (s.streams k).queues[n]? = some j → _ = 0 + n := fun n hn j hj =>
    pinCfgs_pin env.set.start k hpin hnd 0 s.fw (by omega) hj
  obtain ⟨-, hcmds⟩ := pinCfgs_fwcom env.set.start k (s.streams k).queues 0 s.fw
  unfold streamStartCalls at hok
  unfold ipu6IsysStreamStart
  rw [hset] at hok ⊢
  obtain ⟨-, hcalls⟩ := List.forall_mem_append.mp hok
  simp only [Isys.setAv, ne_eq, not_true, if_false] at hcalls ⊢
  generalize hfw₁ : (pinCfgs env.set.start k (s.streams k).queues 0 s.fw).1 = fw₁ at hout hpinned hcmds
  generalize hfw₂ : getStreamOpened { fw₁ with cmds := ⟨k, .streamOpen, .zero, true⟩ :: fw₁.cmds } = fw₂
  have hout₂ : fw₂.fwOutput = fw₁.fwOutput := hfw₂ ▸ rfl
  have hsent₂ : ∀ k', sentSets fw₂ k' = sentSets s.fw k' := by
    intro k'
    have hopen := sentSets_cons fw₁ ⟨k, .streamOpen, .zero, true⟩ k'
    rw [if_neg (by simp [Cmd.framed]), List.append_nil] at hopen
    rw [← hfw₂]
    refine Eq.trans (b := sentSets fw₁ k') hopen ?_
    unfold sentSets
    rw [hcmds]
  have hin : InStep history k (s.streams k).queues fw₂ q := by
    refine ⟨fun j hj => ?_, fun j _ => ?_, fun i set hset => ?_⟩
    · rw [hsent₂, hsent]
      exact hwait j hj
    · rw [hsent₂, hsent]
      exact Nat.zero_le _
    · rw [hsent₂, hsent] at hset
      cases hset
  have hbeside : Beside k (s.streams k).queues s.fw q fw₂ q := by
    refine ⟨fun k' _ => hsent₂ k', fun j hj => ?_, fun _ _ => rfl⟩
    rw [hout₂, hout j hj]
  have hstarted : startedFw s.fw env.set.start k (s.streams k).queues bl = { fw₂ with
      cmds := ⟨k, .streamStartAndCapture, ipu6IsysBufToFwFrameBuf fw₂ bl, true⟩ :: fw₂.cmds } := by
    rw [← hfw₂, ← hfw₁]
    rfl
  have hown₁ : Own (ipu6IsysBufferListQueue s.bufs .active none bl) := by
    intro i b hb
    rw [incoming_queue_active] at hb
    exact hown.get hget i b hb
  rw [hstarted] at hcalls ⊢
  have hfirst := hin.send
    (c := ⟨k, .streamStartAndCapture, ipu6IsysBufToFwFrameBuf fw₂ bl, true⟩) hown hnd hget rfl rfl rfl
  have hsend := Beside.send (k := k)
    (c := ⟨k, .streamStartAndCapture, ipu6IsysBufToFwFrameBuf fw₂ bl, true⟩) hnd hget fw₂ rfl
  obtain ⟨fw', q', hrun, hin', hb, hown', hout', hbegun⟩ := hfirst.loop hown₁ hnd env.capture _ 0 hcalls
  refine ⟨fw', q', ?_, hin', hbeside.trans (hsend.trans hb), hown', fun n hn j hj => ?_, hbegun ?_⟩
  · simp only [Isys.setStream, hrun]
  · rw [hout', hout₂, hpinned n hn j hj, Nat.zero_add]
  · rw [sentSets_cons, if_pos ⟨rfl, rfl⟩]
    simp

end

-- ---------------------------------------------------------------------------
-- All streams
-- ---------------------------------------------------------------------------

/-- The queues of a stream. A node that joins when there are already `nr_queues` is
none of them, and no set is sent from then on. -/
def Stream.members (st : Stream) : List Nat :=
  st.queues.drop (st.queues.length - st.nrQueues.toNat)

/-- Sets are taken from the queue. -/
def Captured (s : Isys) (j : Nat) : Prop :=
  ∃ k, (s.av j).stream = some k ∧ (s.streams k).streaming = true ∧ j ∈ (s.streams k).members

structure Fifo (history : Nat → List Buffer) (s : Isys) : Prop where
  wf : Wf s
  own : Own s.bufs
  full : ∀ k, (s.streams k).streaming = true →
    1 ≤ (s.streams k).nrQueues ∧ (s.streams k).nrQueues ≤ (s.streams k).nrStreaming
  unsent : ∀ k, (s.streams k).streaming = false → sentSets s.fw k = []
  fresh : ∀ j, ¬ Captured s j → (s.bufs.incoming j).reverse = history j
  inStep : ∀ k, (s.streams k).streaming = true →
    InStep history k (s.streams k).members s.fw s.bufs
  pins : ∀ k, (s.streams k).streaming = true → Pinned s.fw (s.streams k).members
  begun : ∀ k, (s.streams k).streaming = true → sentSets s.fw k ≠ []

section
variable {history : Nat → List Buffer} {s s' : Isys} {k : Nat} {b : Buffer}

theorem fifo_initial : Fifo (fun _ => []) initial where
  wf := wf_initial
  own := fun _ _ h => nomatch h
  full := fun _ h => nomatch h
  unsent := fun _ _ => rfl
  fresh := fun _ _ => rfl
  inStep := fun _ h => nomatch h
  pins := fun _ h => nomatch h
  begun := fun _ h => nomatch h

theorem members_sub (hj : j ∈ Stream.members st) : j ∈ st.queues := List.mem_of_mem_drop hj

theorem members_complete {st : Stream} (hlen : st.nrStreaming = st.queues.length)
    (hnr : st.nrStreaming = st.nrQueues) : st.members = st.queues := by
  unfold Stream.members
  rw [show st.queues.length - st.nrQueues.toNat = 0 by omega, List.drop_zero]

def push (history : Nat → List Buffer) (b : Buffer) : Nat → List Buffer :=
  Function.update history b.queue (history b.queue ++ [b])

theorem push_apply (history : Nat → List Buffer) (b : Buffer) (j : Nat) :
    push history b j = history j ++ if j = b.queue then [b] else [] := by
  by_cases hj : j = b.queue
  · subst hj
    simp [push]
  · simp [push, hj]

theorem Taken.push (h : Taken history fw queues i frame) (b : Buffer) :
    Taken (push history b) fw queues i frame := by
  obtain ⟨bl, hbl, hbuf, hset⟩ := h
  refine ⟨bl, hbl, fun c hc => ?_, hset⟩
  have hi := (List.getElem?_eq_some_iff.mp (hbuf c hc)).1
  rw [push_apply, List.getElem?_append_left hi]
  exact hbuf c hc

theorem incoming_push (hl : (s.bufs.incoming j).reverse = (history j).drop n)
    (hn : n ≤ (history j).length) :
    ((s.addIncoming b).bufs.incoming j).reverse = (push history b j).drop n := by
  rw [incoming_addIncoming, push_apply, List.drop_append_of_le_length hn, ← hl]
  by_cases hj : j = b.queue
  · simp [hj]
  · simp [hj]

theorem InStep.push (h : InStep history k queues s.fw s.bufs) (b : Buffer) :
    InStep (push history b) k queues (s.addIncoming b).fw (s.addIncoming b).bufs where
  waiting := fun j hj => incoming_push (h.waiting j hj) (h.le j hj)
  le := fun j hj => by
    rw [push_apply, List.length_append]
    exact Nat.le_trans (h.le j hj) (Nat.le_add_right _ _)
  sets := fun i set hset => (h.sets i set hset).push b

theorem Fifo.push (h : Fifo history s) (b : Buffer) : Fifo (push history b) (s.addIncoming b) where
  wf := ⟨h.wf.nodup, h.wf.mem, h.wf.called, h.wf.count, h.wf.ready⟩
  own := fun j c hc => by
    rw [incoming_addIncoming] at hc
    split at hc
    next hj =>
      rcases List.mem_cons.mp hc with rfl | hc
      · exact hj.symm
      · exact h.own j c hc
    · exact h.own j c hc
  full := h.full
  unsent := h.unsent
  fresh := fun j hj => by
    have hl := h.fresh j hj
    rw [← List.drop_zero (l := history j)] at hl
    simpa using incoming_push hl (Nat.zero_le _)
  inStep := fun k hk => (h.inStep k hk).push b
  pins := h.pins
  begun := h.begun

theorem Fifo.advance (h : Fifo history s) (hw : Wf s')
    (hnr : (s.streams k).nrStreaming = (s.streams k).nrQueues) (hq : (s.streams k).queues ≠ [])
    (hav : ∀ j, (s'.av j).stream = (s.av j).stream)
    (hst : s'.streams = Function.update s.streams k { s.streams k with streaming := true })
    (hin : InStep history k (s.streams k).queues s'.fw s'.bufs)
    (hb : Beside k (s.streams k).queues s.fw s.bufs s'.fw s'.bufs) (hown : Own s'.bufs)
    (hpins : Pinned s'.fw (s.streams k).queues) (hbegun : sentSets s'.fw k ≠ []) : Fifo history s' := by
  have hmem : (s.streams k).members = (s.streams k).queues := members_complete (h.wf.count k) hnr
  have hself : s'.streams k = { s.streams k with streaming := true } := by simp [hst]
  have hother : ∀ k', k' ≠ k → s'.streams k' = s.streams k' := fun k' hk => by simp [hst, hk]
  have hmem' : (s'.streams k).members = (s.streams k).queues := hself ▸ hmem
  have hdis : ∀ k', k' ≠ k → ∀ j ∈ (s.streams k').members, j ∉ (s.streams k).queues := by
    intro k' hk j hj hjk
    have h₁ := (h.wf.mem j k').mp (members_sub hj)
    rw [(h.wf.mem j k).mp hjk] at h₁
    exact hk (Option.some.inj h₁).symm
  refine ⟨hw, hown, fun k' hs => ?_, fun k' hs => ?_, fun j hj => ?_, fun k' hs => ?_,
    fun k' hs => ?_, fun k' hs => ?_⟩
  · by_cases hk : k' = k
    · subst hk
      rw [hself]
      exact ⟨(h.wf.ready k' hq).2, Int.le_of_eq hnr.symm⟩
    · rw [hother k' hk] at hs ⊢
      exact h.full k' hs
  · by_cases hk : k' = k
    · subst hk
      rw [hself] at hs
      cases hs
    · rw [hother k' hk] at hs
      rw [hb.sets k' hk]
      exact h.unsent k' hs
  · have hjq : j ∉ (s.streams k).queues := fun hjq =>
      hj ⟨k, (hav j).trans ((h.wf.mem j k).mp hjq), by rw [hself], hmem' ▸ hjq⟩
    rw [hb.incoming j hjq]
    refine h.fresh j ?_
    rintro ⟨k', hjk, hs, hjm⟩
    by_cases hk : k' = k
    · subst hk
      exact hjq (members_sub hjm)
    · refine hj ⟨k', (hav j).trans hjk, ?_, ?_⟩
      · rwa [hother k' hk]
      · rwa [hother k' hk]
  · by_cases hk : k' = k
    · subst hk
      rwa [hmem']
    · rw [hother k' hk] at hs ⊢
      exact (h.inStep k' hs).beside hb hk (hdis k' hk)
  · by_cases hk : k' = k
    · subst hk
      rwa [hmem']
    · rw [hother k' hk] at hs ⊢
      intro n hn j hj
      rw [hb.output j (hdis k' hk j (List.mem_of_getElem? hj))]
      exact h.pins k' hs n hn j hj
  · by_cases hk : k' = k
    · subst hk
      exact hbegun
    · rw [hother k' hk] at hs
      rw [hb.sets k' hk]
      exact h.begun k' hs

theorem members_join {st : Stream} (hlen : st.nrStreaming = st.queues.length)
    (hfull : st.nrQueues ≤ st.nrStreaming) (i : Nat) : (st.join i).members = st.members := by
  have hsub : st.queues.length + 1 - st.nrQueues.toNat = st.queues.length - st.nrQueues.toNat + 1 := by
    omega
  show (i :: st.queues).drop (st.queues.length + 1 - st.nrQueues.toNat) = _
  rw [hsub]
  rfl

theorem Fifo.join (h : Fifo history s) (hw : Wf s') (hno : (s.av i).stream = none)
    (hi : (s'.av i).stream = some k) (hav : ∀ j, j ≠ i → (s'.av j).stream = (s.av j).stream)
    (hst : s'.streams = Function.update s.streams k ((StartEnv.stream env s k e).join i))
    (hcmds : s'.fw.cmds = s.fw.cmds) (hout : s'.fw.fwOutput = s.fw.fwOutput)
    (hbufs : s'.bufs = s.bufs) : Fifo history s' := by
  have hstr : ∀ k', (s'.streams k').streaming = (s.streams k').streaming := by
    intro k'
    by_cases hk : k' = k
    · subst hk
      rw [hst, Function.update_self]
      exact stream_streaming env s k' e
    · rw [hst, Function.update_of_ne hk]
  have hjoin : ∀ k', (s.streams k').streaming = true → s'.streams k' = s.streams k' ∨
      s'.streams k' = (s.streams k').join i := by
    intro k' hs
    by_cases hk : k' = k
    · subst hk
      have hne : (s.streams k').nrStreaming ≠ 0 := by
        have := h.full k' hs
        omega
      right
      rw [hst, Function.update_self, StartEnv.stream, if_neg hne]
    · left
      rw [hst, Function.update_of_ne hk]
  have hmem : ∀ k', (s.streams k').streaming = true →
      (s'.streams k').members = (s.streams k').members := by
    intro k' hs
    rcases hjoin k' hs with heq | heq
    · rw [heq]
    · rw [heq]
      exact members_join (h.wf.count k') (h.full k' hs).2 i
  have hsent : ∀ k', sentSets s'.fw k' = sentSets s.fw k' := fun k' => by
    unfold sentSets
    rw [hcmds]
  refine ⟨hw, hbufs ▸ h.own, fun k' hs => ?_, fun k' hs => ?_, fun j hj => ?_, fun k' hs => ?_,
    fun k' hs => ?_, fun k' hs => ?_⟩
  · rw [hstr] at hs
    have hfull := h.full k' hs
    rcases hjoin k' hs with heq | heq
    · rw [heq]
      exact hfull
    · rw [heq]
      exact ⟨hfull.1, Int.le_add_one hfull.2⟩
  · rw [hstr] at hs
    rw [hsent]
    exact h.unsent k' hs
  · rw [hbufs]
    refine h.fresh j ?_
    rintro ⟨k', hjk, hs, hjm⟩
    have hji : j ≠ i := by
      rintro rfl
      rw [hno] at hjk
      cases hjk
    exact hj ⟨k', (hav j hji).trans hjk, (hstr k').trans hs, hmem k' hs ▸ hjm⟩
  · rw [hstr] at hs
    have hin := h.inStep k' hs
    rw [hmem k' hs, hbufs]
    refine ⟨?_, ?_, ?_⟩
    · rw [hsent]
      exact hin.waiting
    · rw [hsent]
      exact hin.le
    · intro i set hset
      rw [hsent] at hset
      obtain ⟨bl, hbl, hbuf, hfill⟩ := hin.sets i set hset
      exact ⟨bl, hbl, hbuf, hfill.trans (fill_congr fun b _ => by rw [hout])⟩
  · rw [hstr] at hs
    rw [hmem k' hs]
    intro n hn j hj
    rw [hout]
    exact h.pins k' hs n hn j hj
  · rw [hstr] at hs
    rw [hsent]
    exact h.begun k' hs

-- ---------------------------------------------------------------------------
-- One step
-- ---------------------------------------------------------------------------

/-- Nothing fails in the operation, and it does not stop or restart a queue. -/
def Smooth (s : Isys) (st : Step) : Prop :=
  (∀ c ∈ applyCalls s st, c.succeeds = true) ∧
    match st.op with
    | .queue b env => ∀ k, env.slot s b = some k → QueueCompletes s b k →
        (s.streams k).streaming = false → env.result s k = .started
    | .start i env => (startStreaming s env i).2 = 0
    | .stop .. | .restart .. => False
    | .ready .. => True

/-- The buffer that the operation hands over, if it is for queue `j`. -/
def Step.queued (st : Step) (j : Nat) : List Buffer :=
  match st.op with
  | .queue b _ => if j = b.queue then [b] else []
  | _ => []

/-- The buffers handed over for queue `j`, the first one first. -/
def queued (steps : List Step) (j : Nat) : List Buffer := steps.flatMap (Step.queued · j)

theorem Fifo.ready (h : Fifo history s) (k pin pinAddr : Nat) (errorCheck : Bool) :
    Fifo history (pinDataReady s k pin pinAddr errorCheck) := by
  unfold pinDataReady
  split
  · exact h
  split
  · exact h
  next i _ =>
    have hin : (ipu6StreamBufReady s.bufs i pinAddr errorCheck).incoming = s.bufs.incoming := by
      unfold ipu6StreamBufReady
      split
      · rfl
      · rfl
    refine ⟨⟨h.wf.nodup, h.wf.mem, h.wf.called, h.wf.count, h.wf.ready⟩, ?_, h.full, h.unsent, ?_,
      fun k hk => ?_, h.pins, h.begun⟩
    · intro j b hb
      rw [hin] at hb
      exact h.own j b hb
    · intro j hj
      rw [hin]
      exact h.fresh j hj
    · have hstep := h.inStep k hk
      refine ⟨fun j hj => ?_, hstep.le, hstep.sets⟩
      rw [hin]
      exact hstep.waiting j hj

theorem Fifo.waiting (h : Fifo history s) (hs : (s.streams k).streaming = false)
    (hj : j ∈ (s.streams k).queues) : (s.bufs.incoming j).reverse = history j := by
  refine h.fresh j ?_
  rintro ⟨k', hjk, hs', -⟩
  rw [(h.wf.mem j k).mp hj] at hjk
  obtain rfl := Option.some.inj hjk
  rw [hs] at hs'
  cases hs'

theorem Fifo.queueStream (h : Fifo history s) (env : BufQueueEnv) (i : Nat)
    (hw : Wf (bufQueueStream s env i k)) (hq : (s.streams k).queues ≠ [])
    (hcalls : ∀ c ∈ bufQueueStreamCalls s env i k, c.succeeds = true)
    (hres : ∀ q bl, bufferListGet s.bufs (s.streams k).queues [] = (q, some bl) →
      (s.streams k).nrStreaming = (s.streams k).nrQueues → (s.streams k).streaming = false →
      env.start.set.result (s.streams k).sourceEntity.isSome (s.streams k).queues true = .started) :
    Fifo history (bufQueueStream s env i k) := by
  unfold bufQueueStream at hw ⊢
  unfold bufQueueStreamCalls at hcalls
  dsimp only at hw hcalls ⊢
  by_cases hnr : (s.streams k).nrStreaming = (s.streams k).nrQueues
  case neg =>
    rw [if_pos hnr]
    exact h
  rw [if_neg (not_not.mpr hnr)] at hw hcalls ⊢
  cases hget : bufferListGet s.bufs (s.streams k).queues [] with
  | mk q r =>
  rw [hget] at hw hcalls
  cases r with
  | none =>
    rw [bufferListGet_none_eq h.own hget]
    exact h
  | some bl =>
    obtain ⟨hmsg, hcalls⟩ := List.forall_mem_cons.mp hcalls
    replace hmsg : env.msg = true := hmsg
    simp only [hmsg, Bool.not_true, Bool.false_eq_true, if_false] at hw hcalls ⊢
    cases hstr : (s.streams k).streaming with
    | false =>
      simp only [hstr, Bool.not_false, if_true] at hw hcalls ⊢
      obtain ⟨fw', q', hrun, hin, hb, hown, hpins, hbegun⟩ :=
        InStep.start { s with bufs := q } env.start i k bl true (h.wf.nodup k) h.own hget
          (h.unsent k hstr) (fun j hj => h.waiting hstr hj) (hres q bl hget hnr hstr) hcalls
      rw [hrun] at hw ⊢
      exact h.advance hw hnr hq (setAv_streaming_stream s i true) rfl hin hb hown hpins hbegun
    | true =>
      simp only [hstr, Bool.not_true, Bool.false_eq_true, if_false] at hw hcalls ⊢
      have hmem := members_complete (h.wf.count k) hnr
      have hin := h.inStep k hstr
      have hpins := h.pins k hstr
      rw [hmem] at hin hpins
      refine h.advance hw hnr hq (fun _ => rfl) ?_
        (hin.send (c := ⟨k, .streamCapture, ipu6IsysBufToFwFrameBuf s.fw bl, env.send⟩) h.own
          (h.wf.nodup k) hget rfl rfl rfl)
        (Beside.send (h.wf.nodup k) hget s.fw rfl) ?_ hpins ?_
      · rw [← hstr]
        exact (Function.update_eq_self k s.streams).symm
      · intro j c hc
        rw [incoming_queue_active] at hc
        exact h.own.get hget j c hc
      · refine (sentSets_cons s.fw ⟨k, .streamCapture, ipu6IsysBufToFwFrameBuf s.fw bl, env.send⟩ k).trans_ne ?_
        simp [Cmd.framed]

theorem Fifo.queue (h : Fifo history s) (b : Buffer) (env : BufQueueEnv) (hb : b ∉ s.bufs.held)
    (init : InitEnv) (hsmooth : Smooth s ⟨.queue b env, init⟩) :
    Fifo (Capture.push history b) (apply s (.queue b env)) := by
  have hw := h.wf.queue hb env
  have hpush := h.push b
  obtain ⟨hcalls, hstart⟩ := hsmooth
  change Wf (bufQueue s env b) at hw
  change ∀ c ∈ bufQueueCalls s env b, c.succeeds = true at hcalls
  show Fifo (Capture.push history b) (bufQueue s env b)
  rw [bufQueue_slot] at hw ⊢
  rw [bufQueueCalls_slot] at hcalls
  cases hslot : env.slot s b with
  | none => exact hpush
  | some k =>
    rw [hslot] at hw hcalls
    refine hpush.queueStream env b.queue hw ?_ hcalls fun q bl hget hnr hstr => ?_
    · exact List.ne_nil_of_mem ((h.wf.mem b.queue k).mpr (BufQueueEnv.slot_stream hslot))
    · have hcomp := (queueCompletes_iff (h.wf.nodup k) hget).mp rfl
      exact hstart k hslot ⟨hnr, hcomp⟩ hstr

theorem fwGet_fwcom (h : ipu6IsysFwGet s env = (s', 0)) :
    ∃ fwcom, s' = { s with fw := { s.fw with fwcom := fwcom }, refCount := s.refCount + 1 } := by
  simp only [ipu6IsysFwGet] at h
  split at h
  next hres => exact absurd (Prod.mk.inj h).2 (Int.ne_of_lt hres)
  split at h
  · exact ⟨s.fw.fwcom, (Prod.mk.inj h).1.symm⟩
  split at h
  next hret => exact absurd (Prod.mk.inj h).2 (Int.ne_of_lt hret)
  · obtain rfl := (Prod.mk.inj h).1
    cases env.fwOpen with
    | ok => exact ⟨true, rfl⟩
    | error ret fwcom => exact ⟨fwcom, rfl⟩

theorem startStreaming_joined (env : StartEnv) (init : InitEnv)
    (hret : (startStreaming s env i).2 = 0) :
    ∃ k e s₁, startStreaming s env i = startJoined s₁ env i k ∧
      (∀ c ∈ startJoinedCalls s₁ env i k, c ∈ startStreamingCalls s env init i) ∧
      0 < env.setup.routes.length ∧ Entered s s₁ i k (s.av i).streaming ∧
      s₁.streams = Function.update s.streams k ((env.stream s k e).join i) ∧
      s₁.fw.cmds = s.fw.cmds ∧ s₁.fw.fwOutput = s.fw.fwOutput ∧ s₁.bufs = s.bufs := by
  unfold startStreaming at hret ⊢
  unfold startStreamingCalls
  cases hsetup : ipu6IsysSetupVideo s env.setup i with
  | mk s₁ r =>
  rw [hsetup] at hret
  cases r with
  | error ret => exact absurd hret (Int.ne_of_lt ret.2)
  | ok r =>
    obtain ⟨k, e, n⟩ := r
    obtain ⟨hh, hav, rfl, hroutes⟩ := setupVideo_ok hsetup
    dsimp only at hret ⊢
    by_cases hlink : env.linkFmt = 0
    case neg =>
      rw [if_pos hlink] at hret
      exact absurd hret hlink
    simp only [hlink, ne_eq, not_true, if_false] at hret ⊢
    cases hget : ipu6IsysFwGet s₁ env.get with
    | mk s₂ ret =>
    rw [hget] at hret
    by_cases hzero : ret = 0
    case neg =>
      simp only [hzero, not_false_eq_true, if_true] at hret
      exact absurd hret hzero
    subst hzero
    obtain ⟨fwcom, rfl⟩ := fwGet_fwcom hget
    obtain ⟨streams, ret, hprep, hcases⟩ := prepareFirst_spec
      { s₁ with fw := { s₁.fw with fwcom := fwcom }, refCount := s₁.refCount + 1 } env k e
    simp only [startPoweredCalls, hprep, not_true, if_false] at hret ⊢
    rcases hcases with ⟨hne, -⟩ | ⟨rfl, -, hst⟩
    · rw [if_pos hne] at hret
      exact absurd hret hne
    · rw [if_neg (not_not.mpr rfl)]
      refine ⟨k, e, _, rfl, fun c hc => ?_, hroutes, ⟨hav, hh.refs⟩, ?_, ?_, ?_, hh.bufs⟩
      · exact List.mem_cons_of_mem _ (List.mem_append_right _ hc)
      · show Function.update streams k ((streams k).join i) = _
        rw [hst, hh.streams, Function.update_idem, Function.update_self]
        rfl
      · show s₁.fw.cmds = s.fw.cmds
        rw [hh.fw]
      · show s₁.fw.fwOutput = s.fw.fwOutput
        rw [hh.fw]

theorem streamStart_started (s : Isys) (env : StreamStartEnv) (i k : Nat) (bl : List Buffer)
    (error : Bool) (hret : (ipu6IsysStreamStart s env i k bl error).2 = 0) :
    env.set.result (s.streams k).sourceEntity.isSome (s.streams k).queues true = .started := by
  have hon := setStreaming_on s env.set i k (some bl)
  rw [Option.isSome_some] at hon
  unfold ipu6IsysStreamStart at hret
  generalize ipu6IsysVideoSetStreaming s env.set i k true (some bl) = r at hon hret
  generalize env.set.result (s.streams k).sourceEntity.isSome (s.streams k).queues true = res at hon ⊢
  have hno : ∀ {s₁ : Isys} {bl' : Option (List Buffer)} {ret : Int}, r = (s₁, bl', ret) → ret ≠ 0 →
      res = .started := by
    rintro s₁ bl' ret rfl hne
    simp only [hne, ne_eq, not_false_eq_true, if_true] at hret
  cases hon with
  | refused hm hne => exact hno rfl hne
  | unanswered hm hne => exact hno rfl hne
  | unstarted hm hne => exact hno rfl hne
  | undone hm hne => exact hno rfl hne
  | started hm => rfl

/-- The node counts as started from the moment it has joined, as far as the rest of
the call can see. -/
theorem Fifo.startJoined (h : Fifo history (s.setCalled i true)) (env : StartEnv)
    (hw : Wf ((startJoined s env i k).1.setCalled i true)) (hidle : (s.streams k).nrStreaming =
      (s.streams k).nrQueues → (s.streams k).streaming = false)
    (hq : (s.streams k).queues ≠ []) (hret : (startJoined s env i k).2 = 0)
    (hcalls : ∀ c ∈ startJoinedCalls s env i k, c.succeeds = true) :
    Fifo history ((Capture.startJoined s env i k).1.setCalled i true) := by
  unfold Capture.startJoined at hw hret ⊢
  unfold startJoinedCalls at hcalls
  dsimp only at hw hret hcalls ⊢
  by_cases hnr : (s.streams k).nrStreaming = (s.streams k).nrQueues
  case neg =>
    rw [if_pos hnr]
    exact h
  rw [if_neg (not_not.mpr hnr)] at hw hret hcalls ⊢
  replace hidle := hidle hnr
  cases hget : bufferListGet s.bufs (s.streams k).queues [] with
  | mk q r =>
  rw [hget] at hw hret hcalls
  cases r with
  | none =>
    rw [bufferListGet_none_eq h.own hget]
    exact h
  | some bl =>
    obtain ⟨hcalls, -⟩ := List.forall_mem_append.mp hcalls
    dsimp only at hw hret ⊢
    have hzero : (ipu6IsysStreamStart { s with bufs := q } env.start i k bl false).2 = 0 := by
      by_contra hne
      rw [if_neg hne] at hret
      exact hne hret
    rw [if_pos hzero] at hw ⊢
    have hres := streamStart_started { s with bufs := q } env.start i k bl false hzero
    obtain ⟨fw', q', hrun, hin, hb, hown, hpins, hbegun⟩ :=
      InStep.start { s with bufs := q } env.start i k bl false (h.wf.nodup k) h.own hget
        (h.unsent k hidle) (fun j hj => h.waiting hidle hj) hres hcalls
    rw [hrun] at hw ⊢
    refine h.advance hw hnr hq (fun j => ?_) rfl hin hb hown hpins hbegun
    refine (setCalled_stream _ i true j).trans ((setAv_streaming_stream s i true j).trans ?_)
    exact (setCalled_stream s i true j).symm

theorem Fifo.start (h : Fifo history s) (env : StartEnv) (hc : (s.av i).called = false)
    (init : InitEnv) (hsmooth : Smooth s ⟨.start i env, init⟩) :
    Fifo history (apply s (.start i env)) := by
  have hw := h.wf.start hc env
  have hno := h.wf.stream_none hc
  obtain ⟨hcalls, hret⟩ := hsmooth
  replace hret : (startStreaming s env i).2 = 0 := hret
  obtain ⟨k, e, s₁, hrun, hsub, hroutes, hent, hst, hcmds, hout, hbufs⟩ :=
    startStreaming_joined env init hret
  simp only [apply] at hw ⊢
  rw [decide_eq_true hret, hrun] at hw ⊢
  rw [hrun] at hret
  have hjoin : Fifo history (s₁.setCalled i true) := by
    refine h.join (h.wf.entered hno hroutes hent (c := (env.stream s k e).streaming) hst) hno ?_
      (fun j hj => ?_) hst hcmds hout hbufs
    · simp [Isys.setCalled, Isys.setAv, hent.av]
    · simp [Isys.setCalled, Isys.setAv, hent.av, hj]
  refine hjoin.startJoined env hw (fun hnr => ?_) ?_ hret fun c hc => hcalls c (hsub c hc)
  · rw [hst, Function.update_self] at hnr ⊢
    have hnr' : (s.streams k).nrStreaming + 1 = (env.stream s k e).nrQueues :=
      stream_nrStreaming env s k e ▸ hnr
    cases hs : (s.streams k).streaming with
    | false => exact (stream_streaming env s k e).trans hs
    | true =>
      -- a stream that streams is complete, so one more node is too many
      have hfull := h.full k hs
      have hkeep : env.stream s k e = s.streams k := if_neg (by omega)
      rw [hkeep] at hnr'
      omega
  · rw [hst, Function.update_self]
    exact List.cons_ne_nil _ _

theorem Fifo.apply (h : Fifo history s) (st : Step) (hok : Allowed s st.op) (hsmooth : Smooth s st) :
    Fifo (fun j => history j ++ st.queued j) (apply s st.op) := by
  have hsame : (∀ j, st.queued j = []) → (fun j => history j ++ st.queued j) = history := by
    intro hnil
    funext j
    rw [hnil, List.append_nil]
  obtain ⟨op, init⟩ := st
  cases op with
  | queue b env =>
    have hhist : (fun j => history j ++ Step.queued ⟨.queue b env, init⟩ j) = Capture.push history b := by
      funext j
      exact (push_apply history b j).symm
    rw [hhist]
    exact h.queue b env hok init hsmooth
  | start i env =>
    rw [hsame fun _ => rfl]
    exact h.start env hok init hsmooth
  | stop i env => exact absurd hsmooth.2 id
  | restart i env => exact absurd hsmooth.2 id
  | ready k pin pinAddr errorCheck =>
    rw [hsame fun _ => rfl]
    exact h.ready k pin pinAddr errorCheck

theorem Fifo.run (h : Fifo history s) (steps : List Step)
    (hok : ∀ x ∈ visited nextStep s steps, Allowed x.1 x.2.op ∧ Smooth x.1 x.2) :
    Fifo (fun j => history j ++ queued steps j) (steps.foldl nextStep s) := by
  induction steps generalizing history s with
  | nil => simpa [queued] using h
  | cons st steps ih =>
    rw [visited, List.forall_mem_cons] at hok
    obtain ⟨⟨hallowed, hsmooth⟩, hrest⟩ := hok
    have hnext : nextStep s st = Capture.apply s st.op := if_pos hallowed
    have hstep := h.apply st hallowed hsmooth
    rw [← hnext] at hstep
    have hrun := ih hstep hrest
    simp only [List.append_assoc] at hrun
    exact hrun

end

-- ---------------------------------------------------------------------------
-- Runs
-- ---------------------------------------------------------------------------

/-- What an operation that starts with the lists `q` has made of them whenever it
calls `buffer_list_get`: it has added its buffer, or sent sets. -/
inductive Underway (q : Bufs) : Bufs → Prop
  | refl : Underway q q
  | add : Underway q q' → Underway q
      (({ q' with held := insert b q'.held }).setIncoming b.queue (b :: q'.incoming b.queue))
  | send : Underway q q' → bufferListGet q' queues [] = (q'', some bl) →
      Underway q (ipu6IsysBufferListQueue q'' .active none bl)

theorem Own.underway (hown : Own q) (h : Underway q q') : Own q' := by
  induction h with
  | refl => exact hown
  | @add q' b _ ih =>
    intro j c hc
    by_cases hj : j = b.queue
    · subst hj
      rw [incoming_setIncoming] at hc
      rcases List.mem_cons.mp hc with rfl | hc
      · rfl
      · exact ih _ c hc
    · rw [incoming_setIncoming_of_ne hj] at hc
      exact ih j c hc
  | send _ hget ih =>
    intro j c hc
    rw [incoming_queue_active] at hc
    exact ih.get hget j c hc

def runSteps (steps : List Step) : Isys := steps.foldl nextStep initial

/-- In what a run has sent to stream `k`, set `i` has the `i`-th buffer of every one of its
queues, each at its own pin; and a set that cannot be completed leaves the lists as they
were. -/
structure SetsFifo (steps : List Step) (k : Nat) : Prop where
  sets : ∀ i frame, (sentSets (runSteps steps).fw k)[i]? = some frame →
    IsSet (queued steps) (runSteps steps).fw.fwOutput ((runSteps steps).streams k).members i frame
  own : ((runSteps steps).streams k).streaming = true →
    ∀ j ∈ ((runSteps steps).streams k).members, ∀ j' ∈ ((runSteps steps).streams k).members,
      (runSteps steps).fw.fwOutput j = (runSteps steps).fw.fwOutput j' → j = j'
  complete : ((runSteps steps).streams k).nrStreaming = ((runSteps steps).streams k).nrQueues →
    ((runSteps steps).streams k).members = ((runSteps steps).streams k).queues
  kept : ∀ q queues q', Underway (runSteps steps).bufs q → bufferListGet q queues [] = (q', none) → q' = q

theorem fifo_runSteps {steps : List Step}
    (hok : ∀ x ∈ visited nextStep initial steps, Allowed x.1 x.2.op ∧ Smooth x.1 x.2) :
    Fifo (queued steps) (runSteps steps) := by
  have h := fifo_initial.run steps hok
  simp only [List.nil_append] at h
  exact h

theorem SetsFifo.length_le {steps : List Step} (h : SetsFifo steps k)
    (hok : ∀ x ∈ visited nextStep initial steps, Allowed x.1 x.2.op ∧ Smooth x.1 x.2)
    (hs : ((runSteps steps).streams k).streaming = true) :
    ((runSteps steps).streams k).members.length ≤ IPU4_MAX_OPINS := by
  have hrun := fifo_runSteps hok
  obtain ⟨frame, frames, hsets⟩ := List.exists_cons_of_ne_nil (hrun.begun k hs)
  exact (h.sets 0 frame (by rw [hsets]; rfl)).length_le (hrun.pins k hs)

/-- In every run in which nothing fails and nothing is stopped or restarted, the sets of a
stream are in order if and only if it has been started with no more queues than a set
has pins. -/
theorem capture_sets_fifo_iff (steps : List Step)
    (hok : ∀ x ∈ visited nextStep initial steps, Allowed x.1 x.2.op ∧ Smooth x.1 x.2) (k : Nat) :
    SetsFifo steps k ↔ (((runSteps steps).streams k).streaming = true →
      ((runSteps steps).streams k).members.length ≤ IPU4_MAX_OPINS) := by
  have h := fifo_runSteps hok
  constructor
  · exact fun hfifo => hfifo.length_le hok
  · intro hlen
    refine ⟨fun i frame hset => ?_, fun hs j hj j' hj' heq => ?_, fun hnr => ?_, fun q queues q' hq hget => ?_⟩
    · have hs : ((runSteps steps).streams k).streaming = true := by
        by_contra hs
        rw [h.unsent k (Bool.eq_false_iff.mpr hs)] at hset
        cases hset
      have hnd : ((runSteps steps).streams k).members.Nodup := (h.wf.nodup k).sublist (List.drop_sublist _ _)
      exact ((h.inStep k hs).sets i frame hset).isSet hnd (h.pins k hs) (hlen hs)
    · exact (h.pins k hs).inj (hlen hs) hj hj' heq
    · exact members_complete (h.wf.count k) hnr
    · exact bufferListGet_none_eq (h.own.underway hq) hget

abbrev quietStep (op : Op) : Step := ⟨op, ⟨true, true, true, 0⟩⟩

/-- Two nodes: the first has two buffers before the second has any. -/
def unevenSteps : List Step :=
  [.queue ⟨0, 0, 4096⟩ plainQueue, .queue ⟨0, 1, 8192⟩ plainQueue, .start 0 (plainStart 2),
    .start 1 { plainStart 2 with setup := ⟨.ok (0, 2), some 0, [1, 2], .ok 0, none⟩ },
    .queue ⟨1, 0, 12288⟩ plainQueue, .queue ⟨1, 1, 16384⟩ plainQueue].map quietStep

theorem plainQueue_started (s : Isys) (k : Nat) (hs : (s.streams k).sourceEntity.isSome = true) :
    plainQueue.result s k = .started := by
  simp [BufQueueEnv.result, SetEnv.result, FwStart.result, plainQueue, plainStreamStart, plainSet,
    plainFwStart, hs]

theorem smooth_unjoined (hno : (s.av b.queue).stream = none) : Smooth s (quietStep (.queue b plainQueue)) := by
  have hslot : plainQueue.slot s b = none := by simp [BufQueueEnv.slot, hno]
  refine ⟨?_, fun k hk => ?_⟩
  · show ∀ c ∈ bufQueueCalls s plainQueue b, c.succeeds = true
    rw [bufQueueCalls_slot, hslot]
    exact List.forall_mem_nil _
  · rw [hslot] at hk
    cases hk

/-- The second set has the second buffer of each node. -/
theorem capture_sets_fifo_uneven :
    SetsFifo unevenSteps 0 ∧ ((sentSets (runSteps unevenSteps).fw 0)[1]?.map fun frame =>
      frame.outputPins.toList.take 2) = some [⟨2, 16384⟩, ⟨2, 8192⟩] := by
  refine ⟨(capture_sets_fifo_iff unevenSteps (fun x hx => ?_) 0).mpr (by decide +kernel), by decide +kernel⟩
  simp only [unevenSteps, List.map_cons, List.map_nil, visited, List.mem_cons, List.not_mem_nil,
    or_false] at hx
  rcases hx with rfl | rfl | rfl | rfl | rfl | rfl
  · exact ⟨by decide +kernel, smooth_unjoined rfl⟩
  · exact ⟨by decide +kernel, smooth_unjoined rfl⟩
  · exact ⟨by decide +kernel, by decide +kernel, by decide +kernel⟩
  · exact ⟨by decide +kernel, by decide +kernel, by decide +kernel⟩
  · refine ⟨by decide +kernel, by decide +kernel, fun k hk _ _ => ?_⟩
    obtain rfl := Option.some.inj hk
    exact plainQueue_started _ 0 rfl
  · refine ⟨by decide +kernel, by decide +kernel, fun k hk _ _ => ?_⟩
    obtain rfl := Option.some.inj hk
    exact plainQueue_started _ 0 rfl

/-- Seven nodes with a buffer each, and then all of them are started. -/
def sevenSteps : List Step :=
  ([0, 1, 2, 3, 4, 5, 6].map fun i => quietStep (.queue ⟨i, 0, 4096 * (i + 1)⟩ plainQueue)) ++
    [0, 1, 2, 3, 4, 5, 6].map fun i => quietStep (.start i
      { plainStart 7 with setup := ⟨.ok (0, i + 1), some 0, [1, 2, 3, 4, 5, 6, 7], .ok 0, none⟩ })

theorem seven_smooth : ∀ x ∈ visited nextStep initial sevenSteps, Allowed x.1 x.2.op ∧ Smooth x.1 x.2 := by
  simp only [sevenSteps, List.map_cons, List.map_nil, List.cons_append, List.nil_append, visited,
    List.forall_mem_cons]
  refine ⟨?_, ?_, ?_, ?_, ?_, ?_, ?_, ?_, ?_, ?_, ?_, ?_, ?_, ?_, fun _ hx => absurd hx List.not_mem_nil⟩
  -- the buffers, and then the starts
  iterate 7 exact ⟨by decide +kernel, smooth_unjoined (by decide +kernel)⟩
  iterate 7 exact ⟨by decide +kernel, by decide +kernel, by decide +kernel⟩

/-- A set has no pin for the seventh queue, whose buffer goes to what is behind the pins. -/
theorem seventh_queue_has_no_pin :
    (∀ x ∈ visited nextStep initial sevenSteps, Allowed x.1 x.2.op ∧ Smooth x.1 x.2) ∧
      (sentSets (runSteps sevenSteps).fw 0).map FrameBuffSet.processGroupLight = [⟨1, 4096⟩] ∧
      ¬ SetsFifo sevenSteps 0 :=
  ⟨seven_smooth, by decide +kernel, fun hfifo =>
    absurd (hfifo.length_le seven_smooth (by decide +kernel)) (by decide +kernel)⟩

end Ipu4.Capture
