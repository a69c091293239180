import Ipu4.Capture.Serves

/-!
# A response on its way

A response is about the buffers it can find from where the handler is. Which
nodes are attached to which slot through all steps of the nodes, and what a step
does to the nodes that the response is about.
-/

namespace Ipu4.Capture.Interleaved

-- ---------------------------------------------------------------------------
-- The nodes and the slots
-- ---------------------------------------------------------------------------

/-- What is true of node `i` at each place. -/
def PcOk (s : Isys) (i : Nat) : Pc → Prop
  | .idle => (s.av i).called = false → (s.av i).stream = none
  | .setUp _ k _ _ | .powered _ k _ _ =>
    (s.av i).stream = some k ∧ ∀ k', i ∉ (s.streams k').queues
  | .starting _ k bl | .opened _ k bl =>
    (s.av i).stream = some k ∧ ∀ b ∈ bl, b.queue ∈ (s.streams k).queues
  | .started _ k | .unstarted _ k _ _ | .failed _ k _ | .stopping _ k => (s.av i).stream = some k
  | .cleanup _ | .put _ => ∀ k, i ∉ (s.streams k).queues
  | .returning _ => (s.av i).stream = none

/-- The queues of a slot are attached to it, and the nodes are where they say. -/
structure Tied (w : State) : Prop where
  own : Owned w.isys.bufs
  mem : ∀ k, ∀ j ∈ (w.isys.streams k).queues, (w.isys.av j).stream = some k
  nodup : ∀ k, (w.isys.streams k).queues.Nodup
  pcs : ∀ i, PcOk w.isys i (w.pc i)
  locks : ∀ i k, (w.pc i).holds = some k → w.mutex k = some i

-- ---------------------------------------------------------------------------
-- The response on its way
-- ---------------------------------------------------------------------------

/-- As the pins are now, a response for stream `k` with the address `pinAddr` will be
looked for on the active list of queue `j`. -/
def Aims (fw : Firmware) (k j pinAddr : Nat) : Isr → Prop
  | .lookedUp k' pin addr _ =>
    k' = k ∧ addr = pinAddr ∧ pin < IPU6_ISYS_OUTPUT_PINS ∧ fw.outputPinsQueue k pin = some j
  | .found k' i addr _ => k' = k ∧ addr = pinAddr ∧ i = j
  | _ => False

/-- A response for stream `k` is being handled, and a buffer of queue `j` that it is
about is on the active list, or the handler has it and its time comes next. -/
def About (w : State) (k j : Nat) : Prop :=
  (∃ b ∈ w.isys.bufs.active j, Aims w.isys.fw k j b.dmaAddr w.isr) ∨
    ∃ b errorCheck, w.isr = .taken k b errorCheck ∧ b.queue = j

/-- The nodes that the response is about are attached to its stream. -/
def Aimed (w : State) : Prop := ∀ k j, About w k j → (w.isys.av j).stream = some k

/-- The buffers that become active from `w` to `w'` and that the response would find
are of nodes that are attached to its stream. -/
def AddsAimed (w w' : State) : Prop :=
  ∀ k j, ∀ b ∈ w'.isys.bufs.active j, b ∉ w.isys.bufs.active j →
    Aims w.isys.fw k j b.dmaAddr w.isr → (w.isys.av j).stream = some k

/-- What a step that detaches nobody does to the response: it can set pins of slot `k`
and make buffers active of queues that are attached to it. -/
structure Moved (k : Nat) (w w' : State) : Prop where
  isr : w'.isr = w.isr
  stream : ∀ j, (w'.isys.av j).stream = (w.isys.av j).stream ∨ (w.isys.av j).stream = none
  pins : ∀ k' p, w'.isys.fw.outputPinsQueue k' p = w.isys.fw.outputPinsQueue k' p ∨
    k' = k ∧ ∃ j, (w'.isys.av j).stream = some k ∧ w'.isys.fw.outputPinsQueue k' p = some j
  active : ∀ j, ∀ b ∈ w'.isys.bufs.active j,
    b ∈ w.isys.bufs.active j ∨ (w.isys.av j).stream = some k

section
variable {w w' : State} {s s' : Isys} {i j k k' : Nat} {ps js : List Nat} {pc' : Pc} {isr : Isr}
  {fw fw' : Firmware} {pinAddr : Nat}

theorem aims_out (fw : Firmware) (k j pinAddr : Nat) : ¬ Aims fw k j pinAddr .out := id

theorem not_about (h : ∀ pinAddr, ¬ Aims w.isys.fw k j pinAddr w.isr)
    (hno : ∀ b errorCheck, w.isr ≠ .taken k b errorCheck) : ¬ About w k j := by
  rintro (⟨b, -, haim⟩ | ⟨b, errorCheck, hisr, -⟩)
  · exact h _ haim
  · exact hno b errorCheck hisr

theorem Aims.congr (h : Aims fw k j pinAddr isr)
    (hpins : ∀ p, fw'.outputPinsQueue k p = fw.outputPinsQueue k p) : Aims fw' k j pinAddr isr := by
  cases isr with
  | lookedUp k₀ pin addr errorCheck =>
    obtain ⟨hk, haddr, hpin, hqueue⟩ := h
    exact ⟨hk, haddr, hpin, (hpins pin).trans hqueue⟩
  | out | found k₀ i addr e | taken k₀ b e | timed k₀ b e | leaving k₀ => exact h

theorem Moved.stays (h : Moved k w w') (hst : (w.isys.av j).stream = some k') :
    (w'.isys.av j).stream = some k' := by
  rcases h.stream j with hsame | hno
  · exact hsame.trans hst
  · rw [hno] at hst
    cases hst

theorem Moved.aims (h : Moved k w w') (haim : Aims w'.isys.fw k' j pinAddr w.isr) :
    Aims w.isys.fw k' j pinAddr w.isr ∨ (w'.isys.av j).stream = some k' := by
  cases hisr : w.isr with
  | lookedUp k₀ pin addr errorCheck =>
    rw [hisr] at haim
    obtain ⟨hk, haddr, hpin, hqueue⟩ := haim
    rcases h.pins k' pin with hsame | ⟨rfl, i, hst, hset⟩
    · exact .inl ⟨hk, haddr, hpin, hsame.symm.trans hqueue⟩
    · obtain rfl := Option.some.inj (hset.symm.trans hqueue)
      exact .inr hst
  | found k₀ i addr errorCheck =>
    rw [hisr] at haim
    exact .inl haim
  | out | taken k₀ b e | timed k₀ b e | leaving k₀ =>
    rw [hisr] at haim
    exact haim.elim

/-- Among the steps that detach nobody, those that keep the nodes attached are the ones
that make no other buffer of the response active. -/
theorem Moved.aimed_iff (h : Moved k w w') (ha : Aimed w) : Aimed w' ↔ AddsAimed w w' := by
  constructor
  · intro ha' k' j b hb hnew haim
    have hst := (h.active j b hb).resolve_left hnew
    by_cases hk : k' = k
    · exact hk ▸ hst
    -- the pins of another slot are as they were
    · have haim' : Aims w'.isys.fw k' j b.dmaAddr w'.isr := by
        rw [h.isr]
        exact haim.congr fun p => (h.pins k' p).resolve_right fun hset => hk hset.1
      have hst' := ha' k' j (.inl ⟨b, hb, haim'⟩)
      rw [h.stays hst] at hst'
      exact hst.trans hst'
  · rintro hadds k' j (⟨b, hb, haim⟩ | ⟨b, errorCheck, hisr, hq⟩)
    · rw [h.isr] at haim
      rcases h.aims haim with haim | hst
      · by_cases hold : b ∈ w.isys.bufs.active j
        · exact h.stays (ha k' j (.inl ⟨b, hold, haim⟩))
        · exact h.stays (hadds k' j b hb hold haim)
      · exact hst
    · exact h.stays (ha k' j (.inr ⟨b, errorCheck, h.isr.symm.trans hisr, hq⟩))

-- ---------------------------------------------------------------------------
-- A step of a node
-- ---------------------------------------------------------------------------

/-- The step keeps what is true of the nodes, and detaches nobody. -/
structure Moves (w w' : State) : Prop where
  tied : Tied w'
  moved : ∃ k, Moved k w w'

theorem Moves.refl (h : Tied w) : Moves w w :=
  ⟨h, 0, rfl, fun _ => .inl rfl, fun _ _ => .inl rfl, fun _ _ hb => .inl hb⟩

theorem unlocked {pc : Pc} {P : Nat → Prop} (hpc : pc.holds = none) : ∀ k, pc.holds = some k → P k := by
  intro k hk
  rw [hpc] at hk
  cases hk

theorem tied_init : Tied init where
  own := ⟨fun _ => List.forall_mem_nil _, fun _ => List.forall_mem_nil _⟩
  mem := fun _ => List.forall_mem_nil _
  nodup := fun _ => .nil
  pcs := fun _ _ => rfl
  locks := fun _ => unlocked rfl

/-- What a step of node `i` does to the rest of the driver. -/
structure Touches (w : State) (i k : Nat) (ps js : List Nat) (s' : Isys) : Prop where
  stream : ∀ j, j ≠ i → (s'.av j).stream = (w.isys.av j).stream
  called : ∀ j, j ≠ i → (s'.av j).called = (w.isys.av j).called
  others : ∀ k' j, j ≠ i → (j ∈ (s'.streams k').queues ↔ j ∈ (w.isys.streams k').queues)
  self : ∀ k', i ∈ (w.isys.streams k').queues →
    i ∈ (s'.streams k').queues ∨ (w.pc i).holds = some k'
  attached : ∀ k', i ∈ (s'.streams k').queues → (s'.av i).stream = some k'
  nodup : ∀ k', (s'.streams k').queues.Nodup
  pins : Pins k ps w.isys.fw s'.fw
  feeds : Feeds js w.isys.bufs s'.bufs

theorem Serves.touches (hs : Serves i k ps js w.isys s') (h : Tied w) : Touches w i k ps js s' where
  stream := fun j _ => hs.stream j
  called := hs.called
  others := fun k' j _ => by rw [hs.queues]
  self := fun k' hi => .inl (by rwa [hs.queues])
  attached := fun k' hi => by
    rw [hs.queues] at hi
    rw [hs.stream]
    exact h.mem k' i hi
  nodup := fun k' => by
    rw [hs.queues]
    exact h.nodup k'
  pins := hs.pins
  feeds := hs.feeds

theorem Tied.holder_eq (h : Tied w) (hi : (w.pc i).holds = some k) (hj : (w.pc j).holds = some k) :
    i = j :=
  Option.some.inj ((h.locks i k hi).symm.trans (h.locks j k hj))

theorem PcOk.imp {pc : Pc} (h : PcOk s j pc) (hstream : (s'.av j).stream = (s.av j).stream)
    (hcalled : (s'.av j).called = (s.av j).called)
    (hout : ∀ k, j ∉ (s.streams k).queues → j ∉ (s'.streams k).queues)
    (hkeep : ∀ k, pc.holds = some k → ∀ j' ∈ (s.streams k).queues, j' ∈ (s'.streams k).queues) :
    PcOk s' j pc := by
  cases pc with
  | idle => exact fun hc => hstream.trans (h (hcalled.symm.trans hc))
  | setUp env k e n => exact ⟨hstream.trans h.1, fun k' => hout k' (h.2 k')⟩
  | powered env k e n => exact ⟨hstream.trans h.1, fun k' => hout k' (h.2 k')⟩
  | starting env k bl => exact ⟨hstream.trans h.1, fun b hb => hkeep k rfl _ (h.2 b hb)⟩
  | opened env k bl => exact ⟨hstream.trans h.1, fun b hb => hkeep k rfl _ (h.2 b hb)⟩
  | started env k => exact hstream.trans h
  | unstarted env k bl ret => exact hstream.trans h
  | failed env k ret => exact hstream.trans h
  | stopping env k => exact hstream.trans h
  | cleanup x => exact fun k' => hout k' (h k')
  | put x => exact fun k' => hout k' (h k')
  | returning x => exact hstream.trans h

theorem Tied.others (h : Tied w) (ht : Touches w i k ps js s') (hj : j ≠ i) : PcOk s' j (w.pc j) := by
  refine (h.pcs j).imp (ht.stream j hj) (ht.called j hj) (fun k' hno hmem => ?_)
    fun k' hholds j' hmem => ?_
  · exact hno ((ht.others k' j hj).mp hmem)
  -- a node that holds the mutex sees no queue leave
  · by_cases hji : j' = i
    · subst hji
      refine (ht.self k' hmem).resolve_right fun hi => hj ?_
      exact h.holder_eq hholds hi
    · exact (ht.others k' j' hji).mpr hmem

theorem relock_other (mutex : Nat → Option Nat) (i : Nat) (pc pc' : Pc) (k : Nat)
    (hpc : pc.holds ≠ some k) (hpc' : pc'.holds ≠ some k) : relock mutex i pc pc' k = mutex k := by
  unfold relock
  cases h : pc.holds with
  | none =>
    cases h' : pc'.holds with
    | none => rfl
    | some k' =>
      have hne : k ≠ k' := fun heq => hpc' (heq ▸ h')
      simp [hne]
  | some k₁ =>
    have hne₁ : k ≠ k₁ := fun heq => hpc (heq ▸ h)
    cases h' : pc'.holds with
    | none => simp [hne₁]
    | some k' =>
      have hne : k ≠ k' := fun heq => hpc' (heq ▸ h')
      simp [hne, hne₁]

theorem relock_self (mutex : Nat → Option Nat) (i : Nat) (pc : Pc) (h : pc'.holds = some k) :
    relock mutex i pc pc' k = some i := by
  unfold relock
  rw [h]
  simp

theorem Tied.touched (h : Tied w) (ht : Touches w i k ps js s') (hpc : PcOk s' i pc')
    (hlock : ∀ k', pc'.holds = some k' → w.mutex k' = none ∨ (w.pc i).holds = some k') :
    Tied (w.setNode i (s', pc')) := by
  refine ⟨ht.feeds.own h.own, fun k' j hj => ?_, ht.nodup, fun j => ?_, fun j k' hj => ?_⟩
  · by_cases hji : j = i
    · subst hji
      exact ht.attached k' hj
    · exact (ht.stream j hji).trans (h.mem k' j ((ht.others k' j hji).mp hj))
  · show PcOk s' j (Function.update w.pc i pc' j)
    by_cases hji : j = i
    · subst hji
      rwa [Function.update_self]
    · rw [Function.update_of_ne hji]
      exact h.others ht hji
  · change (Function.update w.pc i pc' j).holds = some k' at hj
    show relock w.mutex i (w.pc i) pc' k' = some j
    by_cases hji : j = i
    · subst hji
      rw [Function.update_self] at hj
      exact relock_self w.mutex j (w.pc j) hj
    · rw [Function.update_of_ne hji] at hj
      have hold := h.locks j k' hj
      have hno : (w.pc i).holds ≠ some k' := fun hi => hji (h.holder_eq hj hi)
      rw [relock_other w.mutex i (w.pc i) pc' k' hno, hold]
      intro hnew
      rcases hlock k' hnew with hfree | hi
      · rw [hfree] at hold
        cases hold
      · exact hno hi

theorem Tied.node (h : Tied w) (ht : Touches w i k ps js s')
    (hst : (s'.av i).stream = (w.isys.av i).stream ∨ (w.isys.av i).stream = none)
    (hps : ∀ j ∈ ps, (s'.av j).stream = some k) (hjs : ∀ j ∈ js, (w.isys.av j).stream = some k)
    (hpc : PcOk s' i pc')
    (hlock : ∀ k', pc'.holds = some k' → w.mutex k' = none ∨ (w.pc i).holds = some k') :
    Moves w (w.setNode i (s', pc')) := by
  refine ⟨h.touched ht hpc hlock, k, rfl, fun j => ?_, fun k' p => ?_, fun j b hb => ?_⟩
  · by_cases hji : j = i
    · exact hji ▸ hst
    · exact .inl (ht.stream j hji)
  · exact (ht.pins k' p).imp_right fun ⟨hk, j, hj, hp⟩ => ⟨hk, j, hps j hj, hp⟩
  · exact (ht.feeds.active j b hb).imp_right (hjs j)

theorem Tied.serve (h : Tied w) (hs : Serves i k ps js w.isys s')
    (hps : ∀ j ∈ ps, (w.isys.av j).stream = some k) (hjs : ∀ j ∈ js, (w.isys.av j).stream = some k)
    (hpc : PcOk s' i pc')
    (hlock : ∀ k', pc'.holds = some k' → w.mutex k' = none ∨ (w.pc i).holds = some k') :
    Moves w (w.setNode i (s', pc')) :=
  h.node (hs.touches h) (.inl (hs.stream i)) (fun j hj => (hs.stream j).trans (hps j hj)) hjs hpc hlock

theorem Tied.quiet (h : Tied w) (hs : Serves i k [] [] w.isys s') (hpc : PcOk s' i pc')
    (hlock : ∀ k', pc'.holds = some k' → w.mutex k' = none ∨ (w.pc i).holds = some k') :
    Moves w (w.setNode i (s', pc')) :=
  h.serve hs (List.forall_mem_nil _) (List.forall_mem_nil _) hpc hlock

-- ---------------------------------------------------------------------------
-- Starting and stopping
-- ---------------------------------------------------------------------------

theorem Tied.ok {pc : Pc} (h : Tied w) (hpc : w.pc i = pc) : PcOk w.isys i pc := hpc ▸ h.pcs i

theorem same_lock {pc : Pc} (hpc : w.pc i = pc) (hsame : pc'.holds = pc.holds) (k : Nat)
    (hk : pc'.holds = some k) : w.mutex k = none ∨ (w.pc i).holds = some k := by
  rw [hpc, ← hsame]
  exact .inr hk

theorem Tied.not_mem (h : Tied w) (hno : (w.isys.av i).stream = none) (k : Nat) :
    i ∉ (w.isys.streams k).queues := by
  intro hmem
  rw [h.mem k i hmem] at hno
  cases hno

theorem Tied.attach (h : Tied w) (env : StartEnv) (hno : (w.isys.av i).stream = none)
    (hsetup : ipu6IsysSetupVideo w.isys env.setup i = (s', .ok (k, e, n))) :
    Moves w (w.setNode i (s', .setUp env k e n)) := by
  obtain ⟨hh, hav, -⟩ := setupVideo_ok hsetup
  have hst : (s'.av i).stream = some k := by simp [hav]
  have hout : ∀ k', i ∉ (s'.streams k').queues := by
    rw [hh.streams]
    exact h.not_mem hno
  have ht : Touches w i k [] [] s' := by
    refine ⟨fun j hj => ?_, fun j hj => ?_, fun k' j _ => ?_, fun k' hi => ?_, fun k' hi => ?_, ?_, ?_, ?_⟩
    · simp [hav, hj]
    · simp [hav, hj]
    · rw [hh.streams]
    · exact absurd hi (h.not_mem hno k')
    · exact absurd hi (hout k')
    · rw [hh.streams]
      exact h.nodup
    · exact .same (by rw [hh.fw])
    · rw [hh.bufs]
      exact .refl _ _
  exact h.node ht (.inr hno) (List.forall_mem_nil _) (List.forall_mem_nil _) ⟨hst, hout⟩
    (unlocked rfl)

theorem Tied.join (h : Tied w) (hst : (w.isys.av i).stream = some k)
    (hout : ∀ k', i ∉ (w.isys.streams k').queues) (hprep : Serves i k [] [] w.isys s)
    (hs : Serves i k [] [] (s.setStream k ((s.streams k).join i)) s') (hpc : PcOk s' i pc')
    (hlock : ∀ k', pc'.holds = some k' → w.mutex k' = none ∨ (w.pc i).holds = some k') :
    Moves w (w.setNode i (s', pc')) := by
  have hstream : ∀ j, (s'.av j).stream = (w.isys.av j).stream := fun j =>
    (hs.stream j).trans (hprep.stream j)
  have hself : (s'.streams k).queues = i :: (w.isys.streams k).queues := by
    rw [hs.queues, ← hprep.queues]
    simp [Isys.setStream, Stream.join]
  have hother : ∀ k', k' ≠ k → (s'.streams k').queues = (w.isys.streams k').queues := by
    intro k' hk
    rw [hs.queues, ← hprep.queues]
    simp [Isys.setStream, hk]
  have ht : Touches w i k [] [] s' := by
    refine ⟨fun j _ => hstream j, fun j hj => (hs.called j hj).trans (hprep.called j hj),
      fun k' j hj => ?_, fun k' hi => ?_, fun k' hi => ?_, fun k' => ?_, hprep.pins.trans hs.pins,
      hprep.feeds.trans hs.feeds⟩
    · by_cases hk : k' = k
      · subst hk
        rw [hself, List.mem_cons, or_iff_right hj]
      · rw [hother k' hk]
    · exact absurd hi (hout k')
    · by_cases hk : k' = k
      · subst hk
        exact (hstream i).trans hst
      · rw [hother k' hk] at hi
        exact absurd hi (hout k')
    · by_cases hk : k' = k
      · subst hk
        rw [hself]
        exact List.nodup_cons.mpr ⟨hout k', h.nodup k'⟩
      · rw [hother k' hk]
        exact h.nodup k'
  exact h.node ht (.inl (hstream i)) (List.forall_mem_nil _) (List.forall_mem_nil _) hpc hlock

theorem Tied.leave (h : Tied w) (hholds : (w.pc i).holds = some k)
    (hst : (w.isys.av i).stream = some k) {st : Stream}
    (hq : st.queues = (w.isys.streams k).queues.erase i)
    (hs : Serves i k [] [] (w.isys.setStream k st) s') (x : Exit) :
    Moves w (w.setNode i (s', .cleanup x)) := by
  have hself : (s'.streams k).queues = (w.isys.streams k).queues.erase i := by
    rw [hs.queues, ← hq]
    simp [Isys.setStream]
  have hother : ∀ k', k' ≠ k → (s'.streams k').queues = (w.isys.streams k').queues := by
    intro k' hk
    rw [hs.queues]
    simp [Isys.setStream, hk]
  have hout : ∀ k', i ∉ (s'.streams k').queues := by
    intro k' hi
    by_cases hk : k' = k
    · subst hk
      rw [hself] at hi
      exact (h.nodup k').not_mem_erase hi
    · rw [hother k' hk] at hi
      have hst' := h.mem k' i hi
      rw [hst] at hst'
      exact hk (Option.some.inj hst').symm
  have ht : Touches w i k [] [] s' := by
    refine ⟨fun j _ => hs.stream j, fun j hj => hs.called j hj, fun k' j hj => ?_, fun k' hi => ?_,
      fun k' hi => absurd hi (hout k'), fun k' => ?_, hs.pins, hs.feeds⟩
    · by_cases hk : k' = k
      · subst hk
        rw [hself, List.mem_erase_of_ne hj]
      · rw [hother k' hk]
    · have hst' := h.mem k' i hi
      rw [hst] at hst'
      exact .inr (hst' ▸ hholds)
    · by_cases hk : k' = k
      · subst hk
        rw [hself]
        exact (h.nodup k').erase i
      · rw [hother k' hk]
        exact h.nodup k'
  exact h.node ht (.inl (hs.stream i)) (List.forall_mem_nil _) (List.forall_mem_nil _) hout
    (unlocked rfl)

theorem Tied.return (h : Tied w) (hpc : w.pc i = .returning x) :
    Moves w (w.setNode i (returnStep w.isys i x)) := by
  have hno : (w.isys.av i).stream = none := h.ok hpc
  unfold returnStep
  split
  next b l hin =>
    refine h.quiet (k := 0) (serves_bufs rfl rfl rfl (.trans (feeds_setIncoming fun ho c hc => ?_)
      (feeds_done _ b x.state))) hno (unlocked rfl)
    exact ho.incoming i c (hin ▸ List.mem_cons_of_mem _ hc)
  next b l hin hact =>
    refine h.quiet (k := 0) (serves_bufs rfl rfl rfl (.trans (feeds_setActive fun c hc => ?_)
      (feeds_done _ b x.state))) hno (unlocked rfl)
    exact hact ▸ List.mem_cons_of_mem _ hc
  next hin hact =>
    have hserves : Serves i 0 [] [] w.isys (x.finish w.isys i) := by
      cases x with
      | stop fwClose => exact (serves_fwPut w.isys i 0 fwClose).trans (serves_setCalled _ i 0 false)
      | start ret => exact serves_setCalled _ i 0 false
    exact h.quiet hserves (fun _ => (hserves.stream i).trans hno) (unlocked rfl)

theorem Tied.setUp (h : Tied w) (hpc : w.pc i = .setUp env k e n) :
    Moves w (w.setNode i (nodeStep w.isys i (.setUp env k e n))) := by
  obtain ⟨hst, hout⟩ := h.ok hpc
  simp only [nodeStep]
  split
  · exact h.quiet (k := 0) (.refl _) hout (unlocked rfl)
  cases hget : ipu6IsysFwGet w.isys env.get with
  | mk s₁ ret =>
  have hs : Serves i 0 [] [] w.isys s₁ := serves_fwGet hget
  have hout₁ : ∀ k', i ∉ (s₁.streams k').queues := by
    intro k'
    rw [hs.queues]
    exact hout k'
  dsimp only
  split
  · exact h.quiet hs hout₁ (unlocked rfl)
  · exact h.quiet hs ⟨(hs.stream i).trans hst, hout₁⟩ (unlocked rfl)

theorem pcOk_called (s : Isys) (i : Nat) : PcOk (s.setCalled i true) i .idle := by
  intro hc
  simp [Isys.setCalled, Isys.setAv] at hc

theorem Tied.powered (h : Tied w) (hpc : w.pc i = .powered env k e n) (hfree : w.mutex k = none) :
    Moves w (w.setNode i (nodeStep w.isys i (.powered env k e n))) := by
  obtain ⟨hst, hout⟩ := h.ok hpc
  simp only [nodeStep]
  cases hprep : prepareFirst w.isys k e n with
  | mk s₁ ret =>
  have hs : Serves i k [] [] w.isys s₁ := serves_prepare hprep
  dsimp only
  split
  · have hput := hs.trans (serves_fwPut s₁ i k env.fwClose)
    refine h.quiet hput (fun k' => ?_) (unlocked rfl)
    rw [hput.queues]
    exact hout k'
  unfold joinedStep
  dsimp only
  split
  · exact h.join hst hout hs (serves_setCalled _ i k true) (pcOk_called _ i) (unlocked rfl)
  cases hget : bufferListGet _ _ [] with
  | mk q r =>
  have hgot : Serves i k [] [] (s₁.setStream k ((s₁.streams k).join i))
      { s₁.setStream k ((s₁.streams k).join i) with bufs := q } :=
    serves_bufs rfl rfl rfl (feeds_get hget)
  cases r with
  | none =>
    exact h.join hst hout hs (hgot.trans (serves_setCalled _ i k true)) (pcOk_called _ i)
      (unlocked rfl)
  | some bl =>
    have hown : Owned (s₁.setStream k ((s₁.streams k).join i)).bufs := hs.feeds.own h.own
    refine h.join hst hout hs hgot ⟨(hs.stream i).trans hst, fun b hb => ?_⟩ fun k' hk => ?_
    · exact (hown.got hget hb).resolve_left List.not_mem_nil
    · obtain rfl := Option.some.inj hk
      exact .inl hfree

theorem Tied.starting (h : Tied w) (hpc : w.pc i = .starting env k bl) :
    Moves w (w.setNode i (nodeStep w.isys i (.starting env k bl))) := by
  obtain ⟨hst, hbl⟩ := h.ok hpc
  have hs := serves_open w.isys env.start.set i k
  simp only [nodeStep]
  split
  · exact h.serve hs (h.mem k) (List.forall_mem_nil _) ((hs.stream i).trans hst) (same_lock hpc rfl)
  · refine h.serve hs (h.mem k) (List.forall_mem_nil _) ⟨(hs.stream i).trans hst, fun b hb => ?_⟩
      (same_lock hpc rfl)
    rw [hs.queues]
    exact hbl b hb

theorem Tied.opened (h : Tied w) (hpc : w.pc i = .opened env k bl) :
    Moves w (w.setNode i (nodeStep w.isys i (.opened env k bl))) := by
  obtain ⟨hst, hbl⟩ := h.ok hpc
  have hs := serves_capture w.isys env.start.set i i k bl
  have hjs : ∀ j ∈ bl.map Buffer.queue, (w.isys.av j).stream = some k := by
    intro j hj
    obtain ⟨b, hb, rfl⟩ := List.mem_map.mp hj
    exact h.mem k _ (hbl b hb)
  simp only [nodeStep]
  split
  · exact h.serve hs (List.forall_mem_nil _) hjs ((hs.stream i).trans hst) (same_lock hpc rfl)
  · exact h.serve hs (List.forall_mem_nil _) hjs ((hs.stream i).trans hst) (same_lock hpc rfl)

theorem Tied.started (h : Tied w) (hpc : w.pc i = .started env k) :
    Moves w (w.setNode i (nodeStep w.isys i (.started env k))) := by
  have hst : (w.isys.av i).stream = some k := h.ok hpc
  have hs := serves_captureStep h.own env.start.capture i k
  simp only [nodeStep]
  split
  · exact h.serve (hs.trans (serves_setCalled _ i k true)) (List.forall_mem_nil _) (h.mem k)
      (pcOk_called _ i) (unlocked rfl)
  · exact h.serve hs (List.forall_mem_nil _) (h.mem k) ((hs.stream i).trans hst) (same_lock hpc rfl)

theorem Tied.cleanup (h : Tied w) (hpc : w.pc i = .cleanup x) :
    Moves w (w.setNode i (nodeStep w.isys i (.cleanup x))) := by
  have hs := serves_cleanup w.isys i x
  have hout : ∀ k, i ∉ ((nodeStep w.isys i (.cleanup x)).1.streams k).queues := by
    intro k
    rw [hs.queues]
    exact h.ok hpc k
  exact h.quiet hs hout (unlocked rfl)

theorem Tied.nodeMoves (h : Tied w) (hput : ∀ x, w.pc i ≠ .put x)
    (hfree : ∀ env k e n, w.pc i = .powered env k e n → w.mutex k = none) :
    Moves w (w.setNode i (nodeStep w.isys i (w.pc i))) := by
  cases hpc : w.pc i with
  | idle => exact h.quiet (k := 0) (.refl _) (h.ok hpc) (unlocked rfl)
  | setUp env k e n => exact h.setUp hpc
  | powered env k e n => exact h.powered hpc (hfree env k e n hpc)
  | starting env k bl => exact h.starting hpc
  | opened env k bl => exact h.opened hpc
  | started env k => exact h.started hpc
  | unstarted env k bl ret =>
    exact h.quiet (serves_outRequeue w.isys i k bl) (h.ok hpc) (same_lock hpc rfl)
  | failed env k ret =>
    exact h.leave (by rw [hpc]; rfl) (h.ok hpc) rfl (serves_fwPut _ i k env.fwClose) (.start ret)
  | stopping env k =>
    have hq : ({ (w.isys.streams k).leave i with streaming := false } : Stream).queues =
        (w.isys.streams k).queues.erase i := rfl
    exact h.leave (by rw [hpc]; rfl) (h.ok hpc) hq (.refl _) (.stop env.fwClose)
  | cleanup x => exact h.cleanup hpc
  | put x => exact absurd hpc (hput x)
  | returning x => exact h.return hpc

theorem Tied.start (h : Tied w) (hidle : w.pc i = .idle) (hc : (w.isys.av i).called = false)
    (env : StartEnv) : Moves w (w.setNode i (startStep w.isys env i)) := by
  have hno : (w.isys.av i).stream = none := h.ok hidle hc
  unfold startStep
  cases hsetup : ipu6IsysSetupVideo w.isys env.setup i with
  | mk s₁ r =>
  cases r with
  | error ret =>
    obtain ⟨hsame, hst, hfw, hbufs⟩ := setupVideo_error hno hsetup
    have hs : Serves i 0 [] [] w.isys s₁ :=
      serves_bufs hsame.av hst (by rw [hfw]) (by rw [hbufs]; exact .refl _ _)
    exact h.quiet hs ((hs.stream i).trans hno) (unlocked rfl)
  | ok r =>
    obtain ⟨k, e, n⟩ := r
    exact h.attach env hno hsetup

theorem Tied.stop (h : Tied w) (hst : (w.isys.av i).stream = some k) (hfree : w.mutex k = none)
    (env : StopEnv) : Moves w (w.setNode i (stopStep w.isys env i k)) := by
  have hs := serves_stop w.isys env i k
  refine h.quiet hs ((hs.stream i).trans hst) fun k' hk => ?_
  obtain rfl := Option.some.inj hk
  exact .inl hfree

theorem Tied.queue (h : Tied w) (hidle : w.pc b.queue = .idle) (env : BufQueueEnv) :
    Moves w { w with isys := bufQueue w.isys env b } := by
  have hset : ∀ s', w.setNode b.queue (s', .idle) = { w with isys := s' } := by
    intro s'
    have hpc : Function.update w.pc b.queue .idle = w.pc := by
      rw [← hidle]
      exact Function.update_eq_self b.queue w.pc
    simp only [State.setNode, relock, hidle, hpc, Pc.holds]
  have hok : ∀ {k ps js}, Serves (b.queue + 1) k ps js w.isys (bufQueue w.isys env b) →
      PcOk (bufQueue w.isys env b) b.queue .idle := fun hs =>
    (h.ok hidle).imp (hs.stream _) (hs.called _ (Nat.ne_of_lt (Nat.lt_succ_self _)))
      (fun k => (hs.queues k) ▸ id) (unlocked rfl)
  obtain ⟨k, hs⟩ := serves_bufQueue (i := b.queue) h.own env b
  obtain ⟨k', hs'⟩ := serves_bufQueue (i := b.queue + 1) h.own env b
  rw [← hset]
  exact h.serve hs (h.mem k) (h.mem k) (hok hs') (unlocked rfl)

-- ---------------------------------------------------------------------------
-- Detaching, and the handler
-- ---------------------------------------------------------------------------

theorem Tied.detach (h : Tied w) (hpc : w.pc i = .put x) :
    Tied (w.setNode i (nodeStep w.isys i (.put x))) := by
  have hout : ∀ k, i ∉ (w.isys.streams k).queues := h.ok hpc
  have ht : Touches w i 0 [] [] (w.isys.setAv i { w.isys.av i with stream := none }) := by
    refine ⟨fun j hj => ?_, fun j hj => ?_, fun _ _ _ => .rfl, fun k' hi => absurd hi (hout k'),
      fun k' hi => absurd hi (hout k'), h.nodup, .same rfl, .refl _ _⟩
    · simp [Isys.setAv, hj]
    · simp [Isys.setAv, hj]
  refine h.touched ht ?_ (unlocked rfl)
  simp [PcOk, Isys.setAv]

theorem aimed_detach (ha : Aimed w) (x : Exit) :
    Aimed (w.setNode i (nodeStep w.isys i (.put x))) ↔ ∀ k, ¬ About w k i := by
  constructor
  · intro ha' k habout
    have hst : (Function.update w.isys.av i { w.isys.av i with stream := none } i).stream = some k :=
      ha' k i habout
    rw [Function.update_self] at hst
    cases hst
  · intro hno k j habout
    have hji : j ≠ i := fun hji => hno k (hji ▸ habout)
    show (Function.update w.isys.av i _ j).stream = some k
    rw [Function.update_of_ne hji]
    exact ha k j habout

theorem Tied.handler (h : Tied w) (hs : ∀ i, Serves i 0 [] [] w.isys s') (isr : Isr) :
    Tied (w.setIsr (s', isr)) := by
  have hqueues := (hs 0).queues
  refine ⟨(hs 0).feeds.own h.own, fun k j hj => ?_, fun k => ?_, fun j => ?_, h.locks⟩
  · change j ∈ (s'.streams k).queues at hj
    rw [hqueues] at hj
    exact ((hs 0).stream j).trans (h.mem k j hj)
  · show (s'.streams k).queues.Nodup
    rw [hqueues]
    exact h.nodup k
  · exact (h.pcs j).imp ((hs 0).stream j) ((hs (j + 1)).called j (Nat.ne_of_lt (Nat.lt_succ_self _)))
      (fun k => (hqueues k) ▸ id) fun k _ j' => (hqueues k) ▸ id

theorem serves_respond (s : Isys) (i k pin pinAddr : Nat) (errorCheck : Bool) :
    Serves i 0 [] [] s (respondStep s k pin pinAddr errorCheck).1 := by
  unfold respondStep
  split
  · exact .refl s
  · exact serves_bufs rfl rfl rfl (.refl _ _)

theorem serves_isr (s : Isys) (i : Nat) (isr : Isr) : Serves i 0 [] [] s (isrStep s isr).1 := by
  cases isr with
  | out => exact .refl s
  | lookedUp k pin pinAddr errorCheck =>
    simp only [isrStep]
    split
    · exact .refl s
    cases s.fw.outputPinsQueue k pin with
    | none => exact .refl s
    | some j => exact .refl s
  | found k j pinAddr errorCheck =>
    simp only [isrStep]
    cases matching s.bufs j pinAddr with
    | none => exact .refl s
    | some b => exact serves_bufs rfl rfl rfl (feeds_setActive fun _ hc => List.mem_of_mem_erase hc)
  | taken k b errorCheck => exact .refl s
  | timed k b errorCheck => exact serves_bufs rfl rfl rfl (feeds_done _ b _)
  | leaving k =>
    simp only [isrStep, ipu6IsysPutStream]
    split
    · exact serves_bufs rfl rfl rfl (.refl _ _)
    · exact .refl s

theorem addsAimed_setIsr (hs : Serves 0 0 [] [] w.isys s') (isr : Isr) :
    AddsAimed w (w.setIsr (s', isr)) := by
  intro k j b hb hnew
  rcases hs.feeds.active j b hb with hold | hj
  · exact absurd hold hnew
  · cases hj

theorem matching_of_mem {q : Bufs} (hb : b ∈ q.active j) : ∃ c, matching q j b.dmaAddr = some c := by
  have hsome : (matching q j b.dmaAddr).isSome := by
    rw [matching, List.find?_isSome]
    exact ⟨b, List.mem_reverse.mpr hb, by simp⟩
  exact Option.isSome_iff_exists.mp hsome

theorem mem_of_matching {q : Bufs} (hb : matching q j pinAddr = some b) :
    b ∈ q.active j ∧ b.dmaAddr = pinAddr :=
  ⟨List.mem_reverse.mp (List.mem_of_find?_eq_some hb), by simpa using List.find?_some hb⟩

theorem Tied.about_isr (h : Tied w) (habout : About (w.setIsr (isrStep w.isys w.isr)) k j) :
    About w k j := by
  have hnone : ∀ s' isr, (∀ pinAddr, ¬ Aims s'.fw k j pinAddr isr) →
      (∀ b errorCheck, isr ≠ .taken k b errorCheck) → ¬ About (w.setIsr (s', isr)) k j :=
    fun _ _ haim hno => not_about haim hno
  cases hisr : w.isr with
  | out | taken k₀ b e | timed k₀ b e | leaving k₀ =>
    rw [hisr] at habout
    exact absurd habout (hnone _ _ (fun _ => id) (by simp))
  | lookedUp k₀ pin addr errorCheck =>
    rw [hisr] at habout
    simp only [isrStep] at habout
    split at habout
    · exact absurd habout (hnone _ _ (fun _ => id) (by simp))
    next hpin =>
    cases hqueue : w.isys.fw.outputPinsQueue k₀ pin with
    | none =>
      rw [hqueue] at habout
      exact absurd habout (hnone _ _ (fun _ => id) (by simp))
    | some i =>
      rw [hqueue] at habout
      rcases habout with ⟨b, hb, rfl, rfl, rfl⟩ | ⟨b, errorCheck, heq, -⟩
      · exact .inl ⟨b, hb, by rw [hisr]; exact ⟨rfl, rfl, Nat.not_le.mp hpin, hqueue⟩⟩
      · cases heq
  | found k₀ i addr errorCheck =>
    rw [hisr] at habout
    simp only [isrStep] at habout
    cases hb : matching w.isys.bufs i addr with
    | none =>
      rw [hb] at habout
      exact absurd habout (hnone _ _ (fun _ => id) (by simp))
    | some b =>
      rw [hb] at habout
      rcases habout with ⟨c, -, haim⟩ | ⟨c, errorCheck', heq, hq⟩
      · exact haim.elim
      · obtain ⟨rfl, rfl, -⟩ := Isr.taken.inj heq
        obtain ⟨hmem, haddr⟩ := mem_of_matching hb
        obtain rfl : i = j := (h.own.active i b hmem).symm.trans hq
        exact .inl ⟨b, hmem, by rw [hisr]; exact ⟨rfl, haddr.symm, rfl⟩⟩

theorem Tied.aimed_isr (h : Tied w) (ha : Aimed w) : Aimed (w.setIsr (isrStep w.isys w.isr)) :=
  fun k j habout => ((serves_isr w.isys 0 w.isr).stream j).trans (ha k j (h.about_isr habout))

/-- A response that finds its buffer finds its node attached. -/
def FindsAttached (s : Isys) (k pin pinAddr : Nat) : Prop :=
  k < IPU4_ISYS_MAX_STREAMS → s.streamsRefCount k ≠ 0 → pin < IPU6_ISYS_OUTPUT_PINS →
    ∀ j, s.fw.outputPinsQueue k pin = some j → ∀ b ∈ s.bufs.active j, b.dmaAddr = pinAddr →
      (s.av j).stream = some k

theorem aimed_respond (k pin pinAddr : Nat) (errorCheck : Bool) :
    Aimed (w.setIsr (respondStep w.isys k pin pinAddr errorCheck)) ↔
      FindsAttached w.isys k pin pinAddr := by
  unfold respondStep
  split
  next hno =>
    refine iff_of_true (fun k' j habout => ?_) fun hk href => ?_
    · exact absurd habout (not_about (fun _ => id) (by simp [State.setIsr]))
    · exact absurd hno (not_or.mpr ⟨Nat.not_le.mpr hk, href⟩)
  next hin =>
    obtain ⟨hk, href⟩ := not_or.mp hin
    constructor
    · intro ha _ _ hpin j hqueue b hb haddr
      exact ha k j (.inl ⟨b, hb, rfl, haddr.symm, hpin, hqueue⟩)
    · rintro hfinds k' j (⟨b, hb, rfl, haddr, hpin, hqueue⟩ | ⟨b, errorCheck, heq, -⟩)
      · exact hfinds (Nat.not_le.mp hk) href hpin j hqueue b hb haddr.symm
      · cases heq

end

end Ipu4.Capture.Interleaved
