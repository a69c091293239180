import Ipu4.Capture.Tied

/-!
# The handler and the detached node

`ipu6_isys_buf_calc_sequence_time` reads `av->stream` of the node whose buffer
has come back. A node is detached before its active buffers are returned, and
other nodes keep the slot in use, so a response can still find such a buffer.
The handler reads the stream it has looked up as long as the nodes that its
response is about are attached to that stream, and `KeepsSight` says when a step
leaves this so.
-/

namespace Ipu4.Capture.Interleaved

open Runs

-- ---------------------------------------------------------------------------
-- The condition
-- ---------------------------------------------------------------------------

section
variable {w w' : State} {a : Act} {i j k pin pinAddr : Nat} {errorCheck : Bool}

/-- The step leaves the nodes that the response is about attached to its stream:
a response that arrives finds its buffer's node attached, no node is detached that a
response is about, and no buffer that it would find becomes active elsewhere. -/
structure KeepsSight (w : State) (a : Act) : Prop where
  arrives : ∀ k pin pinAddr errorCheck, a = .respond k pin pinAddr errorCheck → w.isr = .out →
    FindsAttached w.isys k pin pinAddr
  detaches : ∀ i x, a = .node i → w.pc i = .put x → ∀ k, ¬ About w k i
  activates : AddsAimed w (next w a)

theorem next_of_step (hs : step w a = some w') : next w a = w' := by rw [next, hs]; rfl

theorem Tied.moves (h : Tied w) (a : Act)
    (hrespond : ∀ k pin pinAddr errorCheck, a ≠ .respond k pin pinAddr errorCheck)
    (hisr : a ≠ .isr) (hput : ∀ i x, a = .node i → w.pc i ≠ .put x) : Moves w (next w a) := by
  cases hs : step w a with
  | none =>
    have hsame : next w a = w := by rw [next, hs]; rfl
    rw [hsame]
    exact .refl h
  | some w' =>
  rw [next_of_step hs]
  cases a with
  | queue b env =>
    simp only [step] at hs
    split at hs
    next hidle =>
      split at hs
      · cases hs
      split at hs
      · cases hs
      · obtain rfl := Option.some.inj hs
        exact h.queue hidle env
    · cases hs
  | start i env =>
    simp only [step] at hs
    split at hs
    next hidle =>
      split at hs
      · cases hs
      next hc =>
        obtain rfl := Option.some.inj hs
        exact h.start hidle (Bool.eq_false_iff.mpr hc) env
    · cases hs
  | stop i env =>
    simp only [step] at hs
    split at hs
    next hidle hst =>
      split at hs
      next hc =>
        obtain rfl := Option.some.inj hs
        exact h.stop hst hc.2 env
      · cases hs
    · cases hs
  | node i =>
    have hnode := h.nodeMoves (fun x => hput i x rfl)
    simp only [step] at hs
    split at hs
    · cases hs
    next env k e n hpc =>
      split at hs
      next hfree =>
        obtain rfl := Option.some.inj hs
        rw [← hpc]
        refine hnode fun env' k' e' n' hpc' => ?_
        rw [hpc] at hpc'
        cases hpc'
        exact hfree
      · cases hs
    next hpow =>
      obtain rfl := Option.some.inj hs
      exact hnode fun env' k' e' n' hpc' => (hpow env' k' e' n' hpc').elim
  | respond k pin pinAddr errorCheck => exact absurd rfl (hrespond k pin pinAddr errorCheck)
  | isr => exact absurd rfl hisr

theorem next_put (hpc : w.pc i = .put x) :
    next w (.node i) = w.setNode i (nodeStep w.isys i (.put x)) :=
  next_of_step (by simp only [step, hpc])

theorem next_respond (hisr : w.isr = .out) (k pin pinAddr : Nat) (errorCheck : Bool) :
    next w (.respond k pin pinAddr errorCheck) =
      w.setIsr (respondStep w.isys k pin pinAddr errorCheck) :=
  next_of_step (by simp only [step, hisr])

theorem next_respond_busy (hisr : w.isr ≠ .out) (k pin pinAddr : Nat) (errorCheck : Bool) :
    next w (.respond k pin pinAddr errorCheck) = w := by
  have hs : step w (.respond k pin pinAddr errorCheck) = none := by simp only [step]
  rw [next, hs]
  rfl

theorem next_isr (w : State) : next w .isr = w.setIsr (isrStep w.isys w.isr) := by
  cases hisr : w.isr with
  | out =>
    have hsame : w.setIsr (isrStep w.isys .out) = w := by
      rw [isrStep, State.setIsr, ← hisr]
    rw [hsame, next, step, hisr]
    rfl
  | lookedUp k pin pinAddr errorCheck => exact next_of_step (by simp only [step, hisr])
  | found k i pinAddr errorCheck => exact next_of_step (by simp only [step, hisr])
  | taken k b errorCheck => exact next_of_step (by simp only [step, hisr])
  | timed k b errorCheck => exact next_of_step (by simp only [step, hisr])
  | leaving k => exact next_of_step (by simp only [step, hisr])

theorem keepsSight_respond_iff : KeepsSight w (.respond k pin pinAddr errorCheck) ↔
    (w.isr = .out → FindsAttached w.isys k pin pinAddr) := by
  refine ⟨fun hkeep => hkeep.arrives k pin pinAddr errorCheck rfl, fun hfinds =>
    ⟨fun k' pin' pinAddr' e heq hisr => ?_, nofun, ?_⟩⟩
  · obtain ⟨rfl, rfl, rfl, -⟩ := Act.respond.inj heq
    exact hfinds hisr
  by_cases hisr : w.isr = .out
  · rw [next_respond hisr]
    exact addsAimed_setIsr (serves_respond w.isys 0 k pin pinAddr errorCheck) _
  · rw [next_respond_busy hisr]
    exact fun _ _ _ hb hnew => absurd hb hnew

theorem keepsSight_isr (w : State) : KeepsSight w .isr := by
  refine ⟨fun _ _ _ _ => nofun, nofun, ?_⟩
  rw [next_isr]
  exact addsAimed_setIsr (serves_isr w.isys 0 w.isr) _

theorem keepsSight_of_out (hisr : w.isr = .out)
    (hrespond : ∀ k pin pinAddr errorCheck, a ≠ .respond k pin pinAddr errorCheck) :
    KeepsSight w a := by
  refine ⟨fun k pin pinAddr e heq => absurd heq (hrespond k pin pinAddr e), fun _ _ _ _ _ => ?_,
    fun _ _ _ _ _ haim => ?_⟩
  · exact not_about (fun _ => hisr ▸ aims_out _ _ _ _) fun _ _ heq => nomatch hisr.symm.trans heq
  · exact absurd (hisr ▸ haim) (aims_out _ _ _ _)

/-- What a step can be. -/
inductive StepKind (w : State) : Act → Prop
  | moves {a : Act} (hm : Moves w (next w a))
      (hrespond : ∀ k pin pinAddr errorCheck, a ≠ .respond k pin pinAddr errorCheck)
      (hput : ∀ i x, a = .node i → w.pc i ≠ .put x) : StepKind w a
  | detaches {i : Nat} {x : Exit} (hpc : w.pc i = .put x) : StepKind w (.node i)
  | arrives {k pin pinAddr : Nat} {errorCheck : Bool} : StepKind w (.respond k pin pinAddr errorCheck)
  | handler : StepKind w .isr

theorem Tied.kind (h : Tied w) (a : Act) : StepKind w a := by
  have hmoves : (∀ k pin pinAddr errorCheck, a ≠ .respond k pin pinAddr errorCheck) → a ≠ .isr →
      (∀ i x, a = .node i → w.pc i ≠ .put x) → StepKind w a := fun hrespond hisr hput =>
    .moves (h.moves a hrespond hisr hput) hrespond hput
  cases a with
  | queue b env => exact hmoves (by simp) (by simp) (by simp)
  | start i env => exact hmoves (by simp) (by simp) (by simp)
  | stop i env => exact hmoves (by simp) (by simp) (by simp)
  | node i =>
    by_cases hput : ∃ x, w.pc i = .put x
    · obtain ⟨x, hpc⟩ := hput
      exact .detaches hpc
    · refine hmoves (by simp) (by simp) fun i' x heq hpc => hput ⟨x, ?_⟩
      rw [Act.node.inj heq]
      exact hpc
  | respond k pin pinAddr errorCheck => exact .arrives
  | isr => exact .handler

theorem Tied.preserved (h : Tied w) (a : Act) : Tied (next w a) := by
  cases h.kind a with
  | moves hm hrespond hput => exact hm.tied
  | detaches hpc =>
    rw [next_put hpc]
    exact h.detach hpc
  | @arrives k pin pinAddr errorCheck =>
    by_cases hisr : w.isr = .out
    · rw [next_respond hisr]
      exact h.handler (fun i => serves_respond w.isys i k pin pinAddr errorCheck) _
    · rw [next_respond_busy hisr]
      exact h
  | handler =>
    rw [next_isr]
    exact h.handler (fun i => serves_isr w.isys i w.isr) _

theorem Tied.aimed_next (h : Tied w) (ha : Aimed w) (a : Act) :
    Aimed (next w a) ↔ KeepsSight w a := by
  cases h.kind a with
  | moves hm hrespond hput =>
    obtain ⟨k, hmoved⟩ := hm.moved
    rw [hmoved.aimed_iff ha]
    exact ⟨fun hadds => ⟨fun k pin pinAddr e heq => absurd heq (hrespond k pin pinAddr e),
      fun i x heq hpc => absurd hpc (hput i x heq), hadds⟩, KeepsSight.activates⟩
  | @detaches i x hpc =>
    rw [next_put hpc, aimed_detach ha x]
    refine ⟨fun hno => ⟨by simp, fun i' x' heq _ => ?_, fun k j b hb hnew => ?_⟩,
      fun hkeep => hkeep.detaches i x rfl hpc⟩
    · obtain rfl := Act.node.inj heq
      exact hno
    · rw [next_put hpc] at hb
      exact absurd hb hnew
  | arrives =>
    rw [keepsSight_respond_iff]
    by_cases hisr : w.isr = .out
    · rw [next_respond hisr, aimed_respond]
      exact ⟨fun hfinds _ => hfinds, fun hfinds => hfinds hisr⟩
    · rw [next_respond_busy hisr]
      exact iff_of_true ha fun hout => absurd hout hisr
  | handler =>
    rw [next_isr]
    exact iff_of_true (h.aimed_isr ha) (keepsSight_isr w)

-- ---------------------------------------------------------------------------
-- What the handler sees
-- ---------------------------------------------------------------------------

/-- The handler, when it comes to read `av->stream` of a buffer's node, finds the
stream it has looked up. -/
def SeesStream (w : State) : Prop :=
  ∀ k b errorCheck, w.isr = .taken k b errorCheck → (w.isys.av b.queue).stream = some k

def onlyHandler : Nat → State → State
  | 0, w => w
  | n + 1, w => onlyHandler n (next w .isr)

/-- The handler sees the stream it has looked up, now and if it goes on undisturbed. -/
def SeesAhead (w : State) : Prop := ∀ n, SeesStream (onlyHandler n w)

theorem Aimed.sees (ha : Aimed w) : SeesStream w := fun k b errorCheck hisr =>
  ha k b.queue (.inr ⟨b, errorCheck, hisr, rfl⟩)

theorem Aimed.onlyHandler (ha : Aimed w) (h : Tied w) (n : Nat) : SeesStream (onlyHandler n w) := by
  induction n generalizing w with
  | zero => exact ha.sees
  | succ n ih =>
    refine ih ?_ (h.preserved .isr)
    rw [next_isr]
    exact h.aimed_isr ha

theorem Tied.sees_found (h : Tied w) (hisr : w.isr = .found k j b.dmaAddr errorCheck)
    (hb : b ∈ w.isys.bufs.active j) (hsees : SeesStream (next w .isr)) :
    (w.isys.av j).stream = some k := by
  obtain ⟨c, hc⟩ := matching_of_mem hb
  rw [next_isr, hisr, isrStep, hc] at hsees
  rw [← h.own.active j c (mem_of_matching hc).1]
  exact hsees k c errorCheck rfl

theorem Tied.seesAhead_iff (h : Tied w) : SeesAhead w ↔ Aimed w := by
  constructor
  · rintro hsees k j (⟨b, hb, haim⟩ | ⟨b, errorCheck, hisr, rfl⟩)
    · cases hisr : w.isr with
      | found k₀ i addr errorCheck =>
        rw [hisr] at haim
        obtain ⟨rfl, rfl, rfl⟩ := haim
        exact h.sees_found hisr hb (hsees 1)
      | lookedUp k₀ pin addr errorCheck =>
        rw [hisr] at haim
        obtain ⟨rfl, rfl, hpin, hqueue⟩ := haim
        have hnext : next w .isr = w.setIsr (w.isys, .found k₀ j b.dmaAddr errorCheck) := by
          rw [next_isr, hisr, isrStep, if_neg (Nat.not_le.mpr hpin), hqueue]
        have hfound := (h.preserved .isr).sees_found (w := next w .isr) (by rw [hnext]; rfl)
          (by rw [hnext]; exact hb) (hsees 2)
        rwa [hnext] at hfound
      | out | taken k₀ c e | timed k₀ c e | leaving k₀ =>
        rw [hisr] at haim
        exact haim.elim
    · exact hsees 0 k b errorCheck hisr
  · exact fun ha n => ha.onlyHandler h n

end

theorem aimed_init : Aimed init := fun _ _ habout =>
  absurd habout (not_about (fun _ => id) fun _ _ heq => nomatch heq)

/-- In every interleaving the handler sees the stream it has looked up, in every state
and from there on if left alone, exactly if every step meets the condition. -/
theorem handler_sees_its_stream_iff (acts : List Act) :
    (∀ x ∈ visited next init acts, SeesAhead (next x.1 x.2)) ↔
      ∀ x ∈ visited next init acts, KeepsSight x.1 x.2 :=
  forall_visited_iff (I := fun w => Tied w ∧ Aimed w) ⟨tied_init, aimed_init⟩
    (fun _ a h => (h.1.preserved a).seesAhead_iff.trans (h.1.aimed_next h.2 a))
    fun _ a h hkeep => ⟨h.1.preserved a, (h.1.aimed_next h.2 a).mpr hkeep⟩

/-- `KeepsSight`, computed where only the handler goes on while it has a response. -/
def keepsSight (w : State) : Act → Bool
  | .respond k pin pinAddr _ =>
    (w.isys.fw.outputPinsQueue k pin).all fun j =>
      (w.isys.bufs.active j).all fun b => b.dmaAddr ≠ pinAddr ∨ (w.isys.av j).stream = some k
  | .isr => true
  | _ => w.isr = .out

def keepsSightAll (w : State) : List Act → Bool
  | [] => true
  | a :: acts => keepsSight w a && keepsSightAll (next w a) acts

theorem keepsSight_sound (h : keepsSight w a = true) : KeepsSight w a := by
  cases a with
  | respond k pin pinAddr errorCheck =>
    refine keepsSight_respond_iff.mpr fun _ _ _ _ j hqueue b hb haddr => ?_
    simp only [keepsSight, hqueue, Option.all_some, List.all_eq_true, decide_eq_true_eq] at h
    exact (h b hb).resolve_left (not_not.mpr haddr)
  | isr => exact keepsSight_isr w
  | queue b env => exact keepsSight_of_out (of_decide_eq_true h) fun _ _ _ _ => nofun
  | start i env => exact keepsSight_of_out (of_decide_eq_true h) fun _ _ _ _ => nofun
  | stop i env => exact keepsSight_of_out (of_decide_eq_true h) fun _ _ _ _ => nofun
  | node i => exact keepsSight_of_out (of_decide_eq_true h) fun _ _ _ _ => nofun

theorem keepsSightAll_sound (h : keepsSightAll w acts = true) :
    ∀ x ∈ visited next w acts, KeepsSight x.1 x.2 := by
  induction acts generalizing w with
  | nil => exact fun _ hx => nomatch hx
  | cons a acts ih =>
    obtain ⟨ha, hacts⟩ := Bool.and_eq_true_iff.mp h
    exact List.forall_mem_cons.mpr ⟨keepsSight_sound ha, ih hacts⟩

def otherStart : StartEnv :=
  { plainStart 1 with setup := ⟨.ok (1, 1), some 1, [1], .ok 0, none⟩ }

/-- Two nodes of two streams start, both are stopped, and the second starts again, in
the slot that the first has left; then its buffer is completed. -/
def restarted : List Act :=
  [.queue ⟨0, 0, 4096⟩ plainQueue, .queue ⟨1, 0, 8192⟩ plainQueue] ++
    .start 0 (plainStart 1) :: List.replicate 5 (.node 0) ++
    .start 1 otherStart :: List.replicate 5 (.node 1) ++
    .stop 0 ⟨plainSet, 0⟩ :: List.replicate 5 (.node 0) ++
    .stop 1 ⟨plainSet, 0⟩ :: List.replicate 5 (.node 1) ++
    .queue ⟨1, 0, 8192⟩ plainQueue :: .start 1 otherStart :: List.replicate 5 (.node 1) ++
    [.respond 0 0 8192 false, .isr, .isr]

theorem restarted_node_sees_its_stream :
    (restarted.foldl next init).isr = .taken 0 ⟨1, 0, 8192⟩ false ∧
      ∀ x ∈ visited next init restarted, SeesAhead (next x.1 x.2) :=
  ⟨by decide +kernel,
    (handler_sees_its_stream_iff restarted).mpr (keepsSightAll_sound (by decide +kernel))⟩

/-- Two nodes of one stream start with a buffer each. The first is stopped, and the
firmware does not answer the flush; when it is detached the firmware completes its
buffer after all. -/
def lateResponse : List Act :=
  [.queue ⟨0, 0, 4096⟩ plainQueue, .queue ⟨1, 0, 8192⟩ plainQueue,
    .start 0 (plainStart 2), .node 0, .node 0,
    .start 1 { plainStart 2 with setup := ⟨.ok (0, 2), some 0, [1, 2], .ok 0, none⟩ },
    .node 1, .node 1, .node 1, .node 1, .node 1,
    .stop 0 ⟨plainSet, 0⟩, .node 0, .node 0, .node 0,
    .respond 0 1 4096 false, .isr, .isr]

/-- The second node keeps the slot in use, so the handler gets to the buffer. -/
theorem late_response_sees_no_stream :
    ∃ w, lateResponse.foldlM step init = some w ∧ w.isr = .taken 0 ⟨0, 0, 4096⟩ false ∧
      (w.isys.av 0).stream = none ∧ ¬ SeesStream w := by
  have hrun : (lateResponse.foldlM step init).map (fun w => (w.isr, (w.isys.av 0).stream)) =
      some (.taken 0 ⟨0, 0, 4096⟩ false, none) := by decide +kernel
  obtain ⟨w, hw, hend⟩ := Option.map_eq_some_iff.mp hrun
  obtain ⟨hisr, hst⟩ := Prod.mk.inj hend
  refine ⟨w, hw, hisr, hst, fun hsees => ?_⟩
  have hsome := hsees 0 _ false hisr
  rw [hst] at hsome
  cases hsome

end Ipu4.Capture.Interleaved
