import Ipu4.Capture.Calls

/-!
# The message buffers of the firmware commands

A message buffer is taken from `framebuflist`, moves to `framebuflist_fw` and is
given back by the function that took it or, for a capture, by the interrupt
handler when the firmware acknowledges the command. The interrupt may come
between any two calls of an operation. No buffer is ever in both lists or in
none; but a message that no command takes along stays in `framebuflist_fw`.
-/

namespace Ipu4.Capture

open Trace Runs

-- ---------------------------------------------------------------------------
-- The lists
-- ---------------------------------------------------------------------------

/-- The lists, head first. The messages allocated so far are the numbers below
`allocated`; `msg` is the variable of the function that runs; `unacked` are the
streams and messages of the accepted captures that wait for the firmware. -/
structure Msgs where
  framebuflist : List Nat
  framebuflistFw : List Nat
  allocated : Nat
  msg : Option Nat
  unacked : List (Nat × Nat)
  deriving DecidableEq, Repr

def allocFwMsgBufs (w : Msgs) (amount : Nat) : Msgs :=
  { w with
    framebuflist := ((List.range amount).map (w.allocated + ·)).reverse ++ w.framebuflist
    allocated := w.allocated + amount }

/-- Takes the last message. `ok` is whether there is one to return. -/
def ipu6GetFwMsgBuf (w : Msgs) (ok : Bool) : Msgs :=
  if !ok then { w with msg := none }
  else
    let w := if w.framebuflist = [] then allocFwMsgBufs w 5 else w
    { w with
      framebuflist := w.framebuflist.dropLast
      framebuflistFw := w.framebuflist.getLast?.toList ++ w.framebuflistFw
      msg := w.framebuflist.getLast? }

def ipu6PutFwMsgBuf (w : Msgs) (m : Nat) : Msgs :=
  { w with
    framebuflist := m :: w.framebuflist.erase m
    framebuflistFw := w.framebuflistFw.erase m }

def ipu6CleanupFwMsgBufs (w : Msgs) : Msgs :=
  { w with framebuflist := w.framebuflistFw.reverse ++ w.framebuflist, framebuflistFw := [] }

def Msgs.call (w : Msgs) : Call → Msgs
  | .getMsg ok => ipu6GetFwMsgBuf w ok
  | .putMsg => w.msg.elim w (ipu6PutFwMsgBuf w)
  | .cleanupMsgs => ipu6CleanupFwMsgBufs w
  | .cmd c =>
    if c.framed && c.accepted then
      { w with unacked := w.msg.toList.map (c.handle, ·) ++ w.unacked }
    else w
  | .getStream _ | .putStream _ | .fwPrepare _ | .fwClose _ => w

-- ---------------------------------------------------------------------------
-- Interrupts between the calls
-- ---------------------------------------------------------------------------

/-- A call, or the response to a capture on stream `k` with message `m`. -/
inductive Event where
  | call (c : Call)
  | ack (k m : Nat)
  deriving DecidableEq, Repr

structure World where
  side : Side
  msgs : Msgs

/-- The acknowledgement in `isys_isr_one`. A stream without references is not
found, and the message stays where it is. -/
def isysIsrAck (w : World) (k m : Nat) : Msgs :=
  let msgs := { w.msgs with unacked := w.msgs.unacked.erase (k, m) }
  if w.side.refs k = 0 then msgs else ipu6PutFwMsgBuf msgs m

def World.next (w : World) : Event → World
  | .call c => ⟨w.side.call c, w.msgs.call c⟩
  | .ack k m => { w with msgs := isysIsrAck w k m }

/-- No message is only returned when there is none, and the firmware
acknowledges what it has accepted, while it is open. -/
def delivery : Monitor World Event where
  next := World.next
  allows w
    | .call (.getMsg ok) => ok = true ∨ w.msgs.framebuflist = []
    | .ack k m => w.side.fwcom = true ∧ (k, m) ∈ w.msgs.unacked
    | _ => True

/-- A response finds its stream in use. -/
def inUse : Monitor World Event where
  next := World.next
  allows w
    | .ack k _ => w.side.refs k ≠ 0
    | _ => True

instance (w : World) : (e : Event) → Decidable (delivery.allows w e)
  | .call (.getMsg ok) => inferInstanceAs (Decidable (ok = true ∨ w.msgs.framebuflist = []))
  | .ack k m => inferInstanceAs (Decidable (w.side.fwcom = true ∧ (k, m) ∈ w.msgs.unacked))
  | .call (.getStream _) | .call (.putStream _) | .call (.fwPrepare _) | .call (.fwClose _)
  | .call .putMsg | .call .cleanupMsgs | .call (.cmd _) => .isTrue trivial

instance (w : World) : (e : Event) → Decidable (inUse.allows w e)
  | .ack k _ => inferInstanceAs (Decidable (w.side.refs k ≠ 0))
  | .call _ => .isTrue trivial

def Event.call? : Event → Option Call
  | .call c => some c
  | .ack .. => none

/-- An operation, and what happens from its first call to the next operation. -/
structure Segment where
  step : Step
  events : List Event

/-- The calls in each segment are those of its operation. -/
def Traces : Isys → List Segment → Prop
  | _, [] => True
  | s, g :: gs => g.step.Proper ∧ g.events.filterMap Event.call? = nextCalls s g.step ∧
      Traces (nextStep s g.step) gs

def events (gs : List Segment) : List Event := gs.flatMap Segment.events

/-- After probing. -/
def start : World := ⟨initial.side, allocFwMsgBufs ⟨[], [], 0, none, []⟩ 20⟩

-- ---------------------------------------------------------------------------
-- One list
-- ---------------------------------------------------------------------------

/-- Every message is in exactly one list, and nothing else is. -/
def InOne (w : Msgs) : Prop :=
  ∀ m, w.framebuflist.count m + w.framebuflistFw.count m = if m < w.allocated then 1 else 0

/-- With it, what the functions and the firmware hold are messages. -/
structure Sound (w : Msgs) : Prop where
  inOne : InOne w
  msg : ∀ m, w.msg = some m → m < w.allocated
  unacked : ∀ k m, (k, m) ∈ w.unacked → m < w.allocated

section
variable {w : Msgs}

theorem Sound.put (h : Sound w) (hm : m < w.allocated) : Sound (ipu6PutFwMsgBuf w m) := by
  refine ⟨fun m' => ?_, h.msg, h.unacked⟩
  have hone := h.inOne m'
  show (m :: w.framebuflist.erase m).count m' + (w.framebuflistFw.erase m).count m' =
    if m' < w.allocated then 1 else 0
  rw [List.count_cons, List.count_erase, List.count_erase]
  by_cases hmm : m = m'
  · subst hmm
    rw [if_pos hm] at hone ⊢
    simp only [beq_self_eq_true, if_true]
    omega
  · simpa [hmm] using hone

theorem Sound.cleanup (h : Sound w) : Sound (ipu6CleanupFwMsgBufs w) := by
  refine ⟨fun m => ?_, h.msg, h.unacked⟩
  have hone := h.inOne m
  show (w.framebuflistFw.reverse ++ w.framebuflist).count m + [].count m =
    if m < w.allocated then 1 else 0
  rw [List.count_append, List.count_reverse, List.count_nil]
  omega

theorem Sound.alloc (h : Sound w) (n : Nat) : Sound (allocFwMsgBufs w n) := by
  refine ⟨fun m => ?_, fun m hm => ?_, fun k m hm => ?_⟩
  · have hone := h.inOne m
    have hnew : ((List.range n).map (w.allocated + ·)).count m =
        if w.allocated ≤ m ∧ m < w.allocated + n then 1 else 0 := by
      rw [(List.nodup_range.map (fun _ _ => Nat.add_left_cancel)).count]
      refine if_congr ?_ rfl rfl
      simp only [List.mem_map, List.mem_range]
      constructor
      · rintro ⟨j, hj, rfl⟩
        omega
      · rintro ⟨hle, hlt⟩
        exact ⟨m - w.allocated, by omega, by omega⟩
    show (((List.range n).map (w.allocated + ·)).reverse ++ w.framebuflist).count m +
      w.framebuflistFw.count m = if m < w.allocated + n then 1 else 0
    rw [List.count_append, List.count_reverse, hnew]
    split at hone
    · rw [if_neg (by omega), if_pos (by omega)]
      omega
    · by_cases hlt : m < w.allocated + n
      · rw [if_pos (by omega), if_pos hlt]
        omega
      · rw [if_neg (by omega), if_neg hlt]
        omega
  · exact Nat.lt_of_lt_of_le (h.msg m hm) (Nat.le_add_right _ n)
  · exact Nat.lt_of_lt_of_le (h.unacked k m hm) (Nat.le_add_right _ n)

theorem count_dropLast_getLast? (l : List Nat) (m : Nat) :
    l.dropLast.count m + l.getLast?.toList.count m = l.count m := by
  cases hl : l.getLast? with
  | none => simp [List.getLast?_eq_none_iff.mp hl]
  | some x =>
    obtain ⟨l', rfl⟩ := List.getLast?_eq_some_iff.mp hl
    rw [List.dropLast_concat, List.count_append]
    rfl

theorem Sound.get (h : Sound w) (ok : Bool) : Sound (ipu6GetFwMsgBuf w ok) := by
  unfold ipu6GetFwMsgBuf
  cases ok with
  | false => exact ⟨h.inOne, fun _ hm => (nomatch hm), h.unacked⟩
  | true =>
    have hfull : Sound (if w.framebuflist = [] then allocFwMsgBufs w 5 else w) := by
      split
      · exact h.alloc 5
      · exact h
    generalize (if w.framebuflist = [] then allocFwMsgBufs w 5 else w) = w at hfull
    refine ⟨fun m => ?_, fun m hm => ?_, hfull.unacked⟩
    · have hone := hfull.inOne m
      have hlast := count_dropLast_getLast? w.framebuflist m
      show w.framebuflist.dropLast.count m +
        (w.framebuflist.getLast?.toList ++ w.framebuflistFw).count m = if m < w.allocated then 1 else 0
      rw [List.count_append]
      omega
    · have hone := hfull.inOne m
      have hpos := List.count_pos_iff.mpr (List.mem_of_getLast? hm)
      show m < w.allocated
      by_contra hge
      rw [if_neg hge] at hone
      omega

theorem Sound.call (h : Sound w) (c : Call) : Sound (w.call c) := by
  cases c with
  | getMsg ok => exact h.get ok
  | putMsg =>
    show Sound (w.msg.elim w (ipu6PutFwMsgBuf w))
    cases hm : w.msg with
    | none => exact h
    | some m => exact h.put (h.msg m hm)
  | cleanupMsgs => exact h.cleanup
  | cmd c =>
    simp only [Msgs.call]
    split
    · refine ⟨h.inOne, h.msg, fun k m hm => ?_⟩
      rcases List.mem_append.mp hm with hm | hm
      · obtain ⟨m', hm', heq⟩ := List.mem_map.mp hm
        obtain ⟨-, rfl⟩ := Prod.mk.inj heq
        exact h.msg m' (Option.mem_toList.mp hm')
      · exact h.unacked k m hm
    · exact h
  | _ => exact h

theorem Sound.event {w : World} (h : Sound w.msgs) (e : Event) (hok : delivery.allows w e) :
    Sound (w.next e).msgs := by
  cases e with
  | call c => exact h.call c
  | ack k m =>
    have hrest : Sound { w.msgs with unacked := w.msgs.unacked.erase (k, m) } :=
      ⟨h.inOne, h.msg, fun k' m' hm => h.unacked k' m' (List.mem_of_mem_erase hm)⟩
    show Sound (isysIsrAck w k m)
    unfold isysIsrAck
    dsimp only
    split
    · exact hrest
    · exact hrest.put (h.unacked k m hok.2)

theorem sound_start : Sound start.msgs :=
  have hnone : Sound ⟨[], [], 0, none, []⟩ := ⟨fun _ => rfl, fun _ h => (nomatch h), fun _ _ h => (nomatch h)⟩
  hnone.alloc 20

theorem sound_after (hrun : Clean delivery start es) : Sound (after delivery start es).msgs :=
  hrun.invariant (I := fun w => Sound w.msgs) sound_start fun _ e h => h.event e

-- ---------------------------------------------------------------------------
-- Messages in hand
-- ---------------------------------------------------------------------------

/-- Whether the running function has a message to give back. It takes no second
one, and a capture that takes the message along is accepted. -/
def carried : Monitor Bool Call where
  next inHand
    | .getMsg ok => ok
    | .putMsg => false
    | .cmd c => inHand && !c.framed
    | _ => inHand
  allows inHand
    | .getMsg _ => inHand = false
    | .cmd c => c.framed = true → c.accepted = true
    | _ => True

/-- A message in the list of the firmware is in hand or waits for the firmware. -/
def Returned (inHand : Bool) (w : Msgs) : Prop :=
  ∀ m ∈ w.framebuflistFw, (∃ k, (k, m) ∈ w.unacked) ∨ inHand = true ∧ w.msg = some m

theorem Sound.not_mem_erase (h : Sound w) (m : Nat) : m ∉ w.framebuflistFw.erase m := by
  intro hm
  have hone := h.inOne m
  have hpos := List.count_pos_iff.mpr hm
  rw [List.count_erase] at hpos
  simp only [beq_self_eq_true, if_true] at hpos
  split at hone <;> omega

theorem Returned.get (h : Returned false w) (ok : Bool) : Returned ok (ipu6GetFwMsgBuf w ok) := by
  have hwait : ∀ m ∈ w.framebuflistFw, ∃ k, (k, m) ∈ w.unacked := by
    intro m hm
    rcases h m hm with hk | ⟨hno, -⟩
    · exact hk
    · cases hno
  unfold ipu6GetFwMsgBuf
  cases ok with
  | false => exact fun m hm => .inl (hwait m hm)
  | true =>
    have hfull : ∀ m ∈ (if w.framebuflist = [] then allocFwMsgBufs w 5 else w).framebuflistFw,
        ∃ k, (k, m) ∈ (if w.framebuflist = [] then allocFwMsgBufs w 5 else w).unacked := by
      split
      · exact hwait
      · exact hwait
    generalize (if w.framebuflist = [] then allocFwMsgBufs w 5 else w) = w at hfull
    intro m hm
    rcases List.mem_append.mp hm with hm | hm
    · exact .inr ⟨rfl, Option.mem_toList.mp hm⟩
    · exact .inl (hfull m hm)

theorem Returned.put (hs : Sound w) (h : Returned b w) :
    Returned false (w.msg.elim w (ipu6PutFwMsgBuf w)) := by
  cases hmsg : w.msg with
  | none =>
    intro m hm
    rcases h m hm with hk | ⟨-, hin⟩
    · exact .inl hk
    · rw [hmsg] at hin
      cases hin
  | some m₀ =>
    intro m hm
    rcases h m (List.mem_of_mem_erase hm) with hk | ⟨-, hin⟩
    · exact .inl hk
    · rw [hmsg] at hin
      obtain rfl := Option.some.inj hin
      exact absurd hm (hs.not_mem_erase m₀)

theorem Returned.cmd (h : Returned b w) (c : Cmd) (hok : c.framed = true → c.accepted = true) :
    Returned (b && !c.framed) (w.call (.cmd c)) := by
  cases hframed : c.framed with
  | false =>
    simp only [Msgs.call, hframed, Bool.false_and, Bool.false_eq_true, if_false, Bool.not_false,
      Bool.and_true]
    exact h
  | true =>
    simp only [Msgs.call, hframed, hok hframed, Bool.and_self, if_true, Bool.not_true, Bool.and_false]
    intro m hm
    rcases h m hm with ⟨k, hk⟩ | ⟨-, hin⟩
    · exact .inl ⟨k, List.mem_append_right _ hk⟩
    · refine .inl ⟨c.handle, List.mem_append_left _ ?_⟩
      rw [hin]
      exact List.mem_singleton.mpr rfl

theorem Returned.call (hs : Sound w) (h : Returned b w) (hok : carried.allows b c) :
    Returned (carried.next b c) (w.call c) := by
  cases c with
  | getMsg ok =>
    obtain rfl : b = false := hok
    exact h.get ok
  | putMsg => exact h.put hs
  | cleanupMsgs => exact fun m hm => nomatch hm
  | cmd c => exact h.cmd c hok
  | getStream k => exact h
  | putStream k => exact h
  | fwPrepare ok => exact h
  | fwClose ret => exact h

/-- The message that the firmware acknowledges goes back, and no other one was
waiting for this response. -/
theorem Returned.ack {w : World} (hs : Sound w.msgs) (h : Returned b w.msgs)
    (huse : w.side.refs k ≠ 0) : Returned b (isysIsrAck w k m) := by
  unfold isysIsrAck
  dsimp only
  rw [if_neg huse]
  intro m' hm'
  have hne : m' ≠ m := by
    rintro rfl
    exact hs.not_mem_erase m' hm'
  rcases h m' (List.mem_of_mem_erase hm') with ⟨k', hk'⟩ | hin
  · refine .inl ⟨k', (List.mem_erase_of_ne ?_).mpr hk'⟩
    exact fun heq => hne (Prod.mk.inj heq).2
  · exact .inr hin

theorem Returned.interleaved {w : World} (hs : Sound w.msgs) (h : Returned b w.msgs)
    (hrun : Clean delivery w es) (huse : Clean inUse w es)
    (hcalls : EndsIn carried b (es.filterMap Event.call?) (· = b')) :
    Returned b' (after delivery w es).msgs := by
  induction es generalizing w b with
  | nil =>
    obtain rfl : b = b' := hcalls.2
    exact h
  | cons e es ih =>
    have hs' := hs.event e hrun.1
    cases e with
    | call c => exact ih hs' (h.call hs hcalls.1.1) hrun.2 huse.2 ⟨hcalls.1.2, hcalls.2⟩
    | ack k m => exact ih hs' (h.ack hs huse.1) hrun.2 huse.2 hcalls

end

-- ---------------------------------------------------------------------------
-- Which operations are tidy
-- ---------------------------------------------------------------------------

def Call.frameAccepted : Call → Bool
  | .cmd c => !c.framed || c.accepted
  | _ => true

def FramesAccepted (cs : List Call) : Prop := ∀ c ∈ cs, c.frameAccepted = true

/-- If no capture is refused, the calls give back what they take. -/
structure Tidy (b : Bool) (cs : List Call) (b' : Bool) : Prop where
  ends : FramesAccepted cs → EndsIn carried b cs (· = b')

theorem Tidy.nil : Tidy b [] b := ⟨fun _ => .nil rfl⟩

theorem Tidy.cons (hok : c.frameAccepted = true → carried.allows b c)
    (h : Tidy (carried.next b c) cs b') : Tidy b (c :: cs) b' := by
  refine ⟨fun hacc => ?_⟩
  obtain ⟨hc, hcs⟩ := List.forall_mem_cons.mp hacc
  exact .cons (hok hc) (h.ends hcs)

theorem Tidy.get (h : Tidy ok cs b') : Tidy false (.getMsg ok :: cs) b' := .cons (fun _ => rfl) h

theorem Tidy.put (h : Tidy false cs b') : Tidy b (.putMsg :: cs) b' := .cons (fun _ => trivial) h

theorem Tidy.cmd (h : Tidy (b && !c.framed) cs b') : Tidy b (.cmd c :: cs) b' := by
  refine .cons (fun hok hframed => ?_) h
  rw [Call.frameAccepted, hframed] at hok
  exact hok

theorem Tidy.append (h : Tidy b cs b') (h' : Tidy b' cs' b'') : Tidy b (cs ++ cs') b'' := by
  refine ⟨fun hacc => ?_⟩
  obtain ⟨hcs, hcs'⟩ := List.forall_mem_append.mp hacc
  refine (h.ends hcs).append ?_
  rintro _ rfl
  exact h'.ends hcs'

theorem Tidy.ite {p : Prop} [Decidable p] (h : Tidy b cs b') (h' : Tidy b cs' b') :
    Tidy b (if p then cs else cs') b' := by
  split
  · exact h
  · exact h'

theorem Tidy.got (h : Tidy true cs false) : Tidy ok (if !ok then [] else cs) false := by
  cases ok with
  | false => exact .nil
  | true => exact h

theorem tidy_startOpened (env : FwStart) (k : Nat) (frame : Option FrameBuffSet) :
    Tidy frame.isSome (startOpenedCalls env k frame) false := by
  cases frame with
  | none => exact .cmd (.ite (.cmd .nil) .nil)
  | some frame => exact .cmd (.ite (.cmd .nil) .nil)

theorem tidy_startStreamFirmware (fw : Firmware) (env : FwStart) (k : Nat) (queues : List Nat)
    (bl : Option (List Buffer)) : Tidy false (startStreamFirmwareCalls fw env k queues bl) false := by
  refine .get (.got (.ite (.put .nil) (.cmd (.put (.ite .nil ?_)))))
  unfold openedCalls
  split
  · exact tidy_startOpened env k none
  · exact .get (.got (tidy_startOpened env k (some _)))
  · exact .nil

theorem tidy_setStreaming (s : Isys) (env : SetEnv) (k : Nat) (state : Bool)
    (bl : Option (List Buffer)) : Tidy false (setStreamingCalls s env k state bl) false :=
  .ite .nil (.ite (.cmd (.ite .nil (.cmd .nil)))
    ((tidy_startStreamFirmware ..).append (.ite (.cmd .nil) .nil)))

theorem tidy_captureLoop (env : CaptureEnv) (k : Nat) (queues : List Nat) (n j : Nat)
    (fw : Firmware) (q : Bufs) : Tidy false (captureLoopCalls env k queues n j fw q) false := by
  induction n generalizing j fw q with
  | zero => exact .nil
  | succ n ih =>
    rw [captureLoopCalls]
    cases bufferListGet q queues [] with
    | mk q₁ r =>
    cases r with
    | none => exact .nil
    | some bl => exact .get (.got (.cmd (.ite .nil (ih ..))))

theorem tidy_streamStart (s : Isys) (env : StreamStartEnv) (i k : Nat) (bl : List Buffer) :
    Tidy false (streamStartCalls s env i k bl) false :=
  (tidy_setStreaming ..).append (.ite .nil (tidy_captureLoop ..))

theorem tidy_cleanup (s : Isys) (i : Nat) : Tidy false (cleanupCalls s i) false := by
  unfold cleanupCalls
  cases (s.av i).stream with
  | none => exact .nil
  | some k => exact .cons (fun _ => trivial) .nil

theorem tidy_fwPut (s : Isys) (ret : Int) : Tidy false (fwPutCalls s ret) false :=
  .ite .nil (.cons (fun _ => trivial) .nil)

theorem tidy_open (init : InitEnv) : Tidy false (openCalls init) false :=
  .cons (fun _ => trivial) (.cons (fun _ => trivial) (.ite (.cons (fun _ => trivial) .nil) .nil))

theorem tidy_outFwClose (s : Isys) (env : StartEnv) (i : Nat) :
    Tidy false (outFwCloseCalls s env i) false :=
  (tidy_fwPut ..).append (tidy_cleanup ..)

theorem tidy_startJoined (s : Isys) (env : StartEnv) (i k : Nat) :
    Tidy false (startJoinedCalls s env i k) false := by
  refine .ite .nil ?_
  cases bufferListGet s.bufs (s.streams k).queues [] with
  | mk q r =>
  cases r with
  | none => exact .nil
  | some bl => exact (tidy_streamStart ..).append (.ite .nil (tidy_outFwClose ..))

theorem tidy_startStreaming (s : Isys) (env : StartEnv) (init : InitEnv) (i : Nat) :
    Tidy false (startStreamingCalls s env init i) false := by
  unfold startStreamingCalls
  cases ipu6IsysSetupVideo s env.setup i with
  | mk s₁ r =>
  cases r with
  | error ret => exact .nil
  | ok r =>
    refine .cons (fun _ => trivial) (.ite (tidy_cleanup ..) ?_)
    refine Tidy.append (.ite .nil (tidy_open ..)) (.ite (tidy_cleanup ..) ?_)
    exact .ite (tidy_outFwClose ..) (tidy_startJoined ..)

theorem tidy_stopStreaming (s : Isys) (env : StopEnv) (i : Nat) :
    Tidy false (stopStreamingCalls s env i) false := by
  unfold stopStreamingCalls
  cases (s.av i).stream with
  | none => exact .nil
  | some k =>
    exact Tidy.append (.ite (tidy_setStreaming ..) .nil) (.cons (fun _ => trivial) (tidy_fwPut ..))

theorem tidy_restartStream (s : Isys) (env : RestartEnv) (init : InitEnv) (i : Nat) :
    Tidy false (restartStreamCalls s env init i) false := by
  unfold restartStreamCalls
  cases (s.av i).stream with
  | none => exact .nil
  | some k =>
    refine .ite .nil ((tidy_setStreaming ..).append (.ite .nil (.cons (fun _ => trivial) (.ite .nil ?_))))
    exact (tidy_open init).append (.ite .nil (tidy_setStreaming ..))

/-- `buf_queue` does not take a message and then hand over to
`ipu6_isys_stream_start`, which takes its own. -/
def TakesOneMsg (s : Isys) : Op → Prop
  | .queue b env => ∀ k, env.slot s b = some k → QueueCompletes s b k → env.msg = true →
      (s.streams k).streaming = true
  | _ => True

theorem tidy_bufQueue (hw : Wf s) (hone : TakesOneMsg s (.queue b env)) :
    Tidy false (bufQueueCalls s env b) false := by
  rw [bufQueueCalls_slot]
  cases hslot : env.slot s b with
  | none => exact .nil
  | some k =>
    simp only [Option.elim_some, bufQueueStreamCalls, show (s.addIncoming b).streams = s.streams from rfl]
    by_cases hnr : (s.streams k).nrStreaming = (s.streams k).nrQueues
    case neg =>
      rw [if_pos hnr]
      exact .nil
    rw [if_neg (not_not.mpr hnr)]
    cases hget : bufferListGet (s.addIncoming b).bufs (s.streams k).queues [] with
    | mk q r =>
    have hiff := queueCompletes_iff (hw.nodup k) hget
    cases r with
    | none => exact .nil
    | some bl =>
      cases hmsg : env.msg with
      | false => exact .get .nil
      | true =>
        have hstr := hone k hslot ⟨hnr, hiff.mp rfl⟩ hmsg
        simp only [hstr, Bool.not_true, Bool.false_eq_true, if_false]
        exact .get (.cmd .nil)

/-- The operation leaves no message behind: it takes one at a time, and no capture
it sends is refused. -/
def KeepsMsgs (s : Isys) (st : Step) : Prop :=
  TakesOneMsg s st.op ∧ FramesAccepted (nextCalls s st)

theorem tidy_nextCalls (hw : Wf s) (st : Step) (hone : Allowed s st.op → TakesOneMsg s st.op) :
    Tidy false (nextCalls s st) false := by
  obtain ⟨op, init⟩ := st
  unfold nextCalls
  split
  next hok =>
    cases op with
    | queue b env => exact tidy_bufQueue hw (hone hok)
    | start i env => exact tidy_startStreaming s env init i
    | stop i env => exact tidy_stopStreaming s env i
    | restart i env => exact tidy_restartStream s env init i
    | ready k pin pinAddr errorCheck => exact .nil
  · exact .nil

-- ---------------------------------------------------------------------------
-- Runs
-- ---------------------------------------------------------------------------

theorem side_interleaved (w : World) (es : List Event) :
    (after delivery w es).side = w.side.calls (es.filterMap Event.call?) := by
  induction es generalizing w with
  | nil => rfl
  | cons e es ih =>
    cases e with
    | call c => exact ih _
    | ack k m => exact ih _

theorem side_events (hw : Wf s) (hs : World.side w = s.side) (htr : Traces s gs) :
    (after delivery w (events gs)).side = ((gs.map Segment.step).foldl nextStep s).side := by
  induction gs generalizing s w with
  | nil => exact hs
  | cons g gs ih =>
    obtain ⟨hp, hcalls, htr⟩ := htr
    rw [events, List.flatMap_cons, after_append]
    refine ih (hw.next g.step.op) ?_ htr
    rw [side_interleaved, hcalls, hs]
    exact side_next hw g.step hp

theorem framesAccepted_nextCalls (h : Allowed s st.op → KeepsMsgs s st) :
    FramesAccepted (nextCalls s st) := by
  by_cases hok : Allowed s st.op
  · exact (h hok).2
  · intro c hc
    rw [nextCalls, if_neg hok] at hc
    cases hc

theorem Returned.run (hw : Wf s) (hs : Sound (World.msgs w)) (h : Returned false w.msgs)
    (htr : Traces s gs) (hrun : Clean delivery w (events gs)) (huse : Clean inUse w (events gs))
    (hkeep : ∀ x ∈ visited nextStep s (gs.map Segment.step), Allowed x.1 x.2.op → KeepsMsgs x.1 x.2) :
    Returned false (after delivery w (events gs)).msgs := by
  induction gs generalizing s w with
  | nil => exact h
  | cons g gs ih =>
    obtain ⟨-, hcalls, htr⟩ := htr
    rw [List.map_cons, visited, List.forall_mem_cons] at hkeep
    rw [events, List.flatMap_cons] at hrun huse ⊢
    obtain ⟨hrun, hrest⟩ := (clean_append _ _ _).mp hrun
    obtain ⟨huse, huses⟩ := (clean_append _ _ _).mp huse
    have htidy := tidy_nextCalls hw g.step fun hok => (hkeep.1 hok).1
    have hends := htidy.ends (framesAccepted_nextCalls hkeep.1)
    have hsound : Sound (after delivery w g.events).msgs :=
      hrun.invariant (I := fun w => Sound w.msgs) hs fun _ e h => h.event e
    rw [after_append]
    exact ih (hw.next g.step.op) hsound (h.interleaved hs hrun huse (hcalls ▸ hends)) htr hrest huses
      hkeep.2

/-- In every run, whatever fails and whenever the firmware answers, every message
is in exactly one list. If no operation leaves a message behind and every response
finds its stream in use, then between operations the list of the firmware is empty
once every accepted capture is acknowledged. -/
theorem fw_msgs_come_back (gs : List Segment) (htr : Traces initial gs)
    (hrun : Clean delivery start (events gs)) :
    (∀ es, es <+: events gs → InOne (after delivery start es).msgs) ∧
      ((∀ x ∈ visited nextStep initial (gs.map Segment.step),
          Allowed x.1 x.2.op → KeepsMsgs x.1 x.2) →
        Clean inUse start (events gs) → (after delivery start (events gs)).msgs.unacked = [] →
        (after delivery start (events gs)).msgs.framebuflistFw = []) := by
  refine ⟨fun es hes => (sound_after (hrun.of_prefix hes)).inOne, fun hkeep huse hdone => ?_⟩
  have hret := Returned.run wf_initial sound_start (fun m hm => nomatch hm) htr hrun huse hkeep
  refine List.eq_nil_iff_forall_not_mem.mpr fun m hm => ?_
  rcases hret m hm with ⟨k, hk⟩ | ⟨hno, -⟩
  · rw [hdone] at hk
    cases hk
  · cases hno

/-- An operation whose responses come after its last call. -/
def segment (s : Isys) (op : Op) (acks : List (Nat × Nat)) : Segment :=
  have st : Step := ⟨op, ⟨true, true, true, 0⟩⟩
  ⟨st, (nextCalls s st).map .call ++ acks.map fun a => .ack a.1 a.2⟩

theorem segment_calls (s : Isys) (op : Op) (acks : List (Nat × Nat)) :
    (segment s op acks).events.filterMap Event.call? = nextCalls s (segment s op acks).step := by
  have hcalls : ∀ cs : List Call, (cs.map Event.call).filterMap Event.call? = cs := by
    intro cs
    rw [List.filterMap_map]
    exact List.filterMap_some
  have hacks : (acks.map fun a => Event.ack a.1 a.2).filterMap Event.call? = [] := by
    rw [List.filterMap_map]
    exact List.filterMap_eq_nil_iff.mpr fun _ _ => rfl
  simp only [segment, List.filterMap_append, hcalls, hacks, List.append_nil]

def queueOp : Op := .queue ⟨0, 0, 4096⟩ plainQueue

def startOp : Op := .start 0 (plainStart 1)

theorem startOp_proper (s : Isys) (acks : List (Nat × Nat)) : (segment s startOp acks).step.Proper :=
  ⟨by decide, rfl⟩

/-- The node starts without a buffer, so that the first buffer starts the stream. -/
def startThenQueue : List Segment :=
  [segment initial startOp [], segment (next initial startOp) queueOp [(0, 2)]]

/-- All commands are accepted and acknowledged, and the message of `buf_queue`
stays with the firmware. -/
theorem bufQueue_leaks_msg :
    Traces initial startThenQueue ∧ Clean delivery start (events startThenQueue) ∧
      (after delivery start (events startThenQueue)).msgs.unacked = [] ∧
      (after delivery start (events startThenQueue)).msgs.framebuflistFw = [0] := by
  refine ⟨⟨startOp_proper _ _, segment_calls _ _ _, trivial, segment_calls _ _ _, trivial⟩, ?_⟩
  decide +kernel

def queueThenStart : List Segment :=
  [segment initial queueOp [], segment (next initial queueOp) startOp [(0, 1)]]

/-- With the buffer there first, nothing is left behind. -/
theorem fw_msgs_come_back_queued_first :
    (after delivery start (events queueThenStart)).msgs.framebuflistFw = [] := by
  refine (fw_msgs_come_back queueThenStart
    ⟨trivial, segment_calls _ _ _, startOp_proper _ _, segment_calls _ _ _, trivial⟩
    (by decide +kernel)).2 ?_ (by decide +kernel) (by decide +kernel)
  intro x hx _
  simp only [queueThenStart, List.map_cons, List.map_nil, visited, List.mem_cons, List.not_mem_nil,
    or_false] at hx
  rcases hx with rfl | rfl
  · refine ⟨fun k hk => (by cases hk), ?_⟩
    unfold FramesAccepted
    decide +kernel
  · refine ⟨trivial, ?_⟩
    unfold FramesAccepted
    decide +kernel

end Ipu4.Capture
