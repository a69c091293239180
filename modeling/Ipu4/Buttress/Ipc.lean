import Mathlib.Algebra.Group.Int.Defs
import Mathlib.Algebra.GroupWithZero.Nat
import Mathlib.Data.List.Basic
import Mathlib.Data.Nat.Find
import Ipu4.Lib.Errno

/-!
# Commands to the CSE

`ipu6_buttress_ipc_send_bulk` sends a list of commands. One that is not acknowledged
in time is sent a second time: the loop index steps back and forward again, and the
count of retries is spent. What the CSE does is an input.
-/

namespace Ipu4.Buttress

def BUTTRESS_IPC_CMD_SEND_RETRY : Nat := 1
def BUTTRESS_IU2CSEDB0_BUSY : Nat := 2 ^ 31
def BUTTRESS_IU2CSECSR_IPC_PEER_ASSERTED_REG_VALID_REQ : Nat := 2 ^ 3
def BUTTRESS_IU2CSECSR_IPC_PEER_DEASSERTED_REG_VALID_REQ : Nat := 2 ^ 5

/-- `struct ipu6_ipc_buttress_bulk_msg`. -/
structure BulkMsg where
  cmd : Nat
  expectedResp : Nat
  requireResp : Bool
  cmdSize : Nat
  deriving DecidableEq, Repr

/-- The messages of a call, as many as its 32-bit `size` says. -/
structure BulkMsgs where
  list : List BulkMsg
  size_lt : list.length < 2 ^ 32

/-- The parts of `struct ipu6_buttress_ipc` a call looks at. -/
structure ButtressIpc where
  nack : Nat
  nackMask : Nat

/-- Writes to the three registers towards the CSE. -/
inductive IpcWrite
  | csrOut (val : Nat)
  | data0Out (val : Nat)
  | db0Out (val : Nat)
  deriving DecidableEq, Repr

/-- What the CSE does: whether it acknowledges validity, whether it acknowledges a
message that was sent so often before, and the response it gives to a message. -/
structure Cse where
  validity : Bool
  sendComplete : Nat → Nat → Bool
  recv : Nat → Option Nat

/-- The locals of the call; `sent` are the indices of the messages sent so far. -/
structure BulkState where
  i : Nat
  retry : Nat
  sent : List Nat
  writes : List IpcWrite
  deriving Repr

def BulkState.writel (s : BulkState) (ws : List IpcWrite) : BulkState := { s with writes := s.writes ++ ws }

def BulkMsg.writes (msg : BulkMsg) : List IpcWrite :=
  [.data0Out msg.cmd, .db0Out (BUTTRESS_IU2CSEDB0_BUSY ||| msg.cmdSize)]

inductive Control
  | continue (s : BulkState)
  | out (ret : Int) (s : BulkState)

/-- What becomes of a message that was acknowledged. -/
def response (ipc : ButtressIpc) (cse : Cse) (i : Nat) (msg : BulkMsg) : Int :=
  if !msg.requireResp then 0
  else
    match cse.recv i with
    | none => -ETIMEDOUT
    | some recvData =>
      if ipc.nackMask ≠ 0 ∧ recvData &&& ipc.nackMask = ipc.nack then - EIO
      else if recvData ≠ msg.expectedResp then - EIO
      else 0

/-- `x++` and `x--` on an `unsigned int`. -/
def inc32 (x : Nat) : Nat := if x = 2 ^ 32 - 1 then 0 else x + 1
def dec32 (x : Nat) : Nat := if x = 0 then 2 ^ 32 - 1 else x - 1

theorem inc32_dec32 (h : x < 2 ^ 32) : inc32 (dec32 x) = x := by
  unfold inc32 dec32
  split
  · next hzero => rw [if_pos rfl, hzero]
  · rw [if_neg (by omega)]
    omega

theorem inc32_eq (h : x + 1 < 2 ^ 32) : inc32 x = x + 1 := if_neg (by omega)

theorem dec32_one : dec32 1 = 0 := rfl

/-- The body of the loop, with the step of the index after it. -/
def sendBody (ipc : ButtressIpc) (cse : Cse) (msg : BulkMsg) (s : BulkState) : Control :=
  let acked := cse.sendComplete s.i (s.sent.count s.i)
  let s := { s with sent := s.sent ++ [s.i] }
  let s := s.writel msg.writes
  if !acked then
    let spent := s.retry = 0
    let s := { s with retry := dec32 s.retry }
    if spent then .out (-ETIMEDOUT) s
    else
      let s := s.writel [.db0Out 0]
      let i := dec32 s.i
      .continue { s with i := inc32 i }
  else
    let s := { s with retry := BUTTRESS_IPC_CMD_SEND_RETRY }
    let ret := response ipc cse s.i msg
    if ret ≠ 0 then .out ret s else .continue { s with i := inc32 s.i }

/-- So many rounds of the loop, and none if they do not suffice. -/
def sendLoop (ipc : ButtressIpc) (cse : Cse) (msgs : BulkMsgs) : Nat → BulkState → Option (Int × BulkState)
  | 0, _ => none
  | rounds + 1, s =>
    match msgs.list[s.i]? with
    | none => some (0, s)
    | some msg =>
      match sendBody ipc cse msg s with
      | .out ret s => some (ret, s)
      | .continue s => sendLoop ipc cse msgs rounds s

def validityClose : List IpcWrite := [.csrOut BUTTRESS_IU2CSECSR_IPC_PEER_DEASSERTED_REG_VALID_REQ]

/-- `ipu6_buttress_ipc_validity_open`: a handshake that times out is closed again. -/
def validityOpen (cse : Cse) : Int × List IpcWrite :=
  let asserted := [.csrOut BUTTRESS_IU2CSECSR_IPC_PEER_ASSERTED_REG_VALID_REQ]
  if cse.validity then (0, asserted) else (-ETIMEDOUT, asserted ++ validityClose)

def BulkState.start (writes : List IpcWrite) : BulkState := ⟨0, BUTTRESS_IPC_CMD_SEND_RETRY, [], writes⟩

def ipu6ButtressIpcSendBulk (ipc : ButtressIpc) (cse : Cse) (msgs : BulkMsgs) (rounds : Nat) :
    Option (Int × BulkState) :=
  let (ret, writes) := validityOpen cse
  let s := BulkState.start writes
  if ret ≠ 0 then some (ret, s.writel validityClose)
  else (sendLoop ipc cse msgs rounds s).map fun (ret, s) => (ret, s.writel validityClose)

-- ---------------------------------------------------------------------------
-- What a call is to do
-- ---------------------------------------------------------------------------

def Acked (cse : Cse) (i : Nat) : Prop := cse.sendComplete i 0 = true ∨ cse.sendComplete i 1 = true

instance (cse : Cse) (i : Nat) : Decidable (Acked cse i) := inferInstanceAs (Decidable (_ ∨ _))

/-- A message is acknowledged and, if it asks for one, has the right response. -/
structure Answered (ipc : ButtressIpc) (cse : Cse) (i : Nat) (msg : BulkMsg) : Prop where
  acked : Acked cse i
  resp : msg.requireResp = true → ∃ v, cse.recv i = some v ∧
    ¬ (ipc.nackMask ≠ 0 ∧ v &&& ipc.nackMask = ipc.nack) ∧ v = msg.expectedResp

/-- How often a message is sent. -/
def attempts (cse : Cse) (i : Nat) : Nat := if cse.sendComplete i 0 then 1 else 2

/-- The first `m` messages in order, each as often as it takes. -/
def sentUpTo (cse : Cse) (m : Nat) : List Nat := (List.range m).flatMap fun i => List.replicate (attempts cse i) i

def commands (writes : List IpcWrite) : List Nat :=
  writes.filterMap fun
    | .data0Out val => some val
    | _ => none

variable {ipc : ButtressIpc} {cse : Cse} {msgs : BulkMsgs} {s : BulkState} {msg : BulkMsg} {m : Nat}

theorem response_eq_zero : response ipc cse i msg = 0 ↔ (msg.requireResp = true → ∃ v, cse.recv i = some v ∧
    ¬ (ipc.nackMask ≠ 0 ∧ v &&& ipc.nackMask = ipc.nack) ∧ v = msg.expectedResp) := by
  unfold response
  cases msg.requireResp with
  | false => simp
  | true =>
    cases cse.recv i with
    | none => simp [ETIMEDOUT]
    | some v =>
      simp only [Bool.not_true, Bool.false_eq_true, if_false, Option.some.injEq, exists_eq_left', forall_const]
      split
      · simp [ EIO, *]
      · split
        · simp [ EIO, *]
        · simp_all

theorem response_error : response ipc cse i msg = 0 ∨ response ipc cse i msg = -ETIMEDOUT ∨
    response ipc cse i msg = - EIO := by
  unfold response
  repeat' split
  all_goals simp

theorem sentUpTo_succ (cse : Cse) (m : Nat) :
    sentUpTo cse (m + 1) = sentUpTo cse m ++ List.replicate (attempts cse m) m := by
  simp [sentUpTo, List.range_succ]

theorem count_sentUpTo (cse : Cse) (m : Nat) : (sentUpTo cse m).count m = 0 := by
  rw [List.count_eq_zero]
  simp only [sentUpTo, List.mem_flatMap, List.mem_range, List.mem_replicate, not_exists, not_and]
  rintro i hi - rfl
  exact Nat.lt_irrefl m hi

@[simp] theorem commands_append (ws ws' : List IpcWrite) : commands (ws ++ ws') = commands ws ++ commands ws' :=
  List.filterMap_append ..

-- ---------------------------------------------------------------------------
-- One message
-- ---------------------------------------------------------------------------

/-- Before message `m`. -/
structure At (cse : Cse) (m : Nat) (s : BulkState) : Prop where
  index : s.i = m
  retry : s.retry = BUTTRESS_IPC_CMD_SEND_RETRY
  sent : s.sent = sentUpTo cse m

/-- What the call returns for a message that is not answered. -/
def failure (ipc : ButtressIpc) (cse : Cse) (i : Nat) (msg : BulkMsg) : Int :=
  if Acked cse i then response ipc cse i msg else -ETIMEDOUT

theorem answered_iff : Answered ipc cse i msg ↔ Acked cse i ∧ response ipc cse i msg = 0 :=
  ⟨fun h => ⟨h.acked, response_eq_zero.mpr h.resp⟩, fun ⟨ha, hr⟩ => ⟨ha, response_eq_zero.mp hr⟩⟩

theorem failure_error (h : ¬ Answered ipc cse i msg) :
    failure ipc cse i msg = -ETIMEDOUT ∨ failure ipc cse i msg = - EIO := by
  unfold failure
  split
  · next hacked => exact response_error.resolve_left fun hzero => h (answered_iff.mpr ⟨hacked, hzero⟩)
  · exact .inl rfl

def BulkState.sentMsg (s : BulkState) (msg : BulkMsg) (retry : Nat) : BulkState :=
  { s with sent := s.sent ++ [s.i], writes := s.writes ++ msg.writes, retry }

theorem sendBody_acked (ipc : ButtressIpc) (msg : BulkMsg)
    (hack : cse.sendComplete s.i (s.sent.count s.i) = true) :
    sendBody ipc cse msg s =
      if response ipc cse s.i msg ≠ 0 then
        .out (response ipc cse s.i msg) (s.sentMsg msg BUTTRESS_IPC_CMD_SEND_RETRY)
      else .continue { s.sentMsg msg BUTTRESS_IPC_CMD_SEND_RETRY with i := inc32 s.i } := by
  rw [sendBody, hack]
  rfl

theorem sendBody_retry (hack : cse.sendComplete s.i (s.sent.count s.i) = false) (hretry : s.retry ≠ 0) :
    sendBody ipc cse msg s = .continue
      { (s.sentMsg msg (dec32 s.retry)).writel [.db0Out 0] with
        i := inc32 (dec32 s.i) } := by
  simp only [sendBody, BulkState.writel, BulkState.sentMsg, hack, hretry, Bool.not_false, if_true, if_false]

theorem sendBody_give_up (hack : cse.sendComplete s.i (s.sent.count s.i) = false) (hretry : s.retry = 0) :
    sendBody ipc cse msg s = .out (-ETIMEDOUT) (s.sentMsg msg (dec32 s.retry)) := by
  simp only [sendBody, BulkState.writel, BulkState.sentMsg, hack, hretry, Bool.not_false, if_true]

theorem sendLoop_succ (hmsg : msgs.list[s.i]? = some msg) (rounds : Nat) :
    sendLoop ipc cse msgs (rounds + 1) s =
      match sendBody ipc cse msg s with
      | .out ret s => some (ret, s)
      | .continue s => sendLoop ipc cse msgs rounds s := by
  rw [sendLoop, hmsg]

theorem sendLoop_acked (ipc : ButtressIpc) (hi : s.i = m) (hmsg : msgs.list[m]? = some msg)
    (hack : cse.sendComplete m (s.sent.count m) = true) :
    (response ipc cse m msg = 0 → ∃ s', s'.i = m + 1 ∧ s'.retry = BUTTRESS_IPC_CMD_SEND_RETRY ∧
      s'.sent = s.sent ++ [m] ∧
        ∀ rounds, sendLoop ipc cse msgs (rounds + 1) s = sendLoop ipc cse msgs rounds s') ∧
    (response ipc cse m msg ≠ 0 → ∃ s', s'.sent = s.sent ++ [m] ∧
      ∀ rounds, sendLoop ipc cse msgs (rounds + 1) s = some (response ipc cse m msg, s')) := by
  subst hi
  have hlt : s.i < msgs.list.length := (List.getElem?_eq_some_iff.mp hmsg).1
  have hsize := msgs.size_lt
  have hbody := sendBody_acked ipc msg hack
  constructor
  · intro hresp
    refine ⟨{ s.sentMsg msg BUTTRESS_IPC_CMD_SEND_RETRY with i := inc32 s.i },
      inc32_eq (by omega), rfl, rfl, fun rounds => ?_⟩
    rw [sendLoop_succ hmsg, hbody, if_neg (not_not.mpr hresp)]
  · intro hresp
    refine ⟨s.sentMsg msg BUTTRESS_IPC_CMD_SEND_RETRY, rfl, fun rounds => ?_⟩
    rw [sendLoop_succ hmsg, hbody, if_pos hresp]

theorem sendLoop_retry (ipc : ButtressIpc) (hat : At cse m s) (hmsg : msgs.list[m]? = some msg)
    (hack : cse.sendComplete m 0 = false) :
    ∃ s', s'.i = m ∧ s'.retry = 0 ∧ s'.sent = s.sent ++ [m] ∧
      ∀ rounds, sendLoop ipc cse msgs (rounds + 1) s = sendLoop ipc cse msgs rounds s' := by
  obtain ⟨rfl, hretry, hsent⟩ := hat
  have hlt : s.i < msgs.list.length := (List.getElem?_eq_some_iff.mp hmsg).1
  have hack' : cse.sendComplete s.i (s.sent.count s.i) = false := by rwa [hsent, count_sentUpTo]
  have hsize := msgs.size_lt
  -- the index steps back and forward again, also at 0
  have hback : inc32 (dec32 s.i) = s.i := inc32_dec32 (by omega)
  refine ⟨(s.sentMsg msg 0).writel [.db0Out 0], rfl, rfl, rfl, fun rounds => ?_⟩
  rw [sendLoop_succ hmsg, sendBody_retry hack' (by rw [hretry]; decide), hback, hretry,
    BUTTRESS_IPC_CMD_SEND_RETRY,
    dec32_one]
  rfl

theorem sendLoop_message (hat : At cse m s) (hmsg : msgs.list[m]? = some msg) (hack : Acked cse m) :
    (response ipc cse m msg = 0 → ∃ s', At cse (m + 1) s' ∧
      ∀ rounds, sendLoop ipc cse msgs (rounds + attempts cse m) s = sendLoop ipc cse msgs rounds s') ∧
    (response ipc cse m msg ≠ 0 → ∃ s', s'.sent = sentUpTo cse (m + 1) ∧
      ∀ rounds, sendLoop ipc cse msgs (rounds + attempts cse m) s =
        some (response ipc cse m msg, s')) := by
  have hsent := hat.sent
  cases hfirst : cse.sendComplete m 0 with
  | true =>
    have hone : attempts cse m = 1 := if_pos hfirst
    have hack' : cse.sendComplete m (s.sent.count m) = true := by rwa [hsent, count_sentUpTo]
    obtain ⟨hok, hbad⟩ := sendLoop_acked ipc hat.index hmsg hack'
    rw [sentUpTo_succ, hone]
    constructor
    · intro hresp
      obtain ⟨s', hi, hretry, hsent', hrun⟩ := hok hresp
      refine ⟨s', ⟨hi, hretry, ?_⟩, hrun⟩
      rw [hsent', hsent, sentUpTo_succ, hone]
      rfl
    · intro hresp
      obtain ⟨s', hsent', hrun⟩ := hbad hresp
      exact ⟨s', by rw [hsent', hsent]; rfl, hrun⟩
  | false =>
    have htwo : attempts cse m = 2 := if_neg (by simp [hfirst])
    obtain ⟨s₁, hi₁, hretry₁, hsent₁, hrun₁⟩ := sendLoop_retry ipc hat hmsg hfirst
    have hack' : cse.sendComplete m (s₁.sent.count m) = true := by
      rw [hsent₁, hsent, List.count_append, count_sentUpTo]
      simpa using hack.resolve_left (by simp [hfirst])
    obtain ⟨hok, hbad⟩ := sendLoop_acked ipc hi₁ hmsg hack'
    rw [sentUpTo_succ, htwo]
    constructor
    · intro hresp
      obtain ⟨s', hi, hretry, hsent', hrun⟩ := hok hresp
      refine ⟨s', ⟨hi, hretry, ?_⟩, fun rounds => (hrun₁ (rounds + 1)).trans (hrun rounds)⟩
      rw [hsent', hsent₁, hsent, sentUpTo_succ, htwo, List.append_assoc]
      rfl
    · intro hresp
      obtain ⟨s', hsent', hrun⟩ := hbad hresp
      refine ⟨s', ?_, fun rounds => (hrun₁ (rounds + 1)).trans (hrun rounds)⟩
      rw [hsent', hsent₁, hsent, List.append_assoc]
      rfl

theorem sendLoop_timeout (hat : At cse m s) (hmsg : msgs.list[m]? = some msg) (hack : ¬ Acked cse m) :
    ∃ s', s'.sent = sentUpTo cse (m + 1) ∧
      ∀ rounds, sendLoop ipc cse msgs (rounds + attempts cse m) s = some (-ETIMEDOUT, s') := by
  simp only [Acked, not_or, Bool.not_eq_true] at hack
  obtain ⟨hfirst, hsecond⟩ := hack
  have htwo : attempts cse m = 2 := if_neg (by simp [hfirst])
  obtain ⟨s₁, rfl, hretry₁, hsent₁, hrun₁⟩ := sendLoop_retry ipc hat hmsg hfirst
  have hack' : cse.sendComplete s₁.i (s₁.sent.count s₁.i) = false := by
    rw [hsent₁, hat.sent, List.count_append, count_sentUpTo]
    simpa using hsecond
  rw [sentUpTo_succ, htwo]
  refine ⟨s₁.sentMsg msg (dec32 s₁.retry), ?_, fun rounds => (hrun₁ (rounds + 1)).trans ?_⟩
  · rw [BulkState.sentMsg, hsent₁, hat.sent, List.append_assoc]
    rfl
  · rw [sendLoop_succ hmsg, sendBody_give_up hack' hretry₁]

-- ---------------------------------------------------------------------------
-- All messages
-- ---------------------------------------------------------------------------

theorem attempts_le (cse : Cse) (m : Nat) : attempts cse m ≤ 2 := by
  unfold attempts
  split
  · decide
  · decide

theorem sendLoop_answered (msgs : BulkMsgs) (k : Nat) (hat : At cse m s) (hk : m + k ≤ msgs.list.length)
    (h : ∀ i msg, m ≤ i → i < m + k → msgs.list[i]? = some msg → Answered ipc cse i msg) :
    ∃ s' used, At cse (m + k) s' ∧ used ≤ 2 * k ∧
      ∀ rounds, sendLoop ipc cse msgs (rounds + used) s = sendLoop ipc cse msgs rounds s' := by
  induction k generalizing m s with
  | zero => exact ⟨s, 0, hat, Nat.le_refl _, fun _ => rfl⟩
  | succ k ih =>
    obtain ⟨msg, hmsg⟩ : ∃ msg, msgs.list[m]? = some msg := ⟨_, List.getElem?_eq_getElem (by omega)⟩
    obtain ⟨hack, hresp⟩ := answered_iff.mp (h m msg (Nat.le_refl m) (by omega) hmsg)
    obtain ⟨s₁, hat₁, hrun₁⟩ := (sendLoop_message hat hmsg hack).1 hresp
    obtain ⟨s', used, hat', hused, hrun⟩ := ih hat₁ (by omega) fun i msg hi hik => h i msg (by omega) (by omega)
    refine ⟨s', used + attempts cse m, ?_, ?_, fun rounds => ?_⟩
    · rwa [← Nat.add_assoc, Nat.add_right_comm]
    · have := attempts_le cse m
      omega
    · rw [← Nat.add_assoc, hrun₁, hrun]

/-- The commands on the register are those of the messages sent. -/
def Sends (msgs : BulkMsgs) (s : BulkState) : Prop :=
  commands s.writes = s.sent.filterMap fun i => msgs.list[i]?.map BulkMsg.cmd

theorem Sends.writel (h : Sends msgs s) {ws : List IpcWrite} (hws : commands ws = []) :
    Sends msgs (s.writel ws) := by
  rw [Sends, BulkState.writel, commands_append, hws, List.append_nil]
  exact h

theorem Sends.index (h : Sends msgs s) (i : Nat) : Sends msgs { s with i := i } := h

theorem Sends.sentMsg (h : Sends msgs s) (hmsg : msgs.list[s.i]? = some msg) (retry : Nat) :
    Sends msgs (s.sentMsg msg retry) := by
  rw [Sends, BulkState.sentMsg, commands_append, h, List.filterMap_append]
  simp [hmsg, BulkMsg.writes, commands]

def Control.state : Control → BulkState
  | .continue s => s
  | .out _ s => s

theorem sendBody_sends (ipc : ButtressIpc) (cse : Cse) (hs : Sends msgs s) (hmsg : msgs.list[s.i]? = some msg) :
    Sends msgs (sendBody ipc cse msg s).state := by
  cases hack : cse.sendComplete s.i (s.sent.count s.i) with
  | true =>
    rw [sendBody_acked ipc msg hack]
    split
    · exact hs.sentMsg hmsg _
    · exact (hs.sentMsg hmsg _).index _
  | false =>
    by_cases hretry : s.retry = 0
    · rw [sendBody_give_up hack hretry]
      exact hs.sentMsg hmsg _
    · rw [sendBody_retry hack hretry]
      exact ((hs.sentMsg hmsg _).writel rfl).index _

theorem sendLoop_sends (hs : Sends msgs s) (h : sendLoop ipc cse msgs rounds s = some (ret, s')) :
    Sends msgs s' := by
  induction rounds generalizing s with
  | zero => simp [sendLoop] at h
  | succ rounds ih =>
    cases hmsg : msgs.list[s.i]? with
    | none =>
      rw [sendLoop, hmsg] at h
      obtain ⟨-, rfl⟩ := Prod.mk.inj (Option.some.inj h)
      exact hs
    | some msg =>
      have hbody := sendBody_sends ipc cse hs hmsg
      rw [sendLoop_succ hmsg] at h
      cases hctl : sendBody ipc cse msg s with
      | «continue» s₁ =>
        rw [hctl] at h hbody
        exact ih hbody h
      | out ret₁ s₁ =>
        rw [hctl] at h hbody
        obtain ⟨-, rfl⟩ := Prod.mk.inj (Option.some.inj h)
        exact hbody

/-- What a call does, whatever the CSE does. -/
structure SendsExactly (ipc : ButtressIpc) (cse : Cse) (msgs : BulkMsgs) (ret : Int) (s : BulkState) : Prop where
  order : ∃ m ≤ msgs.list.length, s.sent = sentUpTo cse m
  commands : Sends msgs s
  ok : ret = 0 ↔ cse.validity = true ∧ ∀ i msg, msgs.list[i]? = some msg → Answered ipc cse i msg
  all : ret = 0 → s.sent = sentUpTo cse msgs.list.length
  error : ret ≠ 0 → ret = -ETIMEDOUT ∨ ret = - EIO
  refused : cse.validity = false → s.sent = []
  stops : cse.validity = true → ∀ i msg, msgs.list[i]? = some msg → ¬ Answered ipc cse i msg →
    (∀ j msg, j < i → msgs.list[j]? = some msg → Answered ipc cse j msg) →
      s.sent = sentUpTo cse (i + 1) ∧ ret = failure ipc cse i msg
  closed : ∃ ws, s.writes = ws ++ validityClose

theorem sendLoop_exact (ipc : ButtressIpc) (msgs : BulkMsgs) (hat : At cse 0 s) :
    ∃ ret s', (∀ rounds, 2 * msgs.list.length + 1 ≤ rounds →
        sendLoop ipc cse msgs rounds s = some (ret, s')) ∧
      ((ret = 0 ∧ s'.sent = sentUpTo cse msgs.list.length ∧
          ∀ i msg, msgs.list[i]? = some msg → Answered ipc cse i msg) ∨
        ∃ i msg, msgs.list[i]? = some msg ∧ ¬ Answered ipc cse i msg ∧
          (∀ j msg, j < i → msgs.list[j]? = some msg → Answered ipc cse j msg) ∧
            s'.sent = sentUpTo cse (i + 1) ∧ ret = failure ipc cse i msg) := by
  classical
  by_cases hall : ∀ i msg, msgs.list[i]? = some msg → Answered ipc cse i msg
  · obtain ⟨s', used, hat', hused, hrun⟩ := sendLoop_answered msgs msgs.list.length hat (by omega)
      fun i msg _ _ => hall i msg
    refine ⟨0, s', fun rounds hrounds => ?_, .inl ⟨rfl, ?_, hall⟩⟩
    · obtain ⟨rest, rfl⟩ : ∃ rest, rounds = rest + 1 + used := ⟨rounds - 1 - used, by omega⟩
      have hend : msgs.list[s'.i]? = none := List.getElem?_eq_none (by rw [hat'.index]; omega)
      rw [hrun, sendLoop, hend]
    · rw [hat'.sent, Nat.zero_add]
  · -- the first message that is not answered ends the call
    push Not at hall
    obtain ⟨msg, hmsg, hbad⟩ := Nat.find_spec hall
    have hbefore : ∀ j msg, j < Nat.find hall → msgs.list[j]? = some msg → Answered ipc cse j msg := by
      intro j msg hj hmsg
      by_contra hno
      exact Nat.find_min hall hj ⟨msg, hmsg, hno⟩
    generalize Nat.find hall = i at hmsg hbad hbefore
    have hi : i < msgs.list.length := (List.getElem?_eq_some_iff.mp hmsg).1
    obtain ⟨s₁, used, hat₁, hused, hrun₁⟩ := sendLoop_answered msgs i hat (by omega)
      fun j msg _ hj => hbefore j msg (by omega)
    rw [Nat.zero_add] at hat₁
    obtain ⟨s', hsent, hrun⟩ : ∃ s', s'.sent = sentUpTo cse (i + 1) ∧
        ∀ rounds, sendLoop ipc cse msgs (rounds + attempts cse i) s₁ = some (failure ipc cse i msg, s') := by
      by_cases hack : Acked cse i
      · rw [failure, if_pos hack]
        exact (sendLoop_message hat₁ hmsg hack).2 fun hresp => hbad (answered_iff.mpr ⟨hack, hresp⟩)
      · rw [failure, if_neg hack]
        exact sendLoop_timeout hat₁ hmsg hack
    refine ⟨_, s', fun rounds hrounds => ?_, .inr ⟨i, msg, hmsg, hbad, hbefore, hsent, rfl⟩⟩
    have hle := attempts_le cse i
    obtain ⟨rest, rfl⟩ : ∃ rest, rounds = rest + attempts cse i + used :=
      ⟨rounds - attempts cse i - used, by omega⟩
    rw [hrun₁, hrun]

/-- Enough rounds end the call, and it has done exactly what it is to do. -/
theorem ipc_send_bulk_exact (ipc : ButtressIpc) (cse : Cse) (msgs : BulkMsgs) :
    ∃ ret s, (∀ rounds, 2 * msgs.list.length + 1 ≤ rounds →
        ipu6ButtressIpcSendBulk ipc cse msgs rounds = some (ret, s)) ∧
      SendsExactly ipc cse msgs ret s := by
  cases hval : cse.validity with
  | false =>
    have hopen : validityOpen cse =
        (-ETIMEDOUT, [.csrOut BUTTRESS_IU2CSECSR_IPC_PEER_ASSERTED_REG_VALID_REQ] ++ validityClose) := by
      simp [validityOpen, hval]
    refine ⟨-ETIMEDOUT, (BulkState.start (validityOpen cse).2).writel validityClose, fun rounds _ => ?_, ?_⟩
    · rw [ipu6ButtressIpcSendBulk, hopen]
      rfl
    · exact {
        order := ⟨0, Nat.zero_le _, rfl⟩
        commands := by rw [hopen]; rfl
        ok := iff_of_false (by decide) fun h => absurd (hval.symm.trans h.1) (by decide)
        all := fun h => absurd h (by decide)
        error := fun _ => .inl rfl
        refused := fun _ => rfl
        stops := fun h => absurd (hval.symm.trans h) (by decide)
        closed := ⟨_, rfl⟩ }
  | true =>
    have hopen : validityOpen cse = (0, [.csrOut BUTTRESS_IU2CSECSR_IPC_PEER_ASSERTED_REG_VALID_REQ]) := by
      simp [validityOpen, hval]
    have hat : At cse 0 (.start (validityOpen cse).2) := ⟨rfl, rfl, rfl⟩
    obtain ⟨ret, s, hrun, hend⟩ := sendLoop_exact ipc msgs hat
    have hstart : Sends msgs (.start (validityOpen cse).2) := by rw [hopen]; rfl
    have hsends := sendLoop_sends hstart (hrun _ (Nat.le_refl _))
    refine ⟨ret, s.writel validityClose, fun rounds hrounds => ?_, ?_⟩
    · have hround := hrun rounds hrounds
      rw [hopen] at hround
      rw [ipu6ButtressIpcSendBulk, hopen]
      simp [hround]
    · rcases hend with ⟨rfl, hsent, hall⟩ | ⟨i, msg, hmsg, hbad, hbefore, hsent, rfl⟩
      · exact {
          order := ⟨_, Nat.le_refl _, hsent⟩
          commands := hsends.writel rfl
          ok := iff_of_true rfl ⟨hval, hall⟩
          all := fun _ => hsent
          error := fun h => absurd rfl h
          refused := fun h => absurd (hval.symm.trans h) (by decide)
          stops := fun _ i msg hmsg hbad => absurd (hall i msg hmsg) hbad
          closed := ⟨_, rfl⟩ }
      · have hfail := failure_error hbad
        have hne : failure ipc cse i msg ≠ 0 := by
          rcases hfail with h | h
          · rw [h]; decide
          · rw [h]; decide
        have hi : i < msgs.list.length := (List.getElem?_eq_some_iff.mp hmsg).1
        exact {
          order := ⟨i + 1, hi, hsent⟩
          commands := hsends.writel rfl
          ok := iff_of_false hne fun h => hbad (h.2 i msg hmsg)
          all := fun h => absurd h hne
          error := fun _ => hfail
          refused := fun h => absurd (hval.symm.trans h) (by decide)
          stops := by
            intro _ j msg' hmsg' hbad' hbefore'
            obtain hlt | rfl | hlt := Nat.lt_trichotomy i j
            · exact absurd (hbefore' i msg hlt hmsg) hbad
            · obtain rfl : msg = msg' := Option.some.inj (hmsg.symm.trans hmsg')
              exact ⟨hsent, rfl⟩
            · exact absurd (hbefore j msg' hlt hmsg') hbad'
          closed := ⟨_, rfl⟩ }

end Ipu4.Buttress
