import Ipu4.Buttress.Regs

/-!
# The reset of the IPC

`ipu6_buttress_ipc_reset` and the CSE bring the IPC up in a dialogue over two control
registers. The driver answers what the CSE shows in `csr_in` with what it writes to
`csr_out`, until the CSE has left phase 2 for good or the driver has tried 2001 times.
-/

namespace Ipu4.Buttress

def BUTTRESS_IPC_RESET_RETRY : Nat := 2000

def csrInClr : Nat :=
  BUTTRESS_IU2CSECSR_IPC_PEER_DEASSERTED_REG_VALID_REQ ||| BUTTRESS_IU2CSECSR_IPC_PEER_ACKED_REG_VALID |||
    BUTTRESS_IU2CSECSR_IPC_PEER_ASSERTED_REG_VALID_REQ ||| QUERY

/-- The body of the loop; whether the reset is done. -/
def resetRound (ipc : IpcRegs) : Code Bool := do
  let val ← readl ipc.csrIn
  if val = ENTRY ||| EXIT ∨ val = ENTRY ||| EXIT ||| QUERY then
    writel (ENTRY ||| EXIT) ipc.csrIn
    writel QUERY ipc.csrOut
    return false
  else if val = ENTRY ∨ val = ENTRY ||| QUERY then
    writel (ENTRY ||| QUERY) ipc.csrIn
    writel ENTRY ipc.csrOut
    return false
  else if val = EXIT ∨ val = EXIT ||| QUERY then
    writel EXIT ipc.csrIn
    writel 0 ipc.db0In
    writel csrInClr ipc.csrIn
    writel EXIT ipc.csrOut
    let val ← readl ipc.csrIn
    return val &&& QUERY = 0
  else if val = QUERY then
    writel QUERY ipc.csrIn
    writel ENTRY ipc.csrOut
    return false
  else return false

def ipu6ButtressIpcReset (secureMode : Bool) (ipc : IpcRegs) : Code Int := do
  if !secureMode then return 0
  lock .ipc
  let val ← readl ipc.csrIn
  writel val ipc.csrIn
  writel ENTRY ipc.csrOut
  let done ← Prog.retry (resetRound ipc) BUTTRESS_IPC_RESET_RETRY
  unlock .ipc
  return if done then 0 else -ETIMEDOUT

-- ---------------------------------------------------------------------------
-- The dialogue
-- ---------------------------------------------------------------------------

/-- What the CSE shows and what it is told, the bits that the driver clears in `csr_in`, its
writes to the doorbell, and the lock. -/
inductive Talk
  | shown (val : Nat)
  | told (val : Nat)
  | cleared (val : Nat)
  | doorbell (val : Nat)
  | locked (m : Mutex)
  | unlocked (m : Mutex)
  | elsewhere
  deriving DecidableEq, Repr

/-- Every call is noted: an access to another register, and a call of another kind, as
one made elsewhere. -/
def Talk.ofEvent (ipc : IpcRegs) : Event → Option Talk
  | ⟨.readl addr, val⟩ => if addr = ipc.csrIn then some (.shown val) else some .elsewhere
  | ⟨.writel val addr, _⟩ =>
    if addr = ipc.csrOut then some (.told val)
    else if addr = ipc.csrIn then some (.cleared val)
    else if addr = ipc.db0In then some (.doorbell val)
    else some .elsewhere
  | ⟨.lock m, _⟩ => some (.locked m)
  | ⟨.unlock m, _⟩ => some (.unlocked m)
  | _ => some .elsewhere

def talk (ipc : IpcRegs) (es : List Event) : List Talk := es.filterMap (Talk.ofEvent ipc)

/-- The CSE has completed phase 2, and nothing else is to be done. -/
def Leaves (val : Nat) : Prop := val = EXIT ∨ val = EXIT ||| QUERY

instance (val : Nat) : Decidable (Leaves val) := inferInstanceAs (Decidable (_ ∨ _))

/-- The answer to a value of `csr_in`: the bits that are cleared first, and what the CSE is
told. When it leaves, the doorbell and the other requests are cleared too. -/
def reply (val : Nat) : List Talk :=
  if val = ENTRY ||| EXIT ∨ val = ENTRY ||| EXIT ||| QUERY then [.cleared (ENTRY ||| EXIT), .told QUERY]
  else if val = ENTRY ∨ val = ENTRY ||| QUERY then [.cleared (ENTRY ||| QUERY), .told ENTRY]
  else if Leaves val then [.cleared EXIT, .doorbell 0, .cleared csrInClr, .told EXIT]
  else if val = QUERY then [.cleared QUERY, .told ENTRY]
  else []

/-- A round: `csr_in`, and `csr_in` again after the answer to a CSE that leaves. -/
structure Round where
  seen : Nat
  again : Option Nat
  looks : again.isSome = decide (Leaves seen)

def Round.talk (r : Round) : List Talk :=
  .shown r.seen :: reply r.seen ++ r.again.toList.map .shown

/-- The CSE has left and does not ask again. -/
def Round.Last (r : Round) : Prop := ∃ val, r.again = some val ∧ val &&& QUERY = 0

instance (r : Round) : Decidable r.Last :=
  decidable_of_iff (r.again.any fun val => val &&& QUERY = 0) (by simp [Round.Last, Option.any_eq_true])

abbrev recorder : Trace.Monitor (List Talk) Event := Prog.recorder (Talk.ofEvent cse)

theorem ofEvent_readl (val : Nat) : Talk.ofEvent cse ⟨.readl cse.csrIn, val⟩ = some (.shown val) := rfl

theorem ofEvent_told (val : Nat) : Talk.ofEvent cse ⟨.writel val cse.csrOut, ()⟩ = some (.told val) := rfl

theorem ofEvent_clear (val : Nat) : Talk.ofEvent cse ⟨.writel val cse.csrIn, ()⟩ = some (.cleared val) := rfl

theorem ofEvent_doorbell (val : Nat) : Talk.ofEvent cse ⟨.writel val cse.db0In, ()⟩ = some (.doorbell val) := rfl

theorem Round.exists_of_stays (t : List Talk) (h : ¬ Leaves val) (hreply : reply val = told) :
    ∃ r : Round, t ++ .shown val :: told = t ++ r.talk ∧ (false = true ↔ r.Last) := by
  refine ⟨⟨val, none, by simp [h]⟩, ?_, by simp [Round.Last]⟩
  simp [Round.talk, hreply]

theorem Round.exists_of_leaves (t : List Talk) (h : Leaves val) (again : Nat) :
    ∃ r : Round, t ++ [.shown val, .cleared EXIT, .doorbell 0, .cleared csrInClr, .told EXIT, .shown again] =
      t ++ r.talk ∧ (decide (again &&& QUERY = 0) = true ↔ r.Last) := by
  refine ⟨⟨val, some again, by simp [h]⟩, ?_, by simp [Round.Last]⟩
  have hreply : reply val = [.cleared EXIT, .doorbell 0, .cleared csrInClr, .told EXIT] := by
    rcases h with rfl | rfl <;> rfl
  simp [Round.talk, hreply]

theorem resetRound_meets (t : List Talk) : Prog.Meets recorder (resetRound cse) t fun done t' =>
    ∃ r : Round, t' = t ++ r.talk ∧ (done = true ↔ r.Last) := by
  simp only [resetRound, Prog.meets_bind, Prog.meets_ite, meets_readl, meets_writel, Prog.meets_pure,
    Prog.recorder_allows, Prog.recorder_next, ofEvent_readl, ofEvent_told, ofEvent_clear,
    ofEvent_doorbell, true_and, Option.toList_some, List.append_assoc, List.singleton_append]
  intro val
  refine ⟨fun hboth => ?_, fun hboth => ⟨fun hentry => ?_, fun hentry => ⟨fun hexit again => ?_,
    fun hexit => ⟨fun hquery => ?_, fun hquery => ?_⟩⟩⟩⟩
  · have hstays : ¬ Leaves val := by rcases hboth with rfl | rfl <;> decide
    refine Round.exists_of_stays t hstays ?_
    rcases hboth with rfl | rfl <;> rfl
  · have hstays : ¬ Leaves val := by rcases hentry with rfl | rfl <;> decide
    refine Round.exists_of_stays t hstays ?_
    rcases hentry with rfl | rfl <;> rfl
  · exact Round.exists_of_leaves t hexit again
  · have hstays : ¬ Leaves val := by subst hquery; decide
    refine Round.exists_of_stays t hstays ?_
    subst hquery
    rfl
  · refine Round.exists_of_stays t hexit ?_
    unfold reply
    rw [if_neg hboth, if_neg hentry, if_neg (show ¬ Leaves val from hexit), if_neg hquery]

/-- The rounds of a whole reset: none is the last one but at the end. -/
structure Dialogue (ret : Int) (rounds : List Round) : Prop where
  bound : rounds.length ≤ BUTTRESS_IPC_RESET_RETRY + 1
  goes_on : ∀ r ∈ rounds.dropLast, ¬ r.Last
  done : ret = 0 → ∃ r, rounds.getLast? = some r ∧ r.Last
  timeout : ret ≠ 0 → ret = -ETIMEDOUT ∧ rounds.length = BUTTRESS_IPC_RESET_RETRY + 1 ∧ ∀ r ∈ rounds, ¬ r.Last

/-- So many rounds, none of them the last. -/
def Unfinished (head : List Talk) (k : Nat) (t : List Talk) : Prop :=
  ∃ rounds : List Round, t = head ++ rounds.flatMap Round.talk ∧ rounds.length = k ∧ ∀ r ∈ rounds, ¬ r.Last

theorem Unfinished.next {r : Round} (h : Unfinished head k t) (hr : ¬ r.Last) :
    Unfinished head (k + 1) (t ++ r.talk) := by
  obtain ⟨rounds, rfl, hlen, hall⟩ := h
  refine ⟨rounds ++ [r], by simp, by simp [hlen], ?_⟩
  intro x hx
  rcases List.mem_append.mp hx with hx | hx
  · exact hall x hx
  · rwa [List.mem_singleton.mp hx]

theorem Unfinished.dialogue {r : Round} (h : Unfinished head k t) (hk : k ≤ BUTTRESS_IPC_RESET_RETRY)
    (hr : r.Last) : ∃ rounds : List Round,
      t ++ r.talk = head ++ rounds.flatMap Round.talk ∧ Dialogue 0 rounds := by
  obtain ⟨rounds, rfl, hlen, hall⟩ := h
  refine ⟨rounds ++ [r], by simp, by simp; omega, ?_, fun _ => ⟨r, by simp, hr⟩, fun hno => absurd rfl hno⟩
  rwa [List.dropLast_concat]

theorem Unfinished.timeout (h : Unfinished head (BUTTRESS_IPC_RESET_RETRY + 1) t) :
    ∃ rounds : List Round, t = head ++ rounds.flatMap Round.talk ∧ Dialogue (-ETIMEDOUT) rounds := by
  obtain ⟨rounds, htalk, hlen, hall⟩ := h
  refine ⟨rounds, htalk, Nat.le_of_eq hlen, fun r hr => hall r (List.dropLast_subset _ hr), ?_,
    fun _ => ⟨rfl, hlen, hall⟩⟩
  intro hzero
  exact absurd hzero (by decide)

theorem resetLoop_meets (head : List Talk) :
    Prog.Meets recorder (Prog.retry (resetRound cse) BUTTRESS_IPC_RESET_RETRY) head fun done t =>
      ∃ rounds : List Round, t = head ++ rounds.flatMap Round.talk ∧
        Dialogue (if done then 0 else -ETIMEDOUT) rounds := by
  refine Prog.meets_retry (I := Unfinished head) ?_ (fun t h => h.timeout) ⟨[], by simp, rfl, by simp⟩
  intro k hk t hunf
  refine (resetRound_meets t).imp fun done t' h => ?_
  obtain ⟨r, rfl, hlast⟩ := h
  cases done with
  | true => exact hunf.dialogue hk (hlast.mp rfl)
  | false => exact hunf.next fun hl => by simpa using hlast.mpr hl

/-- With every CSE the reset is a dialogue of rounds, under the lock, after the driver has
cleared what it read from `csr_in` and shown phase 1. It ends with the first round in which
the CSE has left phase 2 and asks for nothing more, and fails if there is none among 2001. -/
theorem ipcReset_dialogue {σ : Type} (M : Machine Call.Ans σ) (s : σ) : ∃ first rounds,
    talk cse ((ipu6ButtressIpcReset true cse).log M s) =
      [.locked .ipc, .shown first, .cleared first, .told ENTRY] ++ rounds.flatMap Round.talk ++
        [.unlocked .ipc] ∧
    Dialogue ((ipu6ButtressIpcReset true cse).run M s).1 rounds := by
  have hmeets : Prog.Meets recorder (ipu6ButtressIpcReset true cse) [] fun ret t => ∃ first rounds,
      t = [.locked .ipc, .shown first, .cleared first, .told ENTRY] ++ rounds.flatMap Round.talk ++
        [.unlocked .ipc] ∧ Dialogue ret rounds := by
    simp only [ipu6ButtressIpcReset, Bool.not_true, Bool.false_eq_true, if_false, Prog.meets_bind,
      meets_lock, meets_readl, meets_writel, Prog.recorder_allows, true_and]
    intro first
    refine (resetLoop_meets [.locked .ipc, .shown first, .cleared first, .told ENTRY]).imp fun done t h => ?_
    obtain ⟨rounds, rfl, hd⟩ := h
    rw [meets_unlock]
    exact ⟨trivial, first, rounds, rfl, hd⟩
  exact hmeets.recorded M s

end Ipu4.Buttress
