import Ipu4.Lib.Trace

/-!
# Programs over a machine

A program makes calls and goes on with what they answer. What a call does is left to a
machine. A contract of a program is shown once, against every answer to every call,
and then holds of the run on every machine: `Meets` is the weakest precondition over a
monitor of the calls, and `Meets.run` takes it to the log of a run.
-/

namespace Ipu4

inductive Prog {ε : Type} (Ans : ε → Type) (α : Type) where
  | done (a : α)
  | call (e : ε) (next : Ans e → Prog Ans α)

/-- What answers the calls, and what becomes of its state. -/
structure Machine {ε : Type} (Ans : ε → Type) (σ : Type) where
  step : (e : ε) → σ → Ans e × σ

namespace Prog

variable {ε : Type} {Ans : ε → Type} {σ τ α β : Type}

def bind : Prog Ans α → (α → Prog Ans β) → Prog Ans β
  | done a, f => f a
  | call e next, f => call e fun x => (next x).bind f

instance : Monad (Prog Ans) where
  pure := done
  bind := bind

def ask (e : ε) : Prog Ans (Ans e) := call e done

/-- A step that is taken only if `c` holds. -/
def when (c : Prop) [Decidable c] (p : Prog Ans Unit) : Prog Ans Unit := if c then p else pure ()

/-- The calls of a program, each with its answer. -/
abbrev Event (Ans : ε → Type) : Type := Sigma Ans

section
variable (M : Machine Ans σ)

def run : Prog Ans α → σ → α × σ
  | done a, s => (a, s)
  | call e next, s => (next (M.step e s).1).run (M.step e s).2

def log : Prog Ans α → σ → List (Event Ans)
  | done _, _ => []
  | call e next, s => ⟨e, (M.step e s).1⟩ :: (next (M.step e s).1).log (M.step e s).2

-- ---------------------------------------------------------------------------
-- Runs
-- ---------------------------------------------------------------------------

@[simp]
theorem run_pure (a : α) (s : σ) : (pure a : Prog Ans α).run M s = (a, s) := rfl

@[simp]
theorem log_pure (a : α) (s : σ) : (pure a : Prog Ans α).log M s = [] := rfl

@[simp]
theorem run_ask (e : ε) (s : σ) : (ask e : Prog Ans _).run M s = M.step e s := rfl

@[simp]
theorem log_ask (e : ε) (s : σ) : (ask e : Prog Ans _).log M s = [⟨e, (M.step e s).1⟩] := rfl

@[simp]
theorem run_bind (p : Prog Ans α) (f : α → Prog Ans β) (s : σ) :
    (p >>= f).run M s = (f (p.run M s).1).run M (p.run M s).2 := by
  show (p.bind f).run M s = _
  induction p generalizing s with
  | done a => rfl
  | call e next ih => exact ih _ _

@[simp]
theorem log_bind (p : Prog Ans α) (f : α → Prog Ans β) (s : σ) :
    (p >>= f).log M s = p.log M s ++ (f (p.run M s).1).log M (p.run M s).2 := by
  show (p.bind f).log M s = _
  induction p generalizing s with
  | done a => rfl
  | call e next ih => exact congrArg _ (ih _ _)

end

-- ---------------------------------------------------------------------------
-- Contracts
-- ---------------------------------------------------------------------------

/-- Whatever the calls answer, the monitor allows each of them, and `Q` holds of the
result and of the state the monitor is left in. -/
def Meets (N : Trace.Monitor τ (Event Ans)) : Prog Ans α → τ → (α → τ → Prop) → Prop
  | done a, t, Q => Q a t
  | call e next, t, Q => ∀ x, N.allows t ⟨e, x⟩ ∧ Meets N (next x) (N.next t ⟨e, x⟩) Q

section
variable {N : Trace.Monitor τ (Event Ans)} {p : Prog Ans α} {t : τ} {Q Q' : α → τ → Prop}

@[simp]
theorem meets_pure (a : α) : Meets N (pure a) t Q ↔ Q a t := Iff.rfl

@[simp]
theorem meets_ask (e : ε) {Q : Ans e → τ → Prop} :
    Meets N (ask e) t Q ↔ ∀ x, N.allows t ⟨e, x⟩ ∧ Q x (N.next t ⟨e, x⟩) :=
  Iff.rfl

@[simp]
theorem meets_bind (f : α → Prog Ans β) {Q : β → τ → Prop} :
    Meets N (p >>= f) t Q ↔ Meets N p t fun a t => Meets N (f a) t Q := by
  show Meets N (p.bind f) t Q ↔ _
  induction p generalizing t with
  | done a => rfl
  | call e next ih => exact forall_congr' fun x => and_congr_right fun _ => ih x

theorem Meets.imp (h : Meets N p t Q) (hq : ∀ a t, Q a t → Q' a t) : Meets N p t Q' := by
  induction p generalizing t with
  | done a => exact hq _ _ h
  | call e next ih => exact fun x => ⟨(h x).1, ih x (h x).2⟩

theorem Meets.run (h : Meets N p t Q) (M : Machine Ans σ) (s : σ) :
    Trace.EndsIn N t (p.log M s) (Q (p.run M s).1) := by
  induction p generalizing t s with
  | done a => exact .nil h
  | call e next ih =>
    obtain ⟨hallow, hnext⟩ := h (M.step e s).1
    exact .cons hallow (ih _ hnext _)

end

theorem meets_ite {c : Prop} [Decidable c] {p q : Prog Ans α} {N : Trace.Monitor τ (Event Ans)}
    {t : τ} {Q : α → τ → Prop} :
    Meets N (if c then p else q) t Q ↔ (c → Meets N p t Q) ∧ (¬ c → Meets N q t Q) := by
  by_cases hc : c
  · simp [hc]
  · simp [hc]

theorem meets_when {c : Prop} [Decidable c] {p : Prog Ans Unit} {N : Trace.Monitor τ (Event Ans)}
    {t : τ} {Q : Unit → τ → Prop} :
    Meets N (when c p) t Q ↔ (c → Meets N p t Q) ∧ (¬ c → Q () t) :=
  meets_ite

-- ---------------------------------------------------------------------------
-- Loops
-- ---------------------------------------------------------------------------

theorem meets_forM {N : Trace.Monitor τ (Event Ans)} {f : α → Prog Ans Unit} {I : τ → Prop} (l : List α)
    (ht : I t) (hstep : ∀ a ∈ l, ∀ t, I t → Meets N (f a) t fun _ t' => I t') :
    Meets N (l.forM f) t fun _ t' => I t' := by
  induction l generalizing t with
  | nil => exact ht
  | cons a l ih =>
    show Meets N (f a >>= fun _ => l.forM f) t _
    rw [meets_bind]
    exact (hstep a List.mem_cons_self t ht).imp fun _ t' ht' =>
      ih ht' fun b hb => hstep b (List.mem_cons_of_mem a hb)

theorem meets_forM_range {N : Trace.Monitor τ (Event Ans)} {f : Nat → Prog Ans Unit} {I : Nat → τ → Prop}
    (n : Nat) (h0 : I 0 t) (hstep : ∀ i < n, ∀ t, I i t → Meets N (f i) t fun _ t' => I (i + 1) t') :
    Meets N ((List.range n).forM f) t fun _ t' => I n t' := by
  have hgen : ∀ k lo t, lo + k = n → I lo t → Meets N ((List.range' lo k).forM f) t fun _ t' => I n t' := by
    intro k
    induction k with
    | zero =>
      intro lo t hlo ht
      obtain rfl : lo = n := hlo
      exact ht
    | succ k ih =>
      intro lo t hlo ht
      rw [List.range'_succ]
      show Meets N (f lo >>= fun _ => (List.range' (lo + 1) k).forM f) t _
      rw [meets_bind]
      exact (hstep lo (by omega) t ht).imp fun _ t' ht' => ih (lo + 1) t' (by omega) ht'
  rw [List.range_eq_range']
  exact hgen n 0 t (Nat.zero_add n) h0

-- ---------------------------------------------------------------------------
-- Polling
-- ---------------------------------------------------------------------------

/-- Asks `p` until the condition holds. `polls` is the number of times the clock is still
before the deadline; after it `p` is asked once more. -/
def poll (p : Prog Ans α) (cond : α → Bool) : Nat → Prog Ans (Bool × α)
  | 0 => do
    let v ← p
    if cond v then return (true, v)
    let v ← p
    return (cond v, v)
  | polls + 1 => do
    let v ← p
    if cond v then return (true, v)
    poll p cond polls

/-- Reads that keep an invariant of the monitor keep it while polling, and polling ends
well on a value that meets the condition only. -/
theorem meets_poll {N : Trace.Monitor τ (Event Ans)} {p : Prog Ans α} {cond : α → Bool}
    {I : τ → Prop} {R : α → τ → Prop} (hread : ∀ t, I t → Meets N p t fun v t => I t ∧ R v t)
    (polls : Nat) (ht : I t) :
    Meets N (poll p cond polls) t fun r t => I t ∧ R r.2 t ∧ (r.1 = true ↔ cond r.2 = true) := by
  induction polls generalizing t with
  | zero =>
    simp only [poll, meets_bind]
    refine (hread t ht).imp fun v t hv => ?_
    rw [meets_ite]
    refine ⟨fun hc => ?_, fun hc => ?_⟩
    · exact (meets_pure _).mpr ⟨hv.1, hv.2, by simp [hc]⟩
    · rw [meets_bind]
      refine (hread t hv.1).imp fun w t hw => ?_
      exact (meets_pure _).mpr ⟨hw.1, hw.2, Iff.rfl⟩
  | succ polls ih =>
    simp only [poll, meets_bind]
    refine (hread t ht).imp fun v t hv => ?_
    rw [meets_ite]
    refine ⟨fun hc => ?_, fun _ => ih hv.1⟩
    exact (meets_pure _).mpr ⟨hv.1, hv.2, by simp [hc]⟩

theorem run_poll {M : Machine Ans σ} {p : Prog Ans α} {cond : α → Bool} {s : σ}
    (h : cond (p.run M s).1 = true) (polls : Nat) :
    (poll p cond polls).run M s = ((true, (p.run M s).1), (p.run M s).2) := by
  cases polls with
  | zero => simp [poll, h]
  | succ polls => simp [poll, h]

/-- A machine that comes to the condition within `polls` reads ends the polling well.
`P n` says that at most `n` reads come before the one that meets it. -/
theorem run_poll_within {M : Machine Ans σ} {p : Prog Ans α} {c : α → Bool} {P : Nat → σ → Prop}
    {Q : α → σ → Prop}
    (hread : ∀ n s, P n s → c (p.run M s).1 = true ∧ Q (p.run M s).1 (p.run M s).2 ∨
      c (p.run M s).1 = false ∧ ∃ m < n, P m (p.run M s).2)
    (polls : Nat) (hs : P n s) (hn : n ≤ polls) :
    ∃ v s', (poll p c polls).run M s = ((true, v), s') ∧ Q v s' := by
  induction polls generalizing n s with
  | zero =>
    rcases hread n s hs with ⟨hc, hq⟩ | ⟨-, m, hm, -⟩
    · exact ⟨_, _, run_poll hc 0, hq⟩
    · exact absurd hm (Nat.not_lt.mpr (Nat.le_trans hn (Nat.zero_le m)))
  | succ polls ih =>
    rcases hread n s hs with ⟨hc, hq⟩ | ⟨hc, m, hm, hp⟩
    · exact ⟨_, _, run_poll hc _, hq⟩
    · obtain ⟨v, s', hrun, hq⟩ := ih hp (Nat.le_of_lt_succ (Nat.lt_of_lt_of_le hm hn))
      refine ⟨v, s', ?_, hq⟩
      simp only [poll, run_bind, hc, Bool.false_eq_true, if_false, hrun]

-- ---------------------------------------------------------------------------
-- Retries
-- ---------------------------------------------------------------------------

/-- A body that says whether it is done, up to `n` times more than once. -/
def retry (body : Prog Ans Bool) : Nat → Prog Ans Bool
  | 0 => body
  | n + 1 => do
    if ← body then return true
    retry body n

/-- What every round leads to the next one, up to the one that is done, and what the
last round leads to that is not done. -/
theorem meets_retry {N : Trace.Monitor τ (Event Ans)} {body : Prog Ans Bool} {I : Nat → τ → Prop}
    {Q : Bool → τ → Prop}
    (hbody : ∀ k ≤ n, ∀ t, I k t → Meets N body t fun done t => if done then Q true t else I (k + 1) t)
    (hend : ∀ t, I (n + 1) t → Q false t) (ht : I 0 t) : Meets N (retry body n) t Q := by
  induction n generalizing I t with
  | zero =>
    refine (hbody 0 (Nat.le_refl _) t ht).imp fun done t h => ?_
    cases done with
    | true => exact h
    | false => exact hend t h
  | succ n ih =>
    simp only [retry, meets_bind, meets_ite]
    refine (hbody 0 (Nat.zero_le _) t ht).imp fun done t h => ?_
    cases done with
    | true => exact ⟨fun _ => h, fun hno => absurd rfl hno⟩
    | false =>
      refine ⟨fun hno => absurd hno Bool.false_ne_true, fun _ => ?_⟩
      exact ih (I := fun k => I (k + 1)) (fun k hk => hbody (k + 1) (by omega)) hend h

-- ---------------------------------------------------------------------------
-- Recorded calls
-- ---------------------------------------------------------------------------

/-- Allows everything, and keeps what `f` takes from the events. -/
def recorder {ω : Type} (f : Event Ans → Option ω) : Trace.Monitor (List ω) (Event Ans) where
  next t e := t ++ (f e).toList
  allows _ _ := True

section
variable {ω : Type} {f : Event Ans → Option ω}

@[simp]
theorem recorder_allows (t : List ω) (e : Event Ans) : (recorder f).allows t e ↔ True := Iff.rfl

@[simp]
theorem recorder_next (t : List ω) (e : Event Ans) : (recorder f).next t e = t ++ (f e).toList := rfl

theorem after_recorder (t : List ω) (es : List (Event Ans)) :
    Trace.after (recorder f) t es = t ++ es.filterMap f := by
  induction es generalizing t with
  | nil => simp
  | cons e es ih =>
    rw [Trace.after_cons, ih]
    cases he : f e <;> simp [recorder, he]

theorem Meets.recorded {p : Prog Ans α} {Q : α → List ω → Prop} (h : Meets (recorder f) p [] Q)
    (M : Machine Ans σ) (s : σ) : Q (p.run M s).1 ((p.log M s).filterMap f) := by
  have hq := (h.run M s).2
  rwa [after_recorder, List.nil_append] at hq

end

end Prog

end Ipu4
