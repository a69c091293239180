import Ipu4.Lib.Areas
import Ipu4.Lib.Logged
import Ipu4.Qemu.Pattern

/-!
# What the pattern writer writes

`ipu4_dma_write_iova_pattern` goes through a range of IOVA space page by page, and
walks the page table anew for each one. It fills every page before the first that
does not translate and nothing else, as long as it does not write over a table that
a later walk reads.
-/

namespace Ipu4.Qemu

-- ---------------------------------------------------------------------------
-- The loop with its writes
-- ---------------------------------------------------------------------------

/-- `patternLoop` with the areas it writes. There is no result if `n` turns are too few. -/
def patternTrace (l1Pfn base total seq : Nat) : Nat → Nat → Memory → Logged Area (Option Memory)
  | 0, off, mem => pure (if off < total then none else some mem)
  | n + 1, off, mem =>
    if off < total then
      let iova := (base + off) % 2 ^ 32
      let chunk := min (total - off) (4096 - iova % 4096)
      match ipu4IovaToPhys mem l1Pfn iova with
      | none => pure (some mem)
      | some phys =>
        let buf := (List.range chunk).map fun i => UInt8.ofNat (off + i + seq)
        match pciDmaWrite mem phys buf with
        | (mem, false) => do
          Logged.emit ⟨phys, chunk⟩
          pure (some mem)
        | (mem, true) => do
          Logged.emit ⟨phys, chunk⟩
          patternTrace l1Pfn base total seq n (off + chunk) mem
    else pure (some mem)

theorem patternLoop_of_trace (h : (patternTrace l1Pfn base total seq n off m).val = some m') :
    patternLoop l1Pfn base total seq n off m = m' := by
  induction n generalizing off m with
  | zero =>
    unfold patternTrace at h
    dsimp only [Logged.val_pure] at h
    split at h
    · cases h
    · exact Option.some.inj h
  | succ n ih =>
    by_cases hlt : off < total
    · rw [patternTrace, if_pos hlt] at h
      rw [patternLoop, if_pos hlt]
      dsimp only at h ⊢
      cases hwalk : ipu4IovaToPhys m l1Pfn ((base + off) % 2 ^ 32) with
      | none =>
        rw [hwalk] at h
        exact Option.some.inj h
      | some phys =>
        rw [hwalk] at h
        dsimp only at h ⊢
        generalize pciDmaWrite m phys _ = r at h ⊢
        obtain ⟨m₁, ok⟩ := r
        cases ok with
        | false => exact Option.some.inj h
        | true => exact ih h
    · rw [patternTrace, if_neg hlt] at h
      rw [patternLoop, if_neg hlt]
      exact Option.some.inj h

-- ---------------------------------------------------------------------------
-- Which bytes are written
-- ---------------------------------------------------------------------------

/-- Every page of the range before page `p` translates. -/
def Reached (m : Memory) (l1Pfn base p : Nat) : Prop :=
  ∀ p', base / 4096 ≤ p' → p' < p → (frame m l1Pfn p').isSome

/-- Byte `k` of the range is in a page before the first that does not translate. -/
def Written (m : Memory) (l1Pfn base total k : Nat) : Prop :=
  k < total ∧ Reached m l1Pfn base ((base + k) / 4096 + 1)

/-- Page `p` of the range is filled, and its frame is `pfn`. -/
structure Target (m : Memory) (l1Pfn base total p pfn : Nat) : Prop where
  first : base / 4096 ≤ p
  last : p * 4096 < base + total
  reached : Reached m l1Pfn base p
  walk : frame m l1Pfn p = some pfn

/-- No page of the range is a table that the walk of a later page reads. -/
def KeepsWalks (m : Memory) (l1Pfn base total : Nat) : Prop :=
  ∀ p q pfn, Target m l1Pfn base total p pfn → p < q → q * 4096 < base + total →
    Reached m l1Pfn base q → pfn ≠ l1Pfn ∧ readPte m l1Pfn (q / 1024 % 1024) ≠ some pfn

/-- The bytes of the range are in guest memory. -/
def Backed (m : Memory) (l1Pfn base total : Nat) : Prop :=
  ∀ k a, Written m l1Pfn base total k → ipu4IovaToPhys m l1Pfn (base + k) = some a → m.backed a = true

section
variable {m m₀ : Memory} {l1Pfn base total seq off : Nat}

theorem Written.target (h : Written m l1Pfn base total k) :
    ∃ pfn, Target m l1Pfn base total ((base + k) / 4096) pfn := by
  obtain ⟨hk, hreached⟩ := h
  have hfirst : base / 4096 ≤ (base + k) / 4096 := Nat.div_le_div_right (Nat.le_add_right _ _)
  obtain ⟨pfn, hpfn⟩ := Option.isSome_iff_exists.mp (hreached _ hfirst (Nat.lt_succ_self _))
  exact ⟨pfn, hfirst, by omega, fun p hp hlt => hreached p hp (by omega), hpfn⟩

/-- Memory `m` when the first `off` bytes of the range are written. -/
structure Filled (m₀ : Memory) (l1Pfn base total seq off : Nat) (m : Memory) : Prop where
  backed : m.backed = m₀.backed
  le : off ≤ total
  written : ∀ k < off, Written m₀ l1Pfn base total k
  page : off < total → (off = 0 ∨ (base + off) % 4096 = 0) ∧ Reached m₀ l1Pfn base ((base + off) / 4096)
  byte : ∀ a, (∃ k < off, ipu4IovaToPhys m₀ l1Pfn (base + k) = some a ∧ m.byte a = UInt8.ofNat (k + seq)) ∨
    ((∀ k < off, ipu4IovaToPhys m₀ l1Pfn (base + k) ≠ some a) ∧ m.byte a = m₀.byte a)

theorem Filled.same (h : Filled m₀ l1Pfn base total seq off m) (hkeep : KeepsWalks m₀ l1Pfn base total)
    (hlt : off < total)
    (ht : a / 4096 = l1Pfn ∨ readPte m₀ l1Pfn ((base + off) / 4096 / 1024 % 1024) = some (a / 4096)) :
    m.byte a = m₀.byte a := by
  rcases h.byte a with ⟨k, hk, hphys, -⟩ | ⟨-, hsame⟩
  · obtain ⟨hedge, hreached⟩ := h.page hlt
    obtain ⟨pfn, hpfn⟩ := (h.written k hk).target
    rw [ipu4IovaToPhys_eq, hpfn.walk] at hphys
    obtain rfl := Option.some.inj hphys
    -- byte `k` is in a page before the cursor
    have hpage : (base + k) / 4096 < (base + off) / 4096 := by omega
    obtain ⟨hl1, hl2⟩ := hkeep _ _ pfn hpfn hpage (by omega) hreached
    have hdiv : (pfn * 4096 + (base + k) % 4096) / 4096 = pfn := by omega
    rw [hdiv] at ht
    exact (ht.elim hl1 hl2).elim
  · exact hsame

theorem Filled.frame_eq (h : Filled m₀ l1Pfn base total seq off m) (hkeep : KeepsWalks m₀ l1Pfn base total)
    (hlt : off < total) : frame m l1Pfn ((base + off) / 4096) = frame m₀ l1Pfn ((base + off) / 4096) := by
  unfold frame
  rw [readPte_congr h.backed (fun a ha => h.same hkeep hlt (.inl ha)) (Nat.mod_lt _ (by decide))]
  split
  · rfl
  · cases hl1 : readPte m₀ l1Pfn ((base + off) / 4096 / 1024 % 1024) with
    | none => rfl
    | some t =>
      exact readPte_congr h.backed (fun a ha => h.same hkeep hlt (.inr (ha ▸ hl1))) (Nat.mod_lt _ (by decide))

theorem Filled.chunk (h : Filled m₀ l1Pfn base total seq off m) (hlt : off < total)
    (hframe : frame m₀ l1Pfn ((base + off) / 4096) = some pfn) (htotal : off + i < total)
    (hi : i < 4096 - (base + off) % 4096) :
    Written m₀ l1Pfn base total (off + i) ∧
      ipu4IovaToPhys m₀ l1Pfn (base + (off + i)) = some (pfn * 4096 + (base + off) % 4096 + i) := by
  have hpage : (base + (off + i)) / 4096 = (base + off) / 4096 := by omega
  refine ⟨⟨htotal, fun p hp hlt' => ?_⟩, ?_⟩
  · rw [hpage] at hlt'
    rcases Nat.lt_succ_iff_lt_or_eq.mp hlt' with hlt' | rfl
    · exact (h.page hlt).2 p hp hlt'
    · rw [hframe]
      rfl
  · rw [ipu4IovaToPhys_eq, hpage, hframe, Option.map_some, Option.some.injEq]
    omega

theorem Filled.step (h : Filled m₀ l1Pfn base total seq off m) (hback : Backed m₀ l1Pfn base total)
    (hlt : off < total) (hframe : frame m₀ l1Pfn ((base + off) / 4096) = some pfn) {chunk : Nat}
    (hchunk : chunk = min (total - off) (4096 - (base + off) % 4096)) :
    ∃ m₁, pciDmaWrite m (pfn * 4096 + (base + off) % 4096)
      ((List.range chunk).map fun i => UInt8.ofNat (off + i + seq)) = (m₁, true) ∧
      Filled m₀ l1Pfn base total seq (off + chunk) m₁ := by
  have hin : ∀ i < chunk, Written m₀ l1Pfn base total (off + i) ∧
      ipu4IovaToPhys m₀ l1Pfn (base + (off + i)) = some (pfn * 4096 + (base + off) % 4096 + i) :=
    fun i hi => h.chunk hlt hframe (by omega) (by omega)
  have hlen : ((List.range chunk).map fun i => UInt8.ofNat (off + i + seq)).length = chunk := by simp
  have hbacked : ∀ i < chunk, m.backed (pfn * 4096 + (base + off) % 4096 + i) = true := fun i hi => by
    rw [h.backed]
    exact hback _ _ (hin i hi).1 (hin i hi).2
  refine ⟨_, Prod.ext rfl (allBacked_iff.mpr (hlen.symm ▸ hbacked)), h.backed, by omega, ?_, ?_, ?_⟩
  · intro k hk
    rcases Nat.lt_or_ge k off with hlt' | hge
    · exact h.written k hlt'
    · obtain ⟨i, rfl⟩ := Nat.exists_eq_add_of_le hge
      exact (hin i (by omega)).1
  · intro hmore
    refine ⟨.inr (by omega), fun p hp hlt' => ?_⟩
    rcases Nat.lt_or_ge p ((base + off) / 4096) with hlt' | hge
    · exact (h.page hlt).2 p hp hlt'
    · obtain rfl : p = (base + off) / 4096 := by omega
      rw [hframe]
      rfl
  · intro a
    dsimp only [pciDmaWrite]
    rw [hlen]
    by_cases ha : pfn * 4096 + (base + off) % 4096 ≤ a ∧ a < pfn * 4096 + (base + off) % 4096 + chunk
    · obtain ⟨i, rfl⟩ := Nat.exists_eq_add_of_le ha.1
      have hi : i < chunk := by omega
      refine .inl ⟨off + i, by omega, (hin i hi).2, ?_⟩
      rw [if_pos ⟨ha.1, ha.2, hbacked i hi⟩]
      simp [hi]
    · rw [if_neg fun h => ha ⟨h.1, h.2.1⟩]
      rcases h.byte a with ⟨k, hk, hphys, hbyte⟩ | ⟨hno, hsame⟩
      · exact .inl ⟨k, by omega, hphys, hbyte⟩
      · refine .inr ⟨fun k hk hphys => ?_, hsame⟩
        rcases Nat.lt_or_ge k off with hlt' | hge
        · exact hno k hlt' hphys
        · obtain ⟨i, rfl⟩ := Nat.exists_eq_add_of_le hge
          have hi : i < chunk := by omega
          obtain rfl := Option.some.inj ((hin i hi).2.symm.trans hphys)
          exact ha ⟨Nat.le_add_right _ _, by omega⟩

theorem lt_of_written (hstop : off < total → frame m₀ l1Pfn ((base + off) / 4096) = none)
    (hk : Written m₀ l1Pfn base total k) : k < off := by
  by_contra hge
  have hlt : off < total := by
    have := hk.1
    omega
  have hsome := hk.2 ((base + off) / 4096) (Nat.div_le_div_right (Nat.le_add_right _ _))
    (Nat.lt_succ_of_le (Nat.div_le_div_right (by omega)))
  rw [hstop hlt] at hsome
  cases hsome

-- ---------------------------------------------------------------------------
-- The whole range
-- ---------------------------------------------------------------------------

/-- Turns that are enough from the cursor on. -/
def Enough (base total off n : Nat) : Prop :=
  off < total → (base + total - 1) / 4096 + 1 - (base + off) / 4096 ≤ n

/-- The memory and the writes of a run that has come to its end. -/
structure Done (m₀ : Memory) (l1Pfn base total seq off : Nat) (m : Memory) (log : List Area) : Prop where
  backed : m.backed = m₀.backed
  byte : ∀ a, (∃ k, Written m₀ l1Pfn base total k ∧ ipu4IovaToPhys m₀ l1Pfn (base + k) = some a ∧
      m.byte a = UInt8.ofNat (k + seq)) ∨
    ((∀ k, Written m₀ l1Pfn base total k → ipu4IovaToPhys m₀ l1Pfn (base + k) ≠ some a) ∧
      m.byte a = m₀.byte a)
  log : ∀ a, (∃ w ∈ log, w.start ≤ a ∧ a < w.start + w.len) ↔
    ∃ k, off ≤ k ∧ Written m₀ l1Pfn base total k ∧ ipu4IovaToPhys m₀ l1Pfn (base + k) = some a

theorem Filled.finished (h : Filled m₀ l1Pfn base total seq off m)
    (hstop : off < total → frame m₀ l1Pfn ((base + off) / 4096) = none) :
    Done m₀ l1Pfn base total seq off m [] := by
  refine ⟨h.backed, fun a => ?_, fun a => ⟨nofun, ?_⟩⟩
  · rcases h.byte a with ⟨k, hk, hphys, hbyte⟩ | ⟨hno, hsame⟩
    · exact .inl ⟨k, h.written k hk, hphys, hbyte⟩
    · exact .inr ⟨fun k hk => hno k (lt_of_written hstop hk), hsame⟩
  · rintro ⟨k, hge, hk, -⟩
    have hlt := lt_of_written hstop hk
    omega

theorem trace_done (hkeep : KeepsWalks m₀ l1Pfn base total) (hback : Backed m₀ l1Pfn base total)
    (h : Filled m₀ l1Pfn base total seq off m) (hn : Enough base total off n) :
    ∃ m', (patternTrace l1Pfn base total seq n off m).val = some m' ∧
      Done m₀ l1Pfn base total seq off m' (patternTrace l1Pfn base total seq n off m).log := by
  induction n generalizing off m with
  | zero =>
    have hge : ¬ off < total := fun hlt => by
      have := hn hlt
      omega
    refine ⟨m, by simp [patternTrace, hge], ?_⟩
    exact h.finished fun hlt => absurd hlt hge
  | succ n ih =>
    by_cases hlt : off < total
    · have hmod : (base + off) % 2 ^ 32 % 4096 = (base + off) % 4096 := by omega
      rw [patternTrace, if_pos hlt]
      dsimp only
      rw [walk_mod, ipu4IovaToPhys_eq, h.frame_eq hkeep hlt, hmod]
      cases hframe : frame m₀ l1Pfn ((base + off) / 4096) with
      | none => exact ⟨m, rfl, h.finished fun _ => hframe⟩
      | some pfn =>
        obtain ⟨m₁, hwrite, hnext⟩ := h.step hback hlt hframe rfl
        obtain ⟨m', hval, hdone⟩ := ih hnext fun hmore => by
          have := hn hlt
          omega
        dsimp only [Option.map_some]
        rw [hwrite]
        refine ⟨m', hval, hdone.backed, hdone.byte, fun a => ?_⟩
        rw [Logged.log_bind, Logged.log_emit, List.singleton_append, List.exists_mem_cons_iff, hdone.log a]
        constructor
        · rintro (⟨hlo, hhi⟩ | ⟨k, hk, hrest⟩)
          · obtain ⟨i, rfl⟩ := Nat.exists_eq_add_of_le hlo
            dsimp only at hhi
            exact ⟨off + i, Nat.le_add_right _ _, h.chunk hlt hframe (by omega) (by omega)⟩
          · exact ⟨k, by omega, hrest⟩
        · rintro ⟨k, hk, hwritten, hphys⟩
          by_cases hin : k < off + min (total - off) (4096 - (base + off) % 4096)
          · obtain ⟨i, rfl⟩ := Nat.exists_eq_add_of_le hk
            have haddr := (h.chunk hlt hframe (i := i) (by omega) (by omega)).2
            obtain rfl := Option.some.inj (haddr.symm.trans hphys)
            exact .inl ⟨Nat.le_add_right _ _, by dsimp only; omega⟩
          · exact .inr ⟨k, by omega, hwritten, hphys⟩
    · rw [patternTrace, if_neg hlt]
      exact ⟨m, rfl, h.finished fun hlt' => absurd hlt' hlt⟩

theorem pattern_done (hkeep : KeepsWalks m l1Pfn base total) (hback : Backed m l1Pfn base total)
    (hn : total / 4096 + 2 ≤ n) (seq : Nat) :
    ∃ m', (patternTrace l1Pfn base total seq n 0 m).val = some m' ∧
      Done m l1Pfn base total seq 0 m' (patternTrace l1Pfn base total seq n 0 m).log := by
  have hstart : Filled m l1Pfn base total seq 0 m :=
    ⟨rfl, Nat.zero_le _, nofun, fun _ => ⟨.inl rfl, fun p hp hlt => absurd hp (by omega)⟩,
      fun a => .inr ⟨nofun, rfl⟩⟩
  have henough : Enough base total 0 n := fun hlt => by omega
  exact trace_done hkeep hback hstart henough

/-- The bytes of the range for which `S` holds are written, and nothing else. -/
structure Writes (m : Memory) (l1Pfn base seq : Nat) (S : Nat → Prop) (m' : Memory) (log : List Area) :
    Prop where
  byte : ∀ k a, S k → ipu4IovaToPhys m l1Pfn (base + k) = some a → m'.byte a = UInt8.ofNat (k + seq)
  rest : ∀ a, (∀ k, S k → ipu4IovaToPhys m l1Pfn (base + k) ≠ some a) → m'.byte a = m.byte a
  log : ∀ a, (∃ w ∈ log, w.start ≤ a ∧ a < w.start + w.len) ↔
    ∃ k, S k ∧ ipu4IovaToPhys m l1Pfn (base + k) = some a

/-- The pages that are filled have frames of their own. -/
def DistinctFrames (m : Memory) (l1Pfn base total : Nat) : Prop :=
  ∀ p q pfn, Target m l1Pfn base total p pfn → Target m l1Pfn base total q pfn → p = q

theorem DistinctFrames.eq (h : DistinctFrames m l1Pfn base total) (hk : Written m l1Pfn base total k)
    (hk' : Written m l1Pfn base total k') (hphys : ipu4IovaToPhys m l1Pfn (base + k) = some a)
    (hphys' : ipu4IovaToPhys m l1Pfn (base + k') = some a) : k = k' := by
  obtain ⟨pfn, hpfn⟩ := hk.target
  obtain ⟨pfn', hpfn'⟩ := hk'.target
  rw [ipu4IovaToPhys_eq, hpfn.walk] at hphys
  rw [ipu4IovaToPhys_eq, hpfn'.walk] at hphys'
  obtain rfl := Option.some.inj hphys
  have haddr : pfn' * 4096 + (base + k') % 4096 = pfn * 4096 + (base + k) % 4096 := Option.some.inj hphys'
  obtain rfl : pfn' = pfn := by omega
  have hpage := h _ _ _ hpfn hpfn'
  omega

theorem Done.writes {log : List Area} (h : Done m l1Pfn base total seq 0 m' log)
    (hdistinct : DistinctFrames m l1Pfn base total) :
    Writes m l1Pfn base seq (Written m l1Pfn base total) m' log := by
  refine ⟨fun k a hk hphys => ?_, fun a hno => ?_, fun a => ?_⟩
  · rcases h.byte a with ⟨k', hk', hphys', hbyte⟩ | ⟨hno, -⟩
    · rwa [hdistinct.eq hk hk' hphys hphys']
    · exact absurd hphys (hno k hk)
  · rcases h.byte a with ⟨k, hk, hphys, -⟩ | ⟨-, hsame⟩
    · exact absurd hphys (hno k hk)
    · exact hsame
  · rw [h.log a]
    exact exists_congr fun k => and_iff_right (Nat.zero_le k)

theorem written_whole (h : ∀ p, base / 4096 ≤ p → p * 4096 < base + total → (frame m l1Pfn p).isSome) :
    Written m l1Pfn base total = (· < total) := by
  refine funext fun k => propext ⟨fun hk => hk.1, fun hk => ⟨hk, fun p hp hlt => h p hp ?_⟩⟩
  omega

theorem written_before (hlo : base / 4096 ≤ j) (hhi : j * 4096 < base + total) (hbefore : Reached m l1Pfn base j)
    (hnone : frame m l1Pfn j = none) : Written m l1Pfn base total = fun k => base + k < j * 4096 := by
  refine funext fun k => propext ⟨fun hk => ?_, fun hk => ⟨?_, fun p hp hlt => hbefore p hp ?_⟩⟩
  · by_contra hge
    have hsome := hk.2 j hlo (by omega)
    rw [hnone] at hsome
    cases hsome
  · omega
  · omega

/-- The writer comes to its end. If every page of the range translates, it writes each byte
of the range and nothing else, and if page `j` is the first that does not, the bytes of the
pages before it. -/
theorem pattern_exact (hdistinct : DistinctFrames m l1Pfn base total) (hback : Backed m l1Pfn base total)
    (hkeep : KeepsWalks m l1Pfn base total) (hn : total / 4096 + 2 ≤ n) :
    ∃ m', (patternTrace l1Pfn base total seq n 0 m).val = some m' ∧
      ((∀ p, base / 4096 ≤ p → p * 4096 < base + total → (frame m l1Pfn p).isSome) →
        Writes m l1Pfn base seq (· < total) m' (patternTrace l1Pfn base total seq n 0 m).log) ∧
      ∀ j, base / 4096 ≤ j → j * 4096 < base + total → Reached m l1Pfn base j → frame m l1Pfn j = none →
        Writes m l1Pfn base seq (fun k => base + k < j * 4096) m'
          (patternTrace l1Pfn base total seq n 0 m).log := by
  obtain ⟨m', hval, hdone⟩ := pattern_done hkeep hback hn seq
  have hwrites := hdone.writes hdistinct
  refine ⟨m', hval, fun hall => ?_, fun j hlo hhi hbefore hnone => ?_⟩
  · rwa [written_whole hall] at hwrites
  · rwa [written_before hlo hhi hbefore hnone] at hwrites

end

-- ---------------------------------------------------------------------------
-- Two pages
-- ---------------------------------------------------------------------------

/-- A memory whose tables, in the frames 1 and 2, map the pages 1022 and 1023. -/
def twoPageMemory (first second : UInt8) (backed : Nat → Bool) : Memory where
  byte a :=
    if a = 4096 then 2 else if a = 2 * 4096 + 4088 then first
    else if a = 2 * 4096 + 4092 then second else 0
  backed := backed

/-- The last four bytes of page 1022 and the first one of page 1023. -/
def twoPageBase : Nat := 1022 * 4096 + 4092

theorem target_twoPage {m : Memory} (h : Target m 1 twoPageBase 5 p pfn) :
    (p = 1022 ∨ p = 1023) ∧ frame m 1 p = some pfn := by
  obtain ⟨hfirst, hlast, -, hwalk⟩ := h
  refine ⟨?_, hwalk⟩
  unfold twoPageBase at hfirst hlast
  omega

theorem distinct_twoPage {m : Memory} (h : frame m 1 1022 ≠ frame m 1 1023) :
    DistinctFrames m 1 twoPageBase 5 := by
  intro p q pfn hp hq
  obtain ⟨hp, hpfn⟩ := target_twoPage hp
  obtain ⟨hq, hqfn⟩ := target_twoPage hq
  rcases hp with rfl | rfl
  · rcases hq with rfl | rfl
    · rfl
    · exact absurd (hpfn.trans hqfn.symm) h
  · rcases hq with rfl | rfl
    · exact absurd (hqfn.trans hpfn.symm) h
    · rfl

theorem pattern_exact_two_pages :
    ∃ m', (patternTrace 1 twoPageBase 5 0 3 0 (twoPageMemory 4 3 fun _ => true)).val = some m' ∧
      m'.byte (4 * 4096 + 4095) = 3 ∧ m'.byte (3 * 4096) = 4 := by
  have h4 : frame (twoPageMemory 4 3 fun _ => true) 1 1022 = some 4 := by decide +kernel
  have h3 : frame (twoPageMemory 4 3 fun _ => true) 1 1023 = some 3 := by decide +kernel
  have hl2 : readPte (twoPageMemory 4 3 fun _ => true) 1 0 = some 2 := by decide +kernel
  have hkeep : KeepsWalks (twoPageMemory 4 3 fun _ => true) 1 twoPageBase 5 := by
    intro p q pfn hp hlt hq _
    obtain ⟨rfl | rfl, hpfn⟩ := target_twoPage hp
    · obtain rfl := Option.some.inj (h4.symm.trans hpfn)
      unfold twoPageBase at hq
      obtain rfl : q = 1023 := by omega
      refine ⟨by decide, ?_⟩
      rw [hl2]
      decide
    · unfold twoPageBase at hq
      omega
  have hdistinct : DistinctFrames (twoPageMemory 4 3 fun _ => true) 1 twoPageBase 5 :=
    distinct_twoPage (by rw [h4, h3]; decide)
  obtain ⟨m', hval, hall, -⟩ := pattern_exact (n := 3) hdistinct (fun _ _ _ _ => rfl) hkeep (by decide)
  have hwrites := hall fun p hlo hhi => by
    unfold twoPageBase at hlo hhi
    obtain rfl | rfl : p = 1022 ∨ p = 1023 := by omega
    · rw [h4]
      rfl
    · rw [h3]
      rfl
  refine ⟨m', hval, hwrites.byte 3 _ (by decide) ?_, hwrites.byte 4 _ (by decide) ?_⟩
  all_goals decide +kernel

/-- Both pages translate, to frames of their own, and the writer does not do what it is for. -/
def Misses (m : Memory) : Prop :=
  DistinctFrames m 1 twoPageBase 5 ∧
    (∀ p, twoPageBase / 4096 ≤ p → p * 4096 < twoPageBase + 5 → (frame m 1 p).isSome) ∧
    ∃ m', (patternTrace 1 twoPageBase 5 0 3 0 m).val = some m' ∧
      ¬ Writes m 1 twoPageBase 0 (· < 5) m' (patternTrace 1 twoPageBase 5 0 3 0 m).log

theorem misses_of_byte {m : Memory} (h : frame m 1 1022 = some pfn) (h' : frame m 1 1023 = some 3)
    (hne : pfn ≠ 3)
    (hbyte : (patternTrace 1 twoPageBase 5 0 3 0 m).val.map (fun m' => m'.byte (3 * 4096)) = some 0) :
    Misses m := by
  obtain ⟨m', hval, hzero⟩ := Option.map_eq_some_iff.mp hbyte
  refine ⟨distinct_twoPage (by rw [h, h']; simpa using hne), fun p hlo hhi => ?_, m', hval, fun hwrites => ?_⟩
  · unfold twoPageBase at hlo hhi
    obtain rfl | rfl : p = 1022 ∨ p = 1023 := by omega
    · rw [h]
      rfl
    · rw [h']
      rfl
  · have hwalk : ipu4IovaToPhys m 1 (twoPageBase + 4) = some (3 * 4096) := by
      rw [ipu4IovaToPhys_eq, show (twoPageBase + 4) / 4096 = 1023 from rfl, h']
      rfl
    have hfour := hwrites.byte 4 _ (by decide) hwalk
    rw [hzero] at hfour
    exact absurd hfour (by decide)

/-- Once the first page is the table that maps the second one, and once there is no memory
behind the second page. -/
theorem pattern_misses :
    Misses (twoPageMemory 2 3 fun _ => true) ∧ Misses (twoPageMemory 4 3 fun a => a / 4096 ≠ 3) := by
  have hself : frame (twoPageMemory 2 3 fun _ => true) 1 1022 = some 2 := by decide +kernel
  have hself' : frame (twoPageMemory 2 3 fun _ => true) 1 1023 = some 3 := by decide +kernel
  have hhole : frame (twoPageMemory 4 3 fun a => a / 4096 ≠ 3) 1 1022 = some 4 := by decide +kernel
  have hhole' : frame (twoPageMemory 4 3 fun a => a / 4096 ≠ 3) 1 1023 = some 3 := by decide +kernel
  exact ⟨misses_of_byte hself hself' (by decide) (by decide +kernel),
    misses_of_byte hhole hhole' (by decide) (by decide +kernel)⟩

end Ipu4.Qemu
