import Ipu4.Mmu.Map

/-!
# The tables that mapping adds

A map call gives tables to the slots of its pages one after the other, and
stops at the first it cannot get one for. The tables it has added stay, also
when it fails.
-/

namespace Ipu4.Mmu

instance (m : MmuInfo) (env : Nat → PageEnv) (i : Nat) : Decidable (CanTable m env i) :=
  inferInstanceAs (Decidable (_ ∨ _))

/-- Slot `k` has a table once the `s` pages from page `a` on have been tried. -/
def Tabled (m : MmuInfo) (env : Nat → PageEnv) (a s k : Nat) : Prop :=
  (m.l2Pts k).isSome ∨ ∃ t < s, (a + t) / 1024 = k ∧ ∀ j < t + 1, CanTable m env ((a + j) / 1024)

instance (m : MmuInfo) (env : Nat → PageEnv) (a s k : Nat) : Decidable (Tabled m env a s k) :=
  inferInstanceAs (Decidable (_ ∨ _))

@[simp] theorem tabled_zero : Tabled m env a 0 k ↔ (m.l2Pts k).isSome := by simp [Tabled]

theorem tabled_table (hc : 0 < c) (hin : a % 1024 + c ≤ 1024) (hcan : CanTable m env (a / 1024)) :
    Tabled m env a c k ↔ (m.l2Pts k).isSome ∨ k = a / 1024 := by
  refine or_congr_right ⟨?_, ?_⟩
  · rintro ⟨t, ht, rfl, -⟩
    omega
  · rintro rfl
    refine ⟨0, hc, rfl, fun j hj => ?_⟩
    obtain rfl : j = 0 := by omega
    exact hcan

theorem tabled_append (hm : ∀ k, (m₁.l2Pts k).isSome ↔ Tabled m env a c k)
    (hcan : ∀ i, CanTable m₁ env i ↔ CanTable m env i)
    (hall : ∀ j < c, CanTable m env ((a + j) / 1024)) :
    Tabled m₁ env (a + c) s k ↔ Tabled m env a (c + s) k := by
  constructor
  · rintro (h | ⟨t, ht, hk, hcans⟩)
    · rcases (hm k).mp h with h | ⟨t, ht, hk, hcans⟩
      · exact .inl h
      · exact .inr ⟨t, by omega, hk, hcans⟩
    · refine .inr ⟨c + t, by omega, by rwa [← Nat.add_assoc], fun j hj => ?_⟩
      rcases Nat.lt_or_ge j c with hlt | hge
      · exact hall j hlt
      · have hnext := (hcan _).mp (hcans (j - c) (by omega))
        rwa [Nat.add_assoc, Nat.add_sub_cancel' hge] at hnext
  · rintro (h | ⟨t, ht, hk, hcans⟩)
    · exact .inl ((hm k).mpr (.inl h))
    · rcases Nat.lt_or_ge t c with hlt | hge
      · exact .inl ((hm k).mpr (.inr ⟨t, hlt, hk, hcans⟩))
      · refine .inr ⟨t - c, by omega, by rwa [Nat.add_assoc, Nat.add_sub_cancel' hge], fun j hj => ?_⟩
        rw [hcan, Nat.add_assoc]
        exact hcans _ (by omega)

theorem tabled_blocked (ht : t < c) (hno : ¬ CanTable m env ((a + t) / 1024)) (s : Nat) :
    Tabled m env a c k ↔ Tabled m env a (c + s) k := by
  refine or_congr_right ⟨?_, ?_⟩
  · rintro ⟨t', ht', hk, hcans⟩
    exact ⟨t', by omega, hk, hcans⟩
  · rintro ⟨t', ht', hk, hcans⟩
    refine ⟨t', ?_, hk, hcans⟩
    by_contra hge
    exact hno (hcans t (by omega))

theorem l2MapTable_isSome (hi : Inv m) (env : Nat → PageEnv) (i k : Nat) :
    ((l2MapTable m env i).1.l2Pts k).isSome ↔
      (m.l2Pts k).isSome ∨ (k = i ∧ CanTable m env i) := by
  have hcase := l2MapTable_cases hi env i
  generalize (l2MapTable m env i).1 = m', (l2MapTable m env i).2 = e at hcase
  cases hcase with
  | found hsome =>
    refine ⟨.inl, ?_⟩
    rintro (h | ⟨rfl, -⟩)
    · exact h
    · exact hsome
  | noPage hn hpage => simp [CanTable, hn, hpage]
  | noMapping page hn hpage hdma => simp [CanTable, hn, hdma]
  | added page a hn hpage ha hne =>
    by_cases hk : k = i
    · subst hk
      simp [CanTable, l2Pts_addTable, hpage, ha, mapSingle, hne]
    · simp [l2Pts_addTable_of_ne hk, hk]

theorem l2MapTables_tables (hi : Inv m) (hfr : Fresh m env) (hn : i + n = 1024)
    (hidx : s = 0 ∨ a / 1024 = i) (hs : a + s ≤ 2 ^ 20) (hf : f + s ≤ 2 ^ 32) (k : Nat) :
    ((l2MapTables env n i m (pageCursor a f g s)).1.l2Pts k).isSome ↔ Tabled m env a s k := by
  induction n generalizing i m a f g s with
  | zero =>
    obtain rfl : s = 0 := by omega
    simp [l2MapTables]
  | succ n ih =>
    cases s with
    | zero => simp [l2MapTables, pageCursor]
    | succ s =>
      obtain rfl : a / 1024 = i := by omega
      have hsize : (pageCursor a f g (s + 1)).size > 0 := by simp only [pageCursor]; omega
      have hiova : l2Index (pageCursor a f g (s + 1)).iova = a % 1024 := l2Index_page (by omega)
      have htables := l2MapTable_isSome hi env (a / 1024)
      obtain ⟨m₁, e, htable, hext, -, hsome, hcan⟩ := l2MapTable_spec hi hfr (a / 1024)
      simp only [htable] at htables
      rw [l2MapTables, if_pos hsize, htable]
      cases e with
      | some e =>
        have hno : ¬ CanTable m env (a / 1024) := fun h => by simpa using hcan.mpr h
        have hblocked := tabled_blocked (k := k) (t := 0) (c := 1) (by omega) (by simpa using hno) s
        rw [Nat.add_comm s, ← hblocked]
        simp [htables, Tabled, hno]
      | none =>
        have hcan := hcan.mp rfl
        obtain ⟨m₂, hrun, -, hk⟩ := l2MapEntries_spec (g := g)
          (show a % 1024 + (1024 - a % 1024) = 1024 by omega) (hsome rfl)
          (show a = 1024 * (a / 1024) + a % 1024 by omega) hf
        have hext₂ := hext.trans (hk.extends hext.inv hext.fresh)
        simp only [hiova, l2ptPtes, hrun]
        generalize hc : min (s + 1) (1024 - a % 1024) = c
        rw [ih hext₂.inv hext₂.fresh (by omega) (by omega) (by omega) (by omega),
          show s + 1 = c + (s + 1 - c) by omega]
        rw [tabled_append (c := c) (fun k => ?_) hext₂.can fun j hj => ?_, Nat.add_sub_cancel_left]
        · rw [hk.isSome, htables, tabled_table (by omega) (by omega) hcan]
          simp [hcan]
        · rwa [show (a + j) / 1024 = a / 1024 by omega]

theorem l2Map_tables (hi : Inv m) (hfr : Fresh m env) (hs : a + s ≤ 2 ^ 20) (hf : f + s ≤ 2 ^ 32)
    (k : Nat) : ((l2Map m env (4096 * a) (4096 * f) (4096 * s)).1.l2Pts k).isSome ↔
      Tabled m env a s k := by
  have htables := l2MapTables_tables (g := 0) hi hfr
    (show a / 1024 + (1024 - a / 1024) = 1024 by omega) (.inr rfl) hs hf k
  simp only [l2Map, pageCursor_start, l1Index_page (show a ≤ 2 ^ 20 by omega), l1ptPtes]
  generalize l2MapTables env (1024 - a / 1024) (a / 1024) m (pageCursor a f 0 s) = r at htables
  obtain ⟨m₁, c, _ | err⟩ := r
  · exact htables
  · -- the way back takes no table away
    simp only
    split
    · rw [l2Unmap, (written_l2UnmapTables ..).kept.isSome]
      exact htables
    · exact htables

theorem mmuMap_tables (hi : Inv m) (hfr : Fresh m env) (hs : a + s ≤ 2 ^ 20) (hf : f + s ≤ 2 ^ 32)
    (k : Nat) : ((ipu6MmuMap m env (4096 * a) (4096 * f) (4096 * s)).1.l2Pts k).isSome ↔
      Tabled m env a s k := by
  rw [mmuMap_eq hi]
  rcases Nat.lt_or_ge a (2 ^ 20) with ha | ha
  · rw [Nat.mod_eq_of_lt ha]
    exact l2Map_tables hi hfr hs hf k
  · obtain rfl : s = 0 := by omega
    rw [l2Map_tables hi hfr (by omega) hf, tabled_zero, tabled_zero]

-- ---------------------------------------------------------------------------
-- Slots past the end
-- ---------------------------------------------------------------------------

theorem l2MapTable_past (m : MmuInfo) (env : Nat → PageEnv) (hk : k ≠ i) :
    (l2MapTable m env i).1.l2Pts k = m.l2Pts k := by
  unfold l2MapTable
  split
  · cases hvirt : l2Virt m env i with
    | none => rfl
    | some r =>
      obtain ⟨m', pt⟩ := r
      have hsame : m'.l2Pts = m.l2Pts := by
        unfold l2Virt at hvirt
        split at hvirt
        · obtain ⟨rfl, -⟩ := Prod.mk.inj (Option.some.inj hvirt)
          rfl
        · split at hvirt
          · cases hvirt
          · obtain ⟨rfl, -⟩ := Prod.mk.inj (Option.some.inj hvirt)
            rfl
      simp only
      split
      · simp [hsame]
      · simp [hsame, Function.update_of_ne hk]
  · rfl

theorem mmuMap_keeps {P : MmuInfo → Prop} {env : Nat → PageEnv}
    (htable : ∀ m i, i < 1024 → P m → P (l2MapTable m env i).1)
    (hkept : ∀ m m', Kept m m' → P m → P m') (h : P m) (iova paddr size : Nat) :
    P (ipu6MmuMap m env iova paddr size).1 := by
  have htables : ∀ n i m c, P m → i + n ≤ 1024 → P (l2MapTables env n i m c).1 := by
    intro n
    induction n with
    | zero => exact fun i m c hm _ => hm
    | succ n ih =>
      intro i m c hm hin
      have hnext := htable m i (by omega) hm
      rw [l2MapTables]
      split
      · generalize l2MapTable m env i = r at hnext
        obtain ⟨m₁, _ | err⟩ := r
        · have hw := written_l2MapEntries i (l2ptPtes - l2Index c.iova) (l2Index c.iova) m₁ c
          exact ih _ _ _ (hkept _ _ hw.kept hnext) (by omega)
        · exact hnext
      · exact hm
  unfold ipu6MmuMap
  split
  · exact h
  split
  · exact h
  unfold l2Map
  have hslot : l1Index (iova / 4096 * 4096 % 2 ^ 32) < 1024 := by
    unfold l1Index
    omega
  generalize iova / 4096 * 4096 % 2 ^ 32 = start at hslot ⊢
  have hrun := htables (l1ptPtes - l1Index start) (l1Index start) m ⟨start, pageAlign paddr, 0, size⟩ h
    (by unfold l1ptPtes; omega)
  simp only
  generalize l2MapTables env (l1ptPtes - l1Index start) (l1Index start) m
    ⟨start, pageAlign paddr, 0, size⟩ = r at hrun
  obtain ⟨m₁, c, _ | err⟩ := r
  · exact hrun
  · simp only
    split
    · exact hkept _ _ (written_l2UnmapTables ..).kept hrun
    · exact hrun

theorem mmuMap_past (m : MmuInfo) (env : Nat → PageEnv) (iova paddr size : Nat) (hk : 1024 ≤ k)
    (h : m.l2Pts k = none) : (ipu6MmuMap m env iova paddr size).1.l2Pts k = none :=
  mmuMap_keeps (P := fun m => m.l2Pts k = none)
    (fun m i hi hm => (l2MapTable_past m env (show k ≠ i by omega)).trans hm)
    (fun _ _ hkept hm => (hkept.none_iff k).mpr hm) h iova paddr size

end Ipu4.Mmu
