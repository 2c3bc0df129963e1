import CausalEngine.Memory.Observe

/-! The similarity of incidents, and what filing one incident does to the case library. -/

namespace CausalEngine.Memory

open Foundations Correlation

section Similarity

variable (a b c : CaseKey)

structure CaseKey.SameShape : Prop where
  victims : a.victims.toFinset = b.victims.toFinset
  stressors : a.stressors.toFinset = b.stressors.toFinset
  motif : a.motif.toFinset = b.motif.toFinset
  signal : a.signal = b.signal
  witnessKind : a.witnessKind = b.witnessKind

variable {a b} in
lemma caseSim_congr (h : a.SameShape b) : caseSim a c = caseSim b c := by
  simp only [caseSim, h.victims, h.stressors, h.motif, h.signal, h.witnessKind]

lemma caseSim_comm : caseSim a b = caseSim b a := by
  simp only [caseSim, jaccard_comm a.victims.toFinset, jaccard_comm a.stressors.toFinset,
    jaccard_comm a.motif.toFinset, ne_comm (a := a.signal), ne_comm (a := a.witnessKind)]

lemma caseSim_self : caseSim a a = 1 := by
  simp only [caseSim, jaccard_self, ne_eq, not_true_eq_false, or_self, if_false]
  norm_num

variable {a b c}

lemma comparable_of_caseSim (h : 0 < caseSim a b) : a.signal = b.signal ∧ a.witnessKind = b.witnessKind := by
  unfold caseSim at h
  split_ifs at h with hg
  · exact (lt_irrefl _ h).elim
  · simpa only [ne_eq, not_or, not_not] using hg

lemma caseSim_triangle (hab : 0 < caseSim a b) (hbc : 0 < caseSim b c) :
    caseSim a b + caseSim b c ≤ 1 + caseSim a c := by
  obtain ⟨hs, hw⟩ := comparable_of_caseSim hab
  obtain ⟨hs', hw'⟩ := comparable_of_caseSim hbc
  have hv := jaccard_triangle a.victims.toFinset b.victims.toFinset c.victims.toFinset
  have ht := jaccard_triangle a.stressors.toFinset b.stressors.toFinset c.stressors.toFinset
  have hm := jaccard_triangle a.motif.toFinset b.motif.toFinset c.motif.toFinset
  simp only [caseSim, hs, hs', hw, hw', ne_eq, not_true_eq_false, or_self, if_false]
  linarith

end Similarity

section Nearest

variable (key : CaseKey)

lemma nearest_spec (l : List (String × CaseRow)) {best : Option (String × CaseRow)} {sim : ℚ}
    (h : l.foldl (nearer key) (none, 0) = (best, sim)) :
    (∀ e ∈ l, caseSim key e.2.key ≤ sim) ∧ (best = none → sim = 0) ∧
      ∀ e, best = some e → e ∈ l ∧ sim = caseSim key e.2.key := by
  induction l using List.reverseRecOn generalizing best sim with
  | nil =>
    obtain ⟨rfl, rfl⟩ := Prod.mk.inj h
    simp
  | append_singleton l d ih =>
    rcases hl : l.foldl (nearer key) (none, 0) with ⟨best', sim'⟩
    obtain ⟨hmax, hnone, hsome⟩ := ih hl
    rw [List.foldl_append, List.foldl_cons, List.foldl_nil, hl, nearer] at h
    split_ifs at h with hlt
    · obtain ⟨rfl, rfl⟩ := Prod.mk.inj h
      refine ⟨?_, by simp, by simp⟩
      intro e he
      rcases List.mem_append.mp he with he | he
      · exact (hmax e he).trans (le_of_lt hlt)
      · rw [List.mem_singleton.mp he]
    · obtain ⟨rfl, rfl⟩ := Prod.mk.inj h
      refine ⟨?_, hnone, fun e he => ⟨List.mem_append_left _ (hsome e he).1, (hsome e he).2⟩⟩
      intro e he
      rcases List.mem_append.mp he with he | he
      · exact hmax e he
      · rw [List.mem_singleton.mp he]
        exact not_lt.mp hlt

end Nearest

section Filing

variable (digest : CaseKey → String) {cfg : MemoryConfig} (ts : ℚ) (inc : Incident) (t : CaseTable)

lemma fileIncident_cases (hm : 0 < cfg.tauMerge) :
    (∃ id row, t.get? id = some row ∧ cfg.tauMerge ≤ caseSim inc.key row.key ∧
      (∀ e ∈ t.entries, caseSim inc.key e.2.key ≤ caseSim inc.key row.key) ∧
      fileIncident digest cfg ts inc t = (t.set id (recurringRow ts inc row),
        ⟨id, row.familyId.getD id, .recurrence, roundTo 3 (caseSim inc.key row.key)⟩)) ∨
    ((∀ e ∈ t.entries, caseSim inc.key e.2.key < cfg.tauMerge) ∧ ∃ family reg sim,
      ((reg = .novel ∧ family = digest inc.key) ∨ (reg = .variant ∧
        ∃ e ∈ t.entries, cfg.tauFamily ≤ caseSim inc.key e.2.key ∧ family = e.2.familyId.getD e.1)) ∧
      fileIncident digest cfg ts inc t =
        (t.insertNew (digest inc.key) (openedRow ts inc family), ⟨digest inc.key, family, reg, sim⟩)) := by
  rcases hn : nearestCase t inc.key with ⟨best, sim⟩
  obtain ⟨hmax, hnone, hsome⟩ := nearest_spec inc.key t.entries hn
  simp only [fileIncident, hn]
  cases best with
  | none =>
    refine Or.inr ⟨?_, _, _, _, Or.inl ⟨rfl, rfl⟩, rfl⟩
    intro e he
    exact ((hmax e he).trans (hnone rfl).le).trans_lt hm
  | some e =>
    obtain ⟨id, row⟩ := e
    obtain ⟨hmem, rfl⟩ := hsome _ rfl
    dsimp only at hmax ⊢
    split_ifs with h₁ h₂
    · exact Or.inl ⟨id, row, (t.get?_eq_some id row).mpr hmem, h₁, hmax, rfl⟩
    · refine Or.inr ⟨fun e he => (hmax e he).trans_lt (not_le.mp h₁), _, _, _, Or.inr ⟨rfl, ?_⟩, rfl⟩
      exact ⟨_, hmem, h₂, rfl⟩
    · exact Or.inr ⟨fun e he => (hmax e he).trans_lt (not_le.mp h₁), _, _, _, Or.inl ⟨rfl, rfl⟩, rfl⟩

end Filing

end CausalEngine.Memory
