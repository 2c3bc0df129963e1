import CausalEngine.Memory.Observe

/-! The representation invariant of edge memory. Seeding can lift a floor above the confidence; the
confirmation or the decay that follows in the same pass restores the order. -/

namespace CausalEngine.Memory

open Foundations Correlation

structure MemoryConfig.Sound (cfg : MemoryConfig) : Prop where
  decay : 0 ≤ cfg.decay ∧ cfg.decay ≤ 1
  prior : 0 ≤ cfg.prior ∧ cfg.prior ≤ cfg.alpha
  alpha : cfg.alpha ≤ 1
  floorFrac : 0 ≤ cfg.floorFrac ∧ cfg.floorFrac ≤ 1
  visibility : 0 ≤ cfg.hideAt ∧ cfg.hideAt ≤ cfg.showAt

structure EdgeRow.Tracked (cfg : MemoryConfig) (row : EdgeRow) : Prop where
  visible : row.visible = true → cfg.hideAt ≤ row.confidence
  shown : row.state = .active ∨ row.state = .decaying → row.visible = true
  unshown : row.state = .confirming ∨ row.state = .hidden → row.visible = false
  steady : row.state = .steady → row.confidence ≤ row.baseConf + 1 / 10 ^ 9

structure EdgeRow.Ordered (cfg : MemoryConfig) (row : EdgeRow) : Prop extends row.Tracked cfg where
  floor : 0 ≤ row.baseConf
  confidence : row.baseConf ≤ row.confidence
  bounded : row.confidence ≤ 1

/-- Between seeding and the end of a pass the floor may exceed the confidence, up to the prior. -/
structure EdgeRow.Seeded (cfg : MemoryConfig) (row : EdgeRow) : Prop extends row.Tracked cfg where
  floor : 0 ≤ row.baseConf
  confidence : row.baseConf ≤ max row.confidence cfg.prior
  bounded : 0 ≤ row.confidence ∧ row.confidence ≤ 1

variable {cfg : MemoryConfig} {ts : ℚ}

lemma EdgeRow.Ordered.seeded {row : EdgeRow} (h : row.Ordered cfg) : row.Seeded cfg :=
  ⟨h.toTracked, h.floor, h.confidence.trans (le_max_left _ _), h.floor.trans h.confidence, h.bounded⟩

section Rows

variable (hc : cfg.Sound)
include hc

lemma seedRow_seeded {row : Option EdgeRow} (h : ∀ o, row = some o → o.Ordered cfg) :
    (seedRow cfg ts row).Seeded cfg := by
  cases row with
  | none =>
    have hp := hc.prior
    have h1 := hp.2.trans hc.alpha
    refine ⟨⟨?_, ?_, ?_, ?_⟩, hp.1, le_max_right _ _, hp.1, h1⟩
    · simp [seedRow, structuralRow]
    · simp [seedRow, structuralRow]
    · simp [seedRow, structuralRow]
    · intro _
      simp [seedRow, structuralRow]
  | some o =>
    have ho := h o rfl
    refine ⟨⟨ho.visible, ho.shown, ho.unshown, ?_⟩, le_max_of_le_left ho.floor, ?_, ho.seeded.bounded⟩
    · intro hs
      exact (ho.steady hs).trans (by simp [seedRow])
    · exact max_le_max_right _ ho.confidence

lemma confirmRow_ordered {e : Edge String} {row : Option EdgeRow} (h : ∀ o, row = some o → o.Seeded cfg) :
    (confirmRow cfg ts e row).Ordered cfg := by
  have ha := hc.prior.1.trans hc.prior.2
  obtain ⟨hgrow, halpha, hone⟩ := confirmedConf_bounds cfg ha hc.alpha fun o ho => (h o ho).bounded
  have hconf₀ : 0 ≤ confirmedConf cfg row := ha.trans halpha
  refine ⟨⟨?_, ?_, ?_, ?_⟩, ?_, ?_, hone⟩
  · intro hv
    have hor : row.any EdgeRow.visible = true ∨ cfg.showAt ≤ confirmedConf cfg row := by
      simpa only [confirmRow, Bool.or_eq_true, decide_eq_true_eq] using hv
    rcases hor with hv | hv
    · obtain ⟨o, rfl, hv⟩ := (Option.any_eq_true _ _).mp hv
      exact ((h o rfl).visible hv).trans (hgrow o rfl)
    · exact hc.visibility.2.trans hv
  · simp only [confirmRow]
    split_ifs with hv
    · exact fun _ => hv
    · simp
  · simp only [confirmRow]
    split_ifs with hv
    · simp
    · exact fun _ => by simpa only [Bool.not_eq_true] using hv
  · simp only [confirmRow]
    split_ifs <;> simp
  · apply le_max_of_le_right
    exact mul_nonneg hc.floorFrac.1 hconf₀
  · apply max_le
    · cases row with
      | none => exact hconf₀
      | some o => exact (h o rfl).confidence.trans (max_le (hgrow o rfl) (hc.prior.2.trans halpha))
    · exact mul_le_of_le_one_left hconf₀ hc.floorFrac.2

lemma decayRow_ordered {row : EdgeRow} (h : row.Seeded cfg) : (decayRow cfg ts row).Ordered cfg := by
  obtain ⟨ht, hfl, hle, h₀, h₁⟩ := h
  have hp : cfg.prior ≤ 1 := hc.prior.2.trans hc.alpha
  refine ⟨⟨?_, ?_, ?_, ?_⟩, hfl, le_max_left _ _, ?_⟩
  · intro hv
    simp only [decayRow, Bool.and_eq_true, decide_eq_true_eq] at hv
    exact hv.2
  · simp only [decayRow]
    split_ifs with hf hv
    · simp
    · exact fun _ => hv
    · simp
  · simp only [decayRow]
    split_ifs with hf hv
    · simp
    · simp
    · exact fun _ => by simpa only [Bool.not_eq_true] using hv
  · simp only [decayRow]
    split_ifs with hf
    · exact fun _ => hf.1
    · simp
    · simp
  · apply max_le (hle.trans (max_le h₁ hp))
    exact (mul_le_of_le_one_right h₀ (by linarith [hc.decay.1])).trans h₁

lemma updateEdges_ordered {present : List String} {witness : Option (Witness String)}
    {edges : List (Edge String)} {m : EdgeTable} {j : EdgeKey}
    (h : ∀ row, m.get? j = some row → row.Ordered cfg) :
    ∀ row, (updateEdges cfg present ts witness edges m).get? j = some row → row.Ordered cfg := by
  apply updateEdges_phases cfg present ts (P := fun row => ∀ o, row = some o → o.Ordered cfg)
    (Q := fun row => ∀ o, row = some o → o.Seeded cfg) (fun row hrow o ho => (hrow o ho).seeded) h
  · exact fun _ o ho => Option.some.inj ho ▸ seedRow_seeded hc h
  · exact fun e _ _ row hrow o ho => Option.some.inj ho ▸ confirmRow_ordered hc hrow
  · intro row hrow o ho
    obtain ⟨r, hr, rfl⟩ := Option.map_eq_some_iff.mp ho
    exact decayRow_ordered hc (hrow r hr)

end Rows

variable (digest : CaseKey → String)

theorem edge_memory_ordered (hc : cfg.Sound) (xs : List Observation) (key : EdgeKey) (row : EdgeRow)
    (h : (Runs.final (observe digest cfg) .empty xs).edgeMemory.get? key = some row) : row.Ordered cfg := by
  revert row
  apply Runs.final_invariant (P := fun db : Db => ∀ row, db.edgeMemory.get? key = some row → row.Ordered cfg)
  · intro row h
    simp [Db.empty] at h
  · intro db hdb o _ row hrow
    rw [edgeMemory_observe] at hrow
    exact updateEdges_ordered hc hdb row hrow

def diskPass : Observation where
  graph := ⟨[], [⟨"cooling-monitor-5f-x1", "timescaledb-7c-z9", ⟨9 / 10, by decide +kernel⟩, 5, [.write, .pvc]⟩],
    [], [], ⟨2, 0, 1⟩⟩
  vectors := .ofList [("cooling-monitor-5f-x1", []), ("timescaledb-7c-z9", [])]
  witness := some ⟨[], [], [s("cooling-monitor-5f-x1", "timescaledb-7c-z9")], []⟩
  ts := 10
  now := 10

lemma default_sound : MemoryConfig.Sound {} := by
  constructor <;> norm_num

theorem edge_memory_ordered_disk : ∃ row, (Runs.final (observe (fun _ => "c0") {}) .empty
    [diskPass, diskPass]).edgeMemory.get? ⟨"cooling-monitor", "timescaledb", "psi_io"⟩ = some row ∧
      row.hits = 2 ∧ row.Ordered {} := by
  obtain ⟨row, hrow, hits⟩ : ∃ row, (Runs.final (observe (fun _ => "c0") {}) .empty
      [diskPass, diskPass]).edgeMemory.get? ⟨"cooling-monitor", "timescaledb", "psi_io"⟩ = some row ∧
        row.hits = 2 := Option.map_eq_some_iff.mp (by decide +kernel)
  exact ⟨row, hrow, hits, edge_memory_ordered _ default_sound _ _ _ hrow⟩

end CausalEngine.Memory
