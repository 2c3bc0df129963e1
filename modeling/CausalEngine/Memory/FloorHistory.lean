import CausalEngine.Memory.EdgeInvariant

/-! The structural floor over a whole history. The highest confidence a row has held is stored nowhere,
but its share is always covered by the floor, and the floor only rises. -/

namespace CausalEngine.Memory

open Foundations Correlation

structure MemoryConfig.Rates (cfg : MemoryConfig) : Prop where
  decay : 0 ≤ cfg.decay ∧ cfg.decay ≤ 1
  prior : 0 ≤ cfg.prior ∧ cfg.prior ≤ cfg.alpha
  alpha : cfg.alpha ≤ 1
  floorFrac : 0 ≤ cfg.floorFrac ∧ cfg.floorFrac ≤ 1

structure EdgeRow.Covered (cfg : MemoryConfig) (row : EdgeRow) : Prop where
  covered : cfg.floorFrac * row.confidence ≤ row.baseConf
  floor : 0 ≤ row.baseConf
  bounded : 0 ≤ row.confidence ∧ row.confidence ≤ 1

structure EdgeRow.Floored (cfg : MemoryConfig) (row : EdgeRow) : Prop extends row.Covered cfg where
  below : row.baseConf ≤ row.confidence

structure EdgeRow.Lifted (cfg : MemoryConfig) (row : EdgeRow) : Prop extends row.Covered cfg where
  below : row.baseConf ≤ max row.confidence cfg.prior

structure EdgeRow.Continues (old row : EdgeRow) : Prop where
  firstSeenTs : row.firstSeenTs = old.firstSeenTs
  hits : old.hits ≤ row.hits
  floor : old.baseConf ≤ row.baseConf

namespace EdgeRow

lemma Continues.refl (row : EdgeRow) : row.Continues row := ⟨rfl, le_rfl, le_rfl⟩

lemma Continues.trans {a b c : EdgeRow} (hab : a.Continues b) (hbc : b.Continues c) : a.Continues c :=
  ⟨hbc.firstSeenTs.trans hab.firstSeenTs, hab.hits.trans hbc.hits, hab.floor.trans hbc.floor⟩

lemma Floored.lifted {cfg : MemoryConfig} {row : EdgeRow} (h : row.Floored cfg) : row.Lifted cfg :=
  ⟨h.toCovered, h.below.trans (le_max_left _ _)⟩

end EdgeRow

variable {cfg : MemoryConfig} {ts : ℚ}

lemma seedRow_continues (row : EdgeRow) : row.Continues (seedRow cfg ts (some row)) :=
  ⟨rfl, le_rfl, le_max_left _ _⟩

lemma confirmRow_continues (e : Edge String) (row : EdgeRow) : row.Continues (confirmRow cfg ts e (some row)) :=
  ⟨rfl, Nat.le_succ _, le_max_left _ _⟩

lemma decayRow_continues (row : EdgeRow) : row.Continues (decayRow cfg ts row) := ⟨rfl, le_rfl, le_rfl⟩

section Rows

variable (hc : cfg.Rates)
include hc

lemma seedRow_lifted {row : Option EdgeRow} (h : ∀ o, row = some o → o.Floored cfg) :
    (seedRow cfg ts row).Lifted cfg := by
  have hp := hc.prior
  cases row with
  | none =>
    refine ⟨⟨?_, hp.1, hp.1, hp.2.trans hc.alpha⟩, le_max_right _ _⟩
    exact mul_le_of_le_one_left hp.1 hc.floorFrac.2
  | some o =>
    have ho := h o rfl
    refine ⟨⟨ho.covered.trans (le_max_left _ _), ho.floor.trans (le_max_left _ _), ho.bounded⟩, ?_⟩
    exact max_le_max_right _ ho.below

lemma confirmRow_floored {e : Edge String} {row : Option EdgeRow} (h : ∀ o, row = some o → o.Lifted cfg) :
    (confirmRow cfg ts e row).Floored cfg := by
  have ha := hc.prior.1.trans hc.prior.2
  obtain ⟨hgrow, halpha, hone⟩ := confirmedConf_bounds cfg ha hc.alpha fun o ho => (h o ho).bounded
  have hconf₀ : 0 ≤ confirmedConf cfg row := ha.trans halpha
  refine ⟨⟨le_max_right _ _, le_max_of_le_right (mul_nonneg hc.floorFrac.1 hconf₀), hconf₀, hone⟩, ?_⟩
  apply max_le
  · cases row with
    | none => exact hconf₀
    | some o => exact (h o rfl).below.trans (max_le (hgrow o rfl) (hc.prior.2.trans halpha))
  · exact mul_le_of_le_one_left hconf₀ hc.floorFrac.2

lemma decayRow_floored {row : EdgeRow} (h : row.Lifted cfg) : (decayRow cfg ts row).Floored cfg := by
  obtain ⟨⟨hcov, hfl, h₀, h₁⟩, hle⟩ := h
  have hdecayed : row.confidence * (1 - cfg.decay) ≤ row.confidence :=
    mul_le_of_le_one_right h₀ (by linarith [hc.decay.1])
  refine ⟨⟨?_, hfl, le_max_of_le_left hfl, ?_⟩, le_max_left _ _⟩
  · change cfg.floorFrac * max row.baseConf (row.confidence * (1 - cfg.decay)) ≤ row.baseConf
    rw [mul_max_of_nonneg _ _ hc.floorFrac.1]
    apply max_le (mul_le_of_le_one_left hfl hc.floorFrac.2)
    exact (mul_le_mul_of_nonneg_left hdecayed hc.floorFrac.1).trans hcov
  · exact max_le (hle.trans (max_le h₁ (hc.prior.2.trans hc.alpha))) (hdecayed.trans h₁)

end Rows

section Runs

variable (hc : cfg.Rates) (digest : CaseKey → String)
include hc

lemma floored_run (xs : List Observation) (key : EdgeKey) : ∀ row,
    (Runs.final (observe digest cfg) .empty xs).edgeMemory.get? key = some row → row.Floored cfg := by
  apply Runs.final_invariant (P := fun db : Db => ∀ row, db.edgeMemory.get? key = some row → row.Floored cfg)
  · intro row h
    simp [Db.empty] at h
  · intro db hdb o _
    rw [edgeMemory_observe]
    apply updateEdges_phases cfg _ _ (P := fun row => ∀ o, row = some o → o.Floored cfg)
      (Q := fun row => ∀ o, row = some o → o.Lifted cfg) (fun row hrow o ho => (hrow o ho).lifted) hdb
    · exact fun _ o ho => Option.some.inj ho ▸ seedRow_lifted hc hdb
    · exact fun e _ _ row hrow o ho => Option.some.inj ho ▸ confirmRow_floored hc hrow
    · intro row hrow o ho
      obtain ⟨r, hr, rfl⟩ := Option.map_eq_some_iff.mp ho
      exact decayRow_floored hc (hrow r hr)

omit hc in
lemma continues_run {db : Db} {key : EdgeKey} {old : EdgeRow} (h : db.edgeMemory.get? key = some old)
    (ys : List Observation) :
    ∃ row, (Runs.final (observe digest cfg) db ys).edgeMemory.get? key = some row ∧ old.Continues row := by
  apply Runs.final_invariant (P := fun db : Db => ∃ row, db.edgeMemory.get? key = some row ∧ old.Continues row)
  · exact ⟨old, h, .refl old⟩
  · intro db hdb o _
    rw [edgeMemory_observe]
    apply updateEdges_phases cfg _ _ (P := fun row => ∃ o, row = some o ∧ old.Continues o)
      (Q := fun row => ∃ o, row = some o ∧ old.Continues o) (fun row hrow => hrow) hdb
    · obtain ⟨row, hrow, hold⟩ := hdb
      rw [hrow]
      exact fun _ => ⟨_, rfl, hold.trans (seedRow_continues row)⟩
    · rintro e - - _ ⟨row, rfl, hold⟩
      exact ⟨_, rfl, hold.trans (confirmRow_continues e row)⟩
    · rintro _ ⟨row, rfl, hold⟩
      exact ⟨_, rfl, hold.trans (decayRow_continues row)⟩

theorem structural_floor_permanent (xs ys : List Observation) (key : EdgeKey) (row : EdgeRow)
    (h : (Runs.final (observe digest cfg) .empty xs).edgeMemory.get? key = some row) :
    ∃ row', (Runs.final (observe digest cfg) .empty (xs ++ ys)).edgeMemory.get? key = some row' ∧
      row'.firstSeenTs = row.firstSeenTs ∧ row.hits ≤ row'.hits ∧ row.baseConf ≤ row'.baseConf ∧
      cfg.floorFrac * row.confidence ≤ row'.baseConf ∧ row'.baseConf ≤ row'.confidence := by
  have hrow := floored_run hc digest xs key row h
  obtain ⟨row', hrow', hcont⟩ := continues_run digest h ys
  rw [← Runs.final_append] at hrow'
  have hnow := floored_run hc digest (xs ++ ys) key row' hrow'
  exact ⟨row', hrow', hcont.firstSeenTs, hcont.hits, hcont.floor, hrow.covered.trans hcont.floor, hnow.below⟩

end Runs

lemma default_rates : MemoryConfig.Rates {} := by
  constructor <;> norm_num

theorem structural_floor_permanent_disk : ∃ row, row.hits = 1 ∧
    (Runs.final (observe (fun _ => "c0") {}) .empty [diskPass]).edgeMemory.get?
      ⟨"cooling-monitor", "timescaledb", "psi_io"⟩ = some row ∧
    ∃ row', (Runs.final (observe (fun _ => "c0") {}) .empty [diskPass, diskPass]).edgeMemory.get?
        ⟨"cooling-monitor", "timescaledb", "psi_io"⟩ = some row' ∧
      row'.firstSeenTs = row.firstSeenTs ∧ row.hits ≤ row'.hits ∧ row.baseConf ≤ row'.baseConf ∧
      40 / 100 * row.confidence ≤ row'.baseConf ∧ row'.baseConf ≤ row'.confidence := by
  obtain ⟨row, hrow, hits⟩ : ∃ row, (Runs.final (observe (fun _ => "c0") {}) .empty
      [diskPass]).edgeMemory.get? ⟨"cooling-monitor", "timescaledb", "psi_io"⟩ = some row ∧ row.hits = 1 :=
    Option.map_eq_some_iff.mp (by decide +kernel)
  refine ⟨row, hits, hrow, ?_⟩
  obtain ⟨row', hrow', hfirst, hhits, hbase, hshare, hbelow⟩ :=
    structural_floor_permanent default_rates _ [diskPass] [diskPass] _ row hrow
  refine ⟨row', hrow', hfirst, hhits, hbase, le_trans (le_of_eq ?_) hshare, hbelow⟩
  norm_num

end CausalEngine.Memory
