import CausalEngine.Memory.Rendering

/-! The two thresholds keep an edge from flickering. Once shown it takes a number of decays to hide it, and once
hidden a number of confirmations to show it again, whatever the other passes do. -/

namespace CausalEngine.Memory

open Foundations Correlation

section Counts

variable (cfg : MemoryConfig) (j : EdgeKey) (os : List Observation)

def decaysIn : ℕ := os.countP fun o => decays cfg o.present (o.graph.edges.map (edgeKeyOf cfg)) j

def confirmsIn : ℕ := (os.flatMap fun o => o.graph.edges).countP fun e => edgeKeyOf cfg e = j

end Counts

def EdgeTable.shows (m : EdgeTable) (j : EdgeKey) : Bool := (m.get? j).any EdgeRow.visible

/-- Visible, and at least at the level. -/
structure EdgeRow.Above (level : ℚ) (row : EdgeRow) : Prop where
  visible : row.visible = true
  level : level ≤ row.confidence
  bounded : row.confidence ≤ 1
  floor : row.baseConf ≤ 1

structure EdgeRow.Below (gap : ℚ) (row : EdgeRow) : Prop where
  visible : row.visible = false
  short : gap ≤ 1 - row.confidence
  floor : gap ≤ 1 - row.baseConf
  nonneg : 0 ≤ row.confidence

section Rows

variable {cfg : MemoryConfig} (hc : cfg.Sound) {ts level gap : ℚ}
include hc

lemma Above.seeded {row : EdgeRow} (h : row.Above level) : (seedRow cfg ts (some row)).Above level :=
  ⟨h.visible, h.level, h.bounded, max_le h.floor (hc.prior.2.trans hc.alpha)⟩

lemma Above.confirmed {row : EdgeRow} (h : row.Above level) (h₀ : 0 ≤ level) (e : Edge String) :
    (confirmRow cfg ts e (some row)).Above level := by
  have hbounds : ∀ o, some row = some o → 0 ≤ o.confidence ∧ o.confidence ≤ 1 := by
    rintro o ho
    obtain rfl := Option.some.inj ho
    exact ⟨h₀.trans h.level, h.bounded⟩
  obtain ⟨hgrow, halpha, hone⟩ := confirmedConf_bounds cfg (hc.prior.1.trans hc.prior.2) hc.alpha hbounds
  have hconf : 0 ≤ confirmedConf cfg (some row) := (hc.prior.1.trans hc.prior.2).trans halpha
  refine ⟨?_, h.level.trans (hgrow row rfl), hone, max_le h.floor ?_⟩
  · simp [confirmRow, h.visible]
  · exact (mul_le_of_le_one_left hconf hc.floorFrac.2).trans hone

lemma Above.decayed {row : EdgeRow} (h : row.Above level) (hhide : cfg.hideAt ≤ level * (1 - cfg.decay)) :
    (decayRow cfg ts row).Above (level * (1 - cfg.decay)) := by
  have hq : 0 ≤ 1 - cfg.decay := by linarith [hc.decay.2]
  have hle : level * (1 - cfg.decay) ≤ (decayRow cfg ts row).confidence :=
    le_max_of_le_right (mul_le_mul_of_nonneg_right h.level hq)
  refine ⟨?_, hle, max_le h.floor ?_, h.floor⟩
  · simp only [decayRow, h.visible, Bool.true_and, decide_eq_true_eq]
    exact hhide.trans hle
  · rcases le_or_gt 0 row.confidence with hpos | hneg
    · exact (mul_le_of_le_one_right hpos (by linarith [hc.decay.1])).trans h.bounded
    · exact (mul_nonpos_of_nonpos_of_nonneg hneg.le hq).trans zero_le_one

omit hc in
lemma Below.seeded {row : EdgeRow} (h : row.Below gap) (hprior : gap ≤ 1 - cfg.prior) :
    (seedRow cfg ts (some row)).Below gap := by
  refine ⟨h.visible, h.short, ?_, h.nonneg⟩
  have hfloor : max row.baseConf cfg.prior ≤ 1 - gap := max_le (by linarith [h.floor]) (by linarith)
  simp only [seedRow, Option.elim_some]
  linarith

lemma Below.opened (hprior : gap ≤ 1 - cfg.prior) : (seedRow cfg ts none).Below gap :=
  ⟨rfl, hprior, hprior, hc.prior.1⟩

variable (ts) in
lemma Below.confirmed {row : Option EdgeRow} (h : ∀ r, row = some r → r.Below gap) (h₀ : 0 ≤ gap) (h₁ : gap ≤ 1)
    (hshow : 1 - gap * (1 - cfg.alpha) < cfg.showAt) (e : Edge String) :
    (confirmRow cfg ts e row).Below (gap * (1 - cfg.alpha)) := by
  have ha₀ : 0 ≤ cfg.alpha := hc.prior.1.trans hc.prior.2
  have hq : 0 ≤ 1 - cfg.alpha := by linarith [hc.alpha]
  have hgap : gap * (1 - cfg.alpha) ≤ 1 - confirmedConf cfg row := by
    cases row with
    | none =>
      rw [confirmedConf, Option.elim_none]
      exact mul_le_of_le_one_left hq h₁
    | some r =>
      have hr := mul_le_mul_of_nonneg_right (h r rfl).short hq
      rw [confirmedConf, Option.elim_some]
      linarith
  have hconf : 0 ≤ confirmedConf cfg row := by
    cases row with
    | none => exact ha₀
    | some r =>
      have hr := (h r rfl).nonneg
      have hle := (h r rfl).short
      rw [confirmedConf, Option.elim_some]
      exact add_nonneg hr (mul_nonneg ha₀ (by linarith))
  have hdark : row.any EdgeRow.visible = false := by
    cases row with
    | none => rfl
    | some r => exact (h r rfl).visible
  refine ⟨?_, hgap, ?_, hconf⟩
  · simp only [confirmRow, hdark, Bool.false_or, decide_eq_false_iff_not, not_le]
    linarith
  · have hbase : row.elim 0 EdgeRow.baseConf ≤ 1 - gap * (1 - cfg.alpha) := by
      have hshrink : gap * (1 - cfg.alpha) ≤ gap := mul_le_of_le_one_right h₀ (by linarith)
      cases row with
      | none =>
        rw [Option.elim_none]
        linarith
      | some r =>
        have hr := (h r rfl).floor
        rw [Option.elim_some]
        linarith
    have hfloor : cfg.floorFrac * confirmedConf cfg row ≤ 1 - gap * (1 - cfg.alpha) :=
      (mul_le_of_le_one_left hconf hc.floorFrac.2).trans (by linarith)
    have hmax := max_le hbase hfloor
    simp only [confirmRow]
    linarith

lemma Below.decayed {row : EdgeRow} (h : row.Below gap) : (decayRow cfg ts row).Below gap := by
  have hle : row.confidence * (1 - cfg.decay) ≤ row.confidence :=
    mul_le_of_le_one_right h.nonneg (by linarith [hc.decay.1])
  have hmax : max row.baseConf (row.confidence * (1 - cfg.decay)) ≤ 1 - gap :=
    max_le (by linarith [h.floor]) (by linarith [h.short])
  refine ⟨?_, ?_, h.floor, ?_⟩
  · simp [decayRow, h.visible]
  · simp only [decayRow]
    linarith
  · exact le_max_of_le_right (mul_nonneg h.nonneg (by linarith [hc.decay.2]))

end Rows

section Pass

variable {cfg : MemoryConfig} (hc : cfg.Sound) {present : List String} {ts level gap : ℚ} {j : EdgeKey} {m : EdgeTable}
  {witness : Option (Witness String)} {edges : List (Edge String)}
include hc

variable (ts) in
lemma confirmations_above {row : EdgeRow} (h : row.Above level) (h₀ : 0 ≤ level) (es : List (Edge String)) :
    ∃ row', es.foldl (fun row e => some (confirmRow cfg ts e row)) (some row) = some row' ∧ row'.Above level := by
  induction es generalizing row with
  | nil => exact ⟨row, rfl, h⟩
  | cons e es ih => exact ih (Above.confirmed hc h h₀ e)

variable (ts witness) in
lemma pass_above {row : EdgeRow} (hrow : m.get? j = some row) (h : row.Above level) (h₀ : 0 ≤ level)
    (hhide : decays cfg present (edges.map (edgeKeyOf cfg)) j → cfg.hideAt ≤ level * (1 - cfg.decay)) :
    ∃ row', (updateEdges cfg present ts witness edges m).get? j = some row' ∧
      row'.Above (if decays cfg present (edges.map (edgeKeyOf cfg)) j then level * (1 - cfg.decay) else level) := by
  have hseeded : ∃ row', (if seeds cfg present witness j then some (seedRow cfg ts (m.get? j)) else m.get? j) =
      some row' ∧ row'.Above level := by
    rw [hrow]
    split_ifs
    · exact ⟨_, rfl, Above.seeded hc h⟩
    · exact ⟨row, rfl, h⟩
  obtain ⟨seeded, hseeded, hs⟩ := hseeded
  obtain ⟨confirmed, hconfirmed, hcf⟩ := confirmations_above hc ts hs h₀
    (edges.filter fun e => edgeKeyOf cfg e = j)
  rw [get?_updateEdges, hseeded, hconfirmed, Option.map_some]
  split_ifs with hd
  · exact ⟨_, rfl, Above.decayed hc hcf (hhide hd)⟩
  · exact ⟨_, rfl, hcf⟩

variable (ts) in
lemma confirmations_below {row : Option EdgeRow} (h : ∀ r, row = some r → r.Below gap) (h₀ : 0 ≤ gap) (h₁ : gap ≤ 1)
    (es : List (Edge String)) (hshow : es ≠ [] → 1 - gap * (1 - cfg.alpha) ^ es.length < cfg.showAt) :
    ∀ r, es.foldl (fun row e => some (confirmRow cfg ts e row)) row = some r →
      r.Below (gap * (1 - cfg.alpha) ^ es.length) := by
  have hq : 0 ≤ 1 - cfg.alpha := by linarith [hc.alpha]
  have hq₁ : 1 - cfg.alpha ≤ 1 := by linarith [hc.prior.1.trans hc.prior.2]
  induction es generalizing row gap with
  | nil => simpa using h
  | cons e es ih =>
    have hlast := hshow (List.cons_ne_nil e es)
    rw [List.length_cons, pow_succ', ← mul_assoc] at hlast ⊢
    have hstep : gap * (1 - cfg.alpha) * (1 - cfg.alpha) ^ es.length ≤ gap * (1 - cfg.alpha) :=
      mul_le_of_le_one_right (mul_nonneg h₀ hq) (pow_le_one₀ hq hq₁)
    have hnext := Below.confirmed hc ts h h₀ h₁ (by linarith) e
    refine ih ?_ (mul_nonneg h₀ hq) ((mul_le_of_le_one_right h₀ hq₁).trans h₁) fun _ => hlast
    rintro r hr
    obtain rfl := Option.some.inj hr
    exact hnext

variable (present ts witness edges) in
lemma pass_below (h : ∀ r, m.get? j = some r → r.Below gap) (h₀ : 0 ≤ gap) (hprior : gap ≤ 1 - cfg.prior)
    (hshow : edges.filter (fun e => edgeKeyOf cfg e = j) ≠ [] →
      1 - gap * (1 - cfg.alpha) ^ (edges.filter fun e => edgeKeyOf cfg e = j).length < cfg.showAt) :
    ∀ r, (updateEdges cfg present ts witness edges m).get? j = some r →
      r.Below (gap * (1 - cfg.alpha) ^ (edges.filter fun e => edgeKeyOf cfg e = j).length) := by
  have hseeded : ∀ r, (if seeds cfg present witness j then some (seedRow cfg ts (m.get? j)) else m.get? j) = some r →
      r.Below gap := by
    split_ifs
    · rintro r hr
      obtain rfl := Option.some.inj hr
      cases hm : m.get? j with
      | none => exact Below.opened hc hprior
      | some row => exact Below.seeded (h row hm) hprior
    · exact h
  have hone : gap ≤ 1 := by linarith [hc.prior.1]
  have hconfirmed := confirmations_below hc ts hseeded h₀ hone _ hshow
  intro r hr
  rw [get?_updateEdges] at hr
  obtain ⟨row, hrow, rfl⟩ := Option.map_eq_some_iff.mp hr
  split_ifs
  · exact Below.decayed hc (hconfirmed row hrow)
  · exact hconfirmed row hrow

end Pass

section Flips

variable {cfg : MemoryConfig} (hc : cfg.Sound) {present : List String} {ts : ℚ} {j : EdgeKey} {m : EdgeTable}
  {witness : Option (Witness String)} {edges : List (Edge String)}
include hc

variable (ts) in
lemma confirmations_shown {row : Option EdgeRow}
    (h : ∀ r, row = some r → r.Seeded cfg ∧ (r.visible = true → cfg.showAt ≤ r.confidence)) (es : List (Edge String)) :
    ∀ r, es.foldl (fun row e => some (confirmRow cfg ts e row)) row = some r →
      r.visible = true → cfg.showAt ≤ r.confidence := by
  induction es generalizing row with
  | nil => exact fun r hr => (h r hr).2
  | cons e es ih =>
    refine ih ?_
    rintro r hr
    obtain rfl := Option.some.inj hr
    refine ⟨(confirmRow_ordered hc fun o ho => (h o ho).1).seeded, ?_⟩
    intro hv
    have hgrow := (confirmedConf_bounds cfg (hc.prior.1.trans hc.prior.2) hc.alpha fun o ho => (h o ho).1.bounded).1
    have hor : row.any EdgeRow.visible = true ∨ cfg.showAt ≤ confirmedConf cfg row := by
      simpa only [confirmRow, Bool.or_eq_true, decide_eq_true_eq] using hv
    rcases hor with hv | hv
    · obtain ⟨o, rfl, hv⟩ := (Option.any_eq_true _ _).mp hv
      exact ((h o rfl).2 hv).trans (hgrow o rfl)
    · exact hv

variable (hm : ∀ row, m.get? j = some row → row.Ordered cfg)
include hm

lemma shown_above (hdark : m.shows j = false) (hshown : (updateEdges cfg present ts witness edges m).shows j = true) :
    ∃ row, (updateEdges cfg present ts witness edges m).get? j = some row ∧ row.Above cfg.showAt := by
  obtain ⟨row, hrow, hv⟩ := (Option.any_eq_true _ _).mp hshown
  have hordered := updateEdges_ordered hc hm row hrow
  refine ⟨row, hrow, hv, ?_, hordered.bounded, hordered.confidence.trans hordered.bounded⟩
  have hstart : ∀ r, (if seeds cfg present witness j then some (seedRow cfg ts (m.get? j)) else m.get? j) = some r →
      r.Seeded cfg ∧ (r.visible = true → cfg.showAt ≤ r.confidence) := by
    have hinvisible : ∀ r, m.get? j = some r → r.visible = false := by
      intro r hr
      rw [EdgeTable.shows, hr] at hdark
      exact hdark
    split_ifs
    · rintro r hr
      obtain rfl := Option.some.inj hr
      refine ⟨seedRow_seeded hc hm, ?_⟩
      intro hv
      cases hr : m.get? j with
      | none => simp [hr, seedRow, structuralRow] at hv
      | some old => simp [hr, seedRow, hinvisible old hr] at hv
    · intro r hr
      refine ⟨(hm r hr).seeded, ?_⟩
      intro hv
      rw [hinvisible r hr] at hv
      exact absurd hv Bool.false_ne_true
  have hconfirmed := confirmations_shown hc ts hstart (edges.filter fun e => edgeKeyOf cfg e = j)
  rw [get?_updateEdges] at hrow
  obtain ⟨old, hold, rfl⟩ := Option.map_eq_some_iff.mp hrow
  split_ifs at hv ⊢ with hd
  · -- a row that decays was not confirmed, so it was visible before
    rw [unseen_filter cfg hd.2.1, List.foldl_nil] at hold
    have hold' : old.visible = true := by
      simp only [decayRow, Bool.and_eq_true] at hv
      exact hv.1
    have hdark' : old.visible = false := by
      rw [EdgeTable.shows] at hdark
      split_ifs at hold
      · obtain rfl := Option.some.inj hold
        cases hr : m.get? j with
        | none => rfl
        | some r =>
          rw [hr] at hdark
          exact hdark
      · rw [hold] at hdark
        exact hdark
    rw [hdark'] at hold'
    exact absurd hold' Bool.false_ne_true
  · exact hconfirmed old hold hv

lemma hidden_below (hshown : m.shows j = true) (hdark : (updateEdges cfg present ts witness edges m).shows j = false) :
    ∀ row, (updateEdges cfg present ts witness edges m).get? j = some row →
      row.Below (1 - max cfg.hideAt cfg.prior) := by
  intro row hrow
  have hordered := updateEdges_ordered hc hm row hrow
  obtain ⟨old, hold, hv⟩ := (Option.any_eq_true _ _).mp hshown
  have hinvisible : row.visible = false := by
    rw [EdgeTable.shows, hrow] at hdark
    exact hdark
  have habove : old.Above 0 := by
    have ho := hm old hold
    exact ⟨hv, ho.floor.trans ho.confidence, ho.bounded, ho.confidence.trans ho.bounded⟩
  have hlow : row.confidence < cfg.hideAt := by
    by_contra hhigh
    have hseeded : ∃ r, (if seeds cfg present witness j then some (seedRow cfg ts (m.get? j)) else m.get? j) = some r ∧
        r.Above 0 := by
      rw [hold]
      split_ifs
      · exact ⟨_, rfl, Above.seeded hc habove⟩
      · exact ⟨old, rfl, habove⟩
    obtain ⟨r, hr, hra⟩ := hseeded
    obtain ⟨c, hcf, hca⟩ := confirmations_above hc ts hra le_rfl (edges.filter fun e => edgeKeyOf cfg e = j)
    rw [get?_updateEdges, hr, hcf, Option.map_some, Option.some.injEq] at hrow
    subst hrow
    split_ifs at hinvisible hhigh
    · have hvisible : (decayRow cfg ts c).visible = true := by
        simp only [decayRow, hca.visible, Bool.true_and, decide_eq_true_eq]
        exact not_lt.mp hhigh
      rw [hvisible] at hinvisible
      exact absurd hinvisible Bool.noConfusion
    · rw [hca.visible] at hinvisible
      exact absurd hinvisible Bool.noConfusion
  have hmax := le_max_left cfg.hideAt cfg.prior
  refine ⟨hinvisible, ?_, ?_, hordered.floor.trans hordered.confidence⟩
  · linarith
  · linarith [hordered.confidence]

end Flips

section Runs

variable (digest : CaseKey → String) {cfg : MemoryConfig} (hc : cfg.Sound) {j : EdgeKey}
include hc

lemma stays_shown {n m : ℕ} (hhide : cfg.hideAt ≤ cfg.showAt * (1 - cfg.decay) ^ m) (os : List Observation) {db : Db}
    {row : EdgeRow} (hrow : db.edgeMemory.get? j = some row) (h : row.Above (cfg.showAt * (1 - cfg.decay) ^ n))
    (hn : n + decaysIn cfg j os ≤ m) : (Runs.final (observe digest cfg) db os).edgeMemory.shows j = true := by
  have hq : 0 ≤ 1 - cfg.decay := by linarith [hc.decay.2]
  have hshow : 0 ≤ cfg.showAt := hc.visibility.1.trans hc.visibility.2
  induction os generalizing db n row with
  | nil =>
    rw [Runs.final, EdgeTable.shows, hrow]
    exact h.visible
  | cons o os ih =>
    have hcount : decaysIn cfg j (o :: os) =
        decaysIn cfg j os + if decays cfg o.present (o.graph.edges.map (edgeKeyOf cfg)) j then 1 else 0 := by
      simp [decaysIn, List.countP_cons]
    rw [hcount] at hn
    have hlevel : decays cfg o.present (o.graph.edges.map (edgeKeyOf cfg)) j →
        cfg.hideAt ≤ cfg.showAt * (1 - cfg.decay) ^ n * (1 - cfg.decay) := by
      intro hd
      rw [if_pos hd] at hn
      rw [mul_assoc, ← pow_succ]
      have hpow : (1 - cfg.decay) ^ m ≤ (1 - cfg.decay) ^ (n + 1) :=
        pow_le_pow_of_le_one hq (by linarith [hc.decay.1]) (by omega)
      exact hhide.trans (mul_le_mul_of_nonneg_left hpow hshow)
    obtain ⟨row', hrow', habove⟩ := pass_above hc o.ts o.witness hrow h (by positivity) hlevel
    rw [← edgeMemory_observe digest] at hrow'
    split_ifs at habove hn with hd
    · rw [mul_assoc, ← pow_succ] at habove
      exact ih hrow' habove (by omega)
    · exact ih hrow' habove (by omega)

lemma stays_hidden {gap : ℚ} (h₀ : 0 ≤ gap) (hprior : gap ≤ 1 - cfg.prior) (os : List Observation) {db : Db}
    (h : ∀ row, db.edgeMemory.get? j = some row → row.Below gap)
    (hshow : 1 - gap * (1 - cfg.alpha) ^ confirmsIn cfg j os < cfg.showAt) :
    (Runs.final (observe digest cfg) db os).edgeMemory.shows j = false := by
  have hq : 0 ≤ 1 - cfg.alpha := by linarith [hc.alpha]
  have hq₁ : 1 - cfg.alpha ≤ 1 := by linarith [hc.prior.1.trans hc.prior.2]
  induction os generalizing db gap with
  | nil =>
    rw [Runs.final, EdgeTable.shows]
    cases hrow : db.edgeMemory.get? j with
    | none => rfl
    | some row => exact (h row hrow).visible
  | cons o os ih =>
    have hcount : confirmsIn cfg j (o :: os) =
        (o.graph.edges.filter fun e => edgeKeyOf cfg e = j).length + confirmsIn cfg j os := by
      rw [confirmsIn, List.flatMap_cons, List.countP_append, List.countP_eq_length_filter, confirmsIn]
    rw [hcount, pow_add, ← mul_assoc] at hshow
    set k := (o.graph.edges.filter fun e => edgeKeyOf cfg e = j).length
    have hgap : 0 ≤ gap * (1 - cfg.alpha) ^ k := by positivity
    have hrest : gap * (1 - cfg.alpha) ^ k * (1 - cfg.alpha) ^ confirmsIn cfg j os ≤ gap * (1 - cfg.alpha) ^ k :=
      mul_le_of_le_one_right hgap (pow_le_one₀ hq hq₁)
    have hstep := pass_below hc o.present o.ts o.witness o.graph.edges h h₀ hprior fun _ => by linarith
    rw [← edgeMemory_observe digest] at hstep
    have hless : gap * (1 - cfg.alpha) ^ k ≤ gap := mul_le_of_le_one_right h₀ (pow_le_one₀ hq hq₁)
    exact ih hgap (hless.trans hprior) hstep hshow

lemma ordered_run (xs : List Observation) : ∀ row,
    (Runs.final (observe digest cfg) .empty xs).edgeMemory.get? j = some row → row.Ordered cfg := by
  apply Runs.final_invariant (P := fun db : Db => ∀ row, db.edgeMemory.get? j = some row → row.Ordered cfg)
  · intro row h
    simp [Db.empty] at h
  · intro db hdb o _ row hrow
    rw [edgeMemory_observe] at hrow
    exact updateEdges_ordered hc hdb row hrow

end Runs

/-- An edge that a pass has shown is not hidden by fewer decays than lead from one threshold to the other, and one that
a pass has hidden is not shown again by too few confirmations. -/
theorem visibility_hysteresis (digest : CaseKey → String) (cfg : MemoryConfig) (hc : cfg.Sound) (xs : List Observation)
    (o : Observation) (j : EdgeKey) :
    let before := Runs.final (observe digest cfg) .empty xs
    let flipped := (observe digest cfg before o).1
    (before.edgeMemory.shows j = false → flipped.edgeMemory.shows j = true → ∀ os m,
      cfg.hideAt ≤ cfg.showAt * (1 - cfg.decay) ^ m → decaysIn cfg j os ≤ m →
        (Runs.final (observe digest cfg) flipped os).edgeMemory.shows j = true) ∧
    (before.edgeMemory.shows j = true → flipped.edgeMemory.shows j = false → ∀ os,
      1 - (1 - max cfg.hideAt cfg.prior) * (1 - cfg.alpha) ^ confirmsIn cfg j os < cfg.showAt →
        (Runs.final (observe digest cfg) flipped os).edgeMemory.shows j = false) := by
  intro before flipped
  have hm := ordered_run digest hc (j := j) xs
  have hedges : flipped.edgeMemory = _ := edgeMemory_observe digest cfg before o
  constructor
  · intro hdark hshown os m hhide hcount
    rw [hedges] at hshown
    obtain ⟨row, hrow, habove⟩ := shown_above hc hm hdark hshown
    rw [← hedges] at hrow
    exact stays_shown digest hc (n := 0) hhide os hrow (by simpa using habove) (by omega)
  · intro hshown hdark os hshow
    have hdark' := hdark
    rw [hedges] at hdark'
    have hbelow := hidden_below hc hm hshown hdark'
    rw [← hedges] at hbelow
    have hmax := le_max_right cfg.hideAt cfg.prior
    rcases le_or_gt (max cfg.hideAt cfg.prior) 1 with hone | hone
    · exact stays_hidden digest hc (by linarith) (by linarith) os hbelow hshow
    · -- with a threshold above one nothing is ever visible
      have hvisible : cfg.hideAt ≤ 1 := by
        obtain ⟨row, hrow, hv⟩ := (Option.any_eq_true _ _).mp hshown
        exact ((hm row hrow).visible hv).trans (hm row hrow).bounded
      exact absurd hone (not_lt.mpr (max_le hvisible (hc.prior.2.trans hc.alpha)))

theorem visibility_hysteresis_disk : (Runs.final (observe (fun _ => "c0") {})
    (observe (fun _ => "c0") {} (Runs.final (observe (fun _ => "c0") {}) .empty [diskPass]) diskPass).1
      (List.replicate 8 monitorRestarted)).edgeMemory.shows ⟨"cooling-monitor", "timescaledb", "psi_io"⟩ = true :=
  (visibility_hysteresis (fun _ => "c0") {} default_sound [diskPass] diskPass _).1 (by decide +kernel)
    (by decide +kernel) (List.replicate 8 monitorRestarted) 8 (by norm_num) (by decide)

end CausalEngine.Memory
