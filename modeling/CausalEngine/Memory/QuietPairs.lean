import CausalEngine.Foundations.Geometric
import CausalEngine.Memory.FloorHistory
import CausalEngine.Memory.Rendering

/-! A finished incident. On a pair of workloads that are present but not joined the confidences decay
geometrically, so after finitely many passes they lie at their floors, or below the threshold to hide. -/

namespace CausalEngine.Memory

open Foundations Correlation

structure Quiet (a b : String) (o : Observation) : Prop where
  present : a ∈ o.present ∧ b ∈ o.present
  unjoined : ∀ e ∈ o.graph.edges, workloads e ≠ s(a, b)

structure EdgeRow.Sinking (floors : List ℚ) (c : ℚ) (row : EdgeRow) : Prop where
  floor : row.baseConf ∈ floors
  level : row.confidence ≤ max row.baseConf c

variable {cfg : MemoryConfig} {a b : String} {floors : List ℚ} {c ts : ℚ}

section Rows

lemma seedRow_sinking (hp : cfg.prior ∈ floors) {row : Option EdgeRow} (h : ∀ o, row = some o → o.Sinking floors c) :
    (seedRow cfg ts row).Sinking floors c := by
  cases row with
  | none => exact ⟨hp, le_max_left _ _⟩
  | some o =>
    have ho := h o rfl
    constructor
    · rcases max_choice o.baseConf cfg.prior with he | he
      · simpa only [seedRow, Option.elim_some, he] using ho.floor
      · simpa only [seedRow, Option.elim_some, he] using hp
    · exact ho.level.trans (max_le_max_right c (le_max_left _ _))

variable (hd : 0 < cfg.decay ∧ cfg.decay ≤ 1)
include hd

lemma decayRow_sinking (hc : 0 ≤ c) {row : EdgeRow} (h : row.Sinking floors c) :
    (decayRow cfg ts row).Sinking floors (c * (1 - cfg.decay)) :=
  ⟨h.floor, decayed_floor (by linarith [hd.2]) (by linarith [hd.1]) hc h.level⟩

omit hd in
lemma decayRow_steady {row : EdgeRow} (h : (decayRow cfg ts row).Sinking floors c)
    (hf : ∀ f ∈ floors, 0 < f → c < f) (hpos : 0 < (decayRow cfg ts row).baseConf) :
    (decayRow cfg ts row).confidence = (decayRow cfg ts row).baseConf ∧ (decayRow cfg ts row).state = .steady := by
  have hlt := hf _ h.floor hpos
  have hle : (decayRow cfg ts row).confidence ≤ (decayRow cfg ts row).baseConf := by
    rw [← max_eq_left hlt.le]
    exact h.level
  refine ⟨le_antisymm hle (le_max_left _ _), if_pos ⟨?_, hpos⟩⟩
  exact hle.trans (by simp [decayRow])

omit hd in
lemma decayRow_hidden {row : EdgeRow} (h : (decayRow cfg ts row).Sinking floors c) (hz : row.baseConf = 0)
    (hc : 0 ≤ c) (hh : c < cfg.hideAt) : (decayRow cfg ts row).visible = false := by
  have hle : (decayRow cfg ts row).confidence ≤ c := by
    rw [← max_eq_right (hz.le.trans hc)]
    exact h.level
  simp only [decayRow] at hle ⊢
  rw [decide_eq_false (not_le.mpr (hle.trans_lt hh)), Bool.and_false]

end Rows

section Pass

variable {o : Observation} {m : EdgeTable} {j : EdgeKey}

lemma quiet_row (h : Quiet a b o) (hs : j.signal = cfg.signal) (hj : j.pair = s(a, b)) :
    (updateEdges cfg o.present o.ts o.witness o.graph.edges m).get? j =
      (if seeds cfg o.present o.witness j then some (seedRow cfg o.ts (m.get? j)) else m.get? j).map
        (decayRow cfg o.ts) := by
  have hseen : j ∉ o.graph.edges.map (edgeKeyOf cfg) := by
    intro hmem
    obtain ⟨e, he, rfl⟩ := List.mem_map.mp hmem
    exact h.unjoined e he hj
  have hends : j.src ∈ o.present ∧ j.dst ∈ o.present := by
    rcases Sym2.eq_iff.mp hj with ⟨hsrc, hdst⟩ | ⟨hsrc, hdst⟩
    · exact ⟨hsrc ▸ h.present.1, hdst ▸ h.present.2⟩
    · exact ⟨hsrc ▸ h.present.2, hdst ▸ h.present.1⟩
  have hdec : decays cfg o.present (o.graph.edges.map (edgeKeyOf cfg)) j := ⟨hs, hseen, hends.1, hends.2⟩
  rw [get?_updateEdges, unseen_filter cfg hseen]
  simp only [List.foldl_nil, if_pos hdec]

lemma quiet_row_decayed (h : Quiet a b o) (hs : j.signal = cfg.signal) (hj : j.pair = s(a, b))
    (hp : cfg.prior ∈ floors) (hm : ∀ row, m.get? j = some row → row.Sinking floors c) {row : EdgeRow}
    (hrow : (updateEdges cfg o.present o.ts o.witness o.graph.edges m).get? j = some row) :
    ∃ old : EdgeRow, old.Sinking floors c ∧ row = decayRow cfg o.ts old := by
  rw [quiet_row h hs hj] at hrow
  obtain ⟨old, hold, rfl⟩ := Option.map_eq_some_iff.mp hrow
  refine ⟨old, ?_, rfl⟩
  split_ifs at hold
  · exact Option.some.inj hold ▸ seedRow_sinking hp hm
  · exact hm old hold

lemma quiet_drawn (digest : CaseKey → String) (cfg : MemoryConfig) (db : Db) (h : Quiet a b o) :
    let drawn := (observe digest cfg db o).2.edges.filter fun r => workloads r.edge = s(a, b)
    let table := (observe digest cfg db o).1.edgeMemory
    (∀ r ∈ drawn, ∃ j row, table.get? j = some row ∧ Drawable cfg s(a, b) (j, row)) ∧
    ∀ j row, table.get? j = some row → Drawable cfg s(a, b) (j, row) → ∃ r, drawn = [r] ∧ r.held = true := by
  intro drawn table
  have hheld : drawn = (heldEdges cfg table o).filter fun r => workloads r.edge = s(a, b) := by
    have hlive : (liveEdges cfg table o).filter (fun r => workloads r.edge = s(a, b)) = [] := by
      simp only [List.filter_eq_nil_iff, decide_eq_true_eq]
      intro r hr
      obtain ⟨e, he, rfl⟩ := List.mem_map.mp hr
      exact h.unjoined e he
    simp only [drawn, edges_observe, List.filter_append]
    rw [hlive, List.nil_append]
  constructor
  · intro r hr
    rw [hheld] at hr
    obtain ⟨hr, hw⟩ := List.mem_filter.mp hr
    obtain ⟨row, hrow, -, hdraw, -⟩ := mem_heldEdges_row hr
    exact ⟨_, row, hrow, of_decide_eq_true hw ▸ hdraw⟩
  · rintro j row hrow ⟨hs, hj, hshow⟩
    have hunlive : j.pair ∉ o.graph.edges.map fun e => (edgeKeyOf cfg e).pair := by
      intro hmem
      obtain ⟨e, he, hej⟩ := List.mem_map.mp hmem
      exact h.unjoined e he (hej.trans hj)
    obtain ⟨e, he, hej⟩ := heldRows_covers hrow hs hshow hunlive
    have hends : (∃ pod, o.wlPod.get? e.1.src = some pod) ∧ ∃ pod, o.wlPod.get? e.1.dst = some pod := by
      rw [← mem_present, ← mem_present]
      rcases Sym2.eq_iff.mp (hej.trans hj) with ⟨hsrc, hdst⟩ | ⟨hsrc, hdst⟩
      · exact ⟨hsrc ▸ h.present.1, hdst ▸ h.present.2⟩
      · exact ⟨hsrc ▸ h.present.2, hdst ▸ h.present.1⟩
    obtain ⟨⟨src, hsrc⟩, dst, hdst⟩ := hends
    obtain ⟨r, hr⟩ : ∃ r, heldEdge o.wlPod o.now e = some r := by
      simp only [heldEdge, hsrc, hdst, Option.bind_some, Option.map_some, Option.some.injEq, exists_eq']
    have hmem : r ∈ heldEdges cfg table o := List.mem_filterMap.mpr ⟨e, he, hr⟩
    have hw : workloads r.edge = s(a, b) := by
      have hkey := heldEdge_key (mem_heldRows he).2.1 hr
      rw [← hj, ← hej, ← hkey]
      rfl
    refine ⟨r, ?_, heldEdge_held hr⟩
    rw [hheld, ← hw]
    exact filter_eq_singleton heldEdges_nodup hmem

end Pass

section Run

variable (digest : CaseKey → String)

lemma foreign_row (xs : List Observation) {j : EdgeKey} (hs : j.signal ≠ cfg.signal) :
    (Runs.final (observe digest cfg) .empty xs).edgeMemory.get? j = none := by
  apply Runs.final_invariant (P := fun db : Db => db.edgeMemory.get? j = none)
  · rfl
  · intro db hdb o _
    have hseed : seeds cfg o.present o.witness j = false := by
      rw [Bool.eq_false_iff]
      exact fun h => hs (seeds_present cfg o.present h).1
    have hseen : j ∉ o.graph.edges.map (edgeKeyOf cfg) := by
      intro hmem
      obtain ⟨e, -, rfl⟩ := List.mem_map.mp hmem
      exact hs rfl
    rw [edgeMemory_observe, get?_updateEdges, unseen_filter cfg hseen, hseed, hdb]
    rfl

lemma floorless_run (hp : cfg.prior = 0) (hf : cfg.floorFrac = 0) (xs : List Observation) (j : EdgeKey) : ∀ row,
    (Runs.final (observe digest cfg) .empty xs).edgeMemory.get? j = some row → row.baseConf = 0 := by
  apply Runs.final_invariant (P := fun db : Db => ∀ row, db.edgeMemory.get? j = some row → row.baseConf = 0)
  · intro row hrow
    simp [Db.empty] at hrow
  · intro db hdb o _
    rw [edgeMemory_observe]
    apply updateEdges_row cfg o.present o.ts (P := fun row => row.baseConf = 0) hdb
    · intro _
      cases hm : db.edgeMemory.get? j with
      | none => exact hp
      | some row => simp [seedRow, hdb row hm, hp]
    · intro e _ _ row hrow
      cases row with
      | none => simp [confirmRow, hf]
      | some r => simp [confirmRow, hf, hrow r rfl]
    · exact fun row hrow => hrow

variable (hd : 0 < cfg.decay ∧ cfg.decay ≤ 1)
include hd

lemma sinking_run (hp : cfg.prior ∈ floors) (hc : 0 ≤ c) {j : EdgeKey} (hs : j.signal = cfg.signal)
    (hj : j.pair = s(a, b)) {db : Db} (hdb : ∀ row, db.edgeMemory.get? j = some row → row.Sinking floors c)
    (ys : List Observation) (hq : ∀ o ∈ ys, Quiet a b o) : ∀ row,
    (Runs.final (observe digest cfg) db ys).edgeMemory.get? j = some row →
      row.Sinking floors (c * (1 - cfg.decay) ^ ys.length) := by
  induction ys generalizing db c with
  | nil => simpa only [List.length_nil, pow_zero, mul_one, Runs.final] using hdb
  | cons o ys ih =>
    have hq₀ : 0 ≤ 1 - cfg.decay := by linarith [hd.2]
    rw [List.length_cons, pow_succ', ← mul_assoc]
    apply ih (mul_nonneg hc hq₀) ?_ (fun p hp => hq p (List.mem_cons_of_mem _ hp))
    intro row hrow
    rw [edgeMemory_observe] at hrow
    obtain ⟨old, hold, rfl⟩ := quiet_row_decayed (hq o List.mem_cons_self) hs hj hp hdb hrow
    exact decayRow_sinking hd hc hold

lemma quiet_last (hp : cfg.prior ∈ floors) (hc : 0 ≤ c) {xs ys : List Observation} {o : Observation}
    (hstart : ∀ j row, (Runs.final (observe digest cfg) .empty xs).edgeMemory.get? j = some row → row.Sinking floors c)
    (hq : ∀ p ∈ ys ++ [o], Quiet a b p) {j : EdgeKey} {row : EdgeRow} (hj : j.pair = s(a, b))
    (hrow : (observe digest cfg (Runs.final (observe digest cfg) .empty (xs ++ ys)) o).1.edgeMemory.get? j = some row) :
    j.signal = cfg.signal ∧ ∃ old, row = decayRow cfg o.ts old ∧
      row.Sinking floors (c * (1 - cfg.decay) ^ ys.length * (1 - cfg.decay)) := by
  have hq₀ : 0 ≤ 1 - cfg.decay := by linarith [hd.2]
  have hs : j.signal = cfg.signal := by
    by_contra hs
    have hnone := foreign_row digest (xs ++ (ys ++ [o])) hs
    rw [← List.append_assoc, Runs.final_append] at hnone
    exact Option.some_ne_none row (hrow.symm.trans hnone)
  have hdb := sinking_run digest hd hp hc hs hj (hstart j) ys fun p hp => hq p (List.mem_append_left _ hp)
  rw [← Runs.final_append] at hdb
  rw [edgeMemory_observe] at hrow
  obtain ⟨old, hold, rfl⟩ := quiet_row_decayed (hq o (by simp)) hs hj hp hdb hrow
  exact ⟨hs, old, rfl, decayRow_sinking hd (by positivity) hold⟩

end Run

/-- After finitely many quiet passes a pair of workloads rests at its floors: one held edge, or none. -/
theorem quiet_pair_settles (digest : CaseKey → String) (cfg : MemoryConfig) (hd : 0 < cfg.decay ∧ cfg.decay ≤ 1)
    (hh : 0 < cfg.hideAt) (xs : List Observation) (a b : String) :
    ∃ N, ∀ ys o, N ≤ (ys ++ [o]).length → (∀ p ∈ ys ++ [o], Quiet a b p) →
      let db := Runs.final (observe digest cfg) .empty (xs ++ ys)
      let table := (observe digest cfg db o).1.edgeMemory
      let drawn := (observe digest cfg db o).2.edges.filter fun r => workloads r.edge = s(a, b)
      (∀ j row, table.get? j = some row → j.pair = s(a, b) → 0 < row.baseConf →
        row.confidence = row.baseConf ∧ row.state = .steady) ∧
      ((∃ j row, table.get? j = some row ∧ j.pair = s(a, b) ∧ 0 < row.baseConf) →
        ∃ r, drawn = [r] ∧ r.held = true) ∧
      (cfg.prior = 0 → cfg.floorFrac = 0 → drawn = []) := by
  have hq₀ : 0 ≤ 1 - cfg.decay := by linarith [hd.2]
  have hq₁ : 1 - cfg.decay < 1 := by linarith [hd.1]
  -- the floors that can occur from here on, and a bound on the confidences reached so far
  let start := Runs.final (observe digest cfg) .empty xs
  let floors := cfg.prior :: start.edgeMemory.values.map EdgeRow.baseConf
  obtain ⟨c, hc, hbound⟩ := exists_upper_bound (start.edgeMemory.values.map EdgeRow.confidence)
  obtain ⟨N, hN⟩ := exists_decayed_below hc hq₀ hq₁ (cfg.hideAt :: floors)
  have hstart : ∀ j row, start.edgeMemory.get? j = some row → row.Sinking floors c := by
    intro j row hrow
    have hmem := OrderedMap.get?_mem_values hrow
    exact ⟨List.mem_cons_of_mem _ (List.mem_map_of_mem hmem),
      le_max_of_le_right (hbound _ (List.mem_map_of_mem hmem))⟩
  refine ⟨N, ?_⟩
  intro ys o hlen hquiet db table drawn
  have hlow := hN _ hlen
  rw [List.length_append, List.length_singleton, pow_succ, ← mul_assoc] at hlow
  have hrows : ∀ j row, table.get? j = some row → j.pair = s(a, b) → j.signal = cfg.signal ∧
      ∃ old, row = decayRow cfg o.ts old ∧ row.Sinking floors (c * (1 - cfg.decay) ^ ys.length * (1 - cfg.decay)) :=
    fun j row hrow hj => quiet_last digest hd List.mem_cons_self hc hstart hquiet hj hrow
  obtain ⟨hfrom, hshown⟩ := quiet_drawn digest cfg db (hquiet o (by simp))
  refine ⟨?_, ?_, ?_⟩
  · intro j row hrow hj hpos
    obtain ⟨-, old, rfl, hsink⟩ := hrows j row hrow hj
    exact decayRow_steady hsink (fun f hf => hlow f (List.mem_cons_of_mem _ hf)) hpos
  · rintro ⟨j, row, hrow, hj, hpos⟩
    obtain ⟨hs, -⟩ := hrows j row hrow hj
    exact hshown j row hrow ⟨hs, hj, Or.inr hpos⟩
  · intro hp hf
    apply List.eq_nil_iff_forall_not_mem.mpr
    intro r hr
    obtain ⟨j, row, hrow, hs, hj, hshow⟩ := hfrom r hr
    have hzero := floorless_run digest hp hf (xs ++ (ys ++ [o])) j row (by
      rw [← List.append_assoc, Runs.final_append]
      exact hrow)
    obtain ⟨-, old, rfl, hsink⟩ := hrows j row hrow hj
    have hhide := decayRow_hidden hsink hzero (by positivity) (hlow cfg.hideAt List.mem_cons_self hh)
    simp [hhide, hzero] at hshow

theorem quiet_pair_settles_disk : ∃ N r, (observe (fun _ => "c0") {} (Runs.final (observe (fun _ => "c0") {}) .empty
    ([diskPass] ++ List.replicate N monitorRestarted)) monitorRestarted).2.edges.filter
      (fun r => workloads r.edge = s("cooling-monitor", "timescaledb")) = [r] ∧ r.held = true := by
  obtain ⟨N, hN⟩ := quiet_pair_settles (fun _ => "c0") {} (by norm_num) (by norm_num) [diskPass]
    "cooling-monitor" "timescaledb"
  obtain ⟨row, hrow, hpos⟩ : ∃ row, (Runs.final (observe (fun _ => "c0") {}) .empty [diskPass]).edgeMemory.get?
      ⟨"cooling-monitor", "timescaledb", "psi_io"⟩ = some row ∧ 0 < row.baseConf := by
    obtain ⟨row, hrow, hbase⟩ := Option.map_eq_some_iff.mp (by decide +kernel :
      ((Runs.final (observe (fun _ => "c0") {}) .empty [diskPass]).edgeMemory.get?
        ⟨"cooling-monitor", "timescaledb", "psi_io"⟩).map EdgeRow.baseConf = some (26 / 125))
    exact ⟨row, hrow, by rw [hbase]; norm_num⟩
  obtain ⟨row', hrow', hcont⟩ := continues_run (fun _ => "c0") hrow
    (List.replicate N monitorRestarted ++ [monitorRestarted])
  rw [← Runs.final_append, ← List.append_assoc, Runs.final_snoc] at hrow'
  have hquiet : ∀ p ∈ List.replicate N monitorRestarted ++ [monitorRestarted],
      Quiet "cooling-monitor" "timescaledb" p := by
    intro p hp
    rw [← List.replicate_succ'] at hp
    rw [List.eq_of_mem_replicate hp]
    exact ⟨by decide, by decide⟩
  obtain ⟨r, hr, hh⟩ := (hN (List.replicate N monitorRestarted) monitorRestarted (by simp) hquiet).2.1
    ⟨_, row', hrow', rfl, hpos.trans_le hcont.floor⟩
  exact ⟨N, r, hr, hh⟩

end CausalEngine.Memory
